import TokenBucket.Main
import TokenBucket.Decimal.Significant
import TokenBucket.Script.Run
import TokenBucket.Proofs.Wire.Replies
import TokenBucket.Proofs.Store.Held
import TokenBucket.Proofs.Store.Ledger
import TokenBucket.Proofs.Fleet.Basic
import TokenBucket.Proofs.Fleet.Soundness
import TokenBucket.Proofs.Fleet.Closing
import TokenBucket.Proofs.Fleet.RoundTrips
import TokenBucket.Proofs.Fleet.Excess
import TokenBucket.Proofs.Fleet.Answers
import TokenBucket.Proofs.Fleet.Looks
import TokenBucket.Proofs.Fleet.Keys
import TokenBucket.Proofs.Fleet.Encodings
import TokenBucket.Proofs.Fleet.Expiration
import TokenBucket.Proofs.Fleet.Counter
import TokenBucket.Proofs.Fleet.Denials
import TokenBucket.Proofs.Store.LateDraws
import TokenBucket.Proofs.Store.Sweeps
import TokenBucket.Proofs.Fleet.Budget
import TokenBucket.Proofs.Fleet.Rising
import TokenBucket.Proofs.Script.Twin
import TokenBucket.Proofs.Script.Healing
import TokenBucket.Proofs.Remote.FailClosed
import TokenBucket.Proofs.Remote.Commands
import TokenBucket.Proofs.Binary64.Nearest
import TokenBucket.Proofs.Decimal.Grammar
import TokenBucket.Proofs.Wire.Meaning
import TokenBucket.Proofs.Wire.StoredRecords
