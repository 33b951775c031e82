import TokenBucket.Script.Source
import TokenBucket.Text.Quoted

/-!
# The digest of a script

A remote store knows a loaded script by the SHA-1 digest of its text, forty hexadecimal digits. The
message is cut into blocks of 64 bytes after a one bit, zero bits and its length have been put behind it;
each block is stirred into five words of 32 bits in eighty rounds.

## Main definitions

* `Digest.sha1`: the digest of a list of bytes.
* `Script.digest`: the name of the bucket script.
-/

namespace TokenBucket

namespace Digest

/-- The five words that a digest consists of. -/
structure State where
  a : UInt32
  b : UInt32
  c : UInt32
  d : UInt32
  e : UInt32

/-- The words before the first block. -/
def initial : State := ⟨0x67452301, 0xEFCDAB89, 0x98BADCFE, 0x10325476, 0xC3D2E1F0⟩

/-- Rotates a word to the left. -/
def rotate (x : UInt32) (n : UInt32) : UInt32 := (x <<< n) ||| (x >>> (32 - n))

/-- The bytes of a number, `count` of them, the most significant first. -/
def bigEndian (count n : Nat) : List UInt8 :=
  (List.range count).map fun i => UInt8.ofNat (n >>> (8 * (count - 1 - i)))

/-- The message filled up to whole blocks. -/
def padded (message : List UInt8) : List UInt8 :=
  message ++ 0x80 :: List.replicate ((119 - message.length % 64) % 64) 0 ++
    bigEndian 8 (8 * message.length)

/-- The bytes of a list in groups of four, each read as a word. -/
def words : List UInt8 → List UInt32
  | b0 :: b1 :: b2 :: b3 :: rest =>
    ((b0.toUInt32 <<< 24) ||| (b1.toUInt32 <<< 16) ||| (b2.toUInt32 <<< 8) ||| b3.toUInt32) ::
      words rest
  | _ => []

/-- Continues a schedule of words, the latest first, by `count` more: each is a rotated sum of four
earlier ones. -/
def extend : Nat → List UInt32 → List UInt32
  | 0, schedule => schedule
  | count + 1, schedule =>
    let at' (i : Nat) : UInt32 := schedule.getD i 0
    extend count (rotate (at' 2 ^^^ at' 7 ^^^ at' 13 ^^^ at' 15) 1 :: schedule)

/-- One round on the five words; which function mixes them depends on the number of the round. -/
def mix (s : State) (round : UInt32 × Nat) : State :=
  let (word, t) := round
  let (f, k) :=
    if t < 20 then ((s.b &&& s.c) ||| ((s.b ^^^ 0xFFFFFFFF) &&& s.d), (0x5A827999 : UInt32))
    else if t < 40 then (s.b ^^^ s.c ^^^ s.d, 0x6ED9EBA1)
    else if t < 60 then ((s.b &&& s.c) ||| (s.b &&& s.d) ||| (s.c &&& s.d), 0x8F1BBCDC)
    else (s.b ^^^ s.c ^^^ s.d, 0xCA62C1D6)
  ⟨rotate s.a 5 + f + s.e + k + word, s.a, rotate s.b 30, s.c, s.d⟩

/-- Stirs a block of sixteen words in. -/
def block (s : State) (words : List UInt32) : State :=
  let schedule := (extend 64 words.reverse).reverse
  let t := schedule.zipIdx.foldl mix s
  ⟨s.a + t.a, s.b + t.b, s.c + t.c, s.d + t.d, s.e + t.e⟩

/-- Stirs a list of words in, sixteen at a time. -/
def blocks : Nat → State → List UInt32 → State
  | 0, s, _ => s
  | count + 1, s, words => blocks count (block s (words.take 16)) (words.drop 16)

/-- The SHA-1 digest of a message, in hexadecimal. -/
def sha1 (message : List UInt8) : String :=
  let all := words (padded message)
  let s := blocks (all.length / 16) initial all
  let digits (x : UInt32) : List Char :=
    let digits := hexDigits x.toNat
    List.replicate (8 - digits.length) '0' ++ digits
  String.ofList ([s.a, s.b, s.c, s.d, s.e].flatMap digits)

end Digest

/-- The digest by which a remote store knows the bucket script. -/
def Script.digest : String := Digest.sha1 Script.source.toUTF8.toList

end TokenBucket
