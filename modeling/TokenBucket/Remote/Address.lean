import TokenBucket.Decimal.Numeral

/-!
# Addresses of remote stores

A remote store is named by an address with a scheme. Over the network that is a host, a port, and a
number of a database, with an optional user and password before the host and options behind; on the same
machine it is the path of a socket.

## Main definitions

* `Address`, `Address.parse?`.
* `Address.standard`.
-/

namespace TokenBucket

/-- Where a remote store is reached. -/
inductive Address where
  /-- Over the network. -/
  | network (host : String) (port : Nat) (database : Int64)
  /-- At a socket of the same machine. -/
  | socket (path : String)
deriving DecidableEq

namespace Address

/-- The port used where none is given. -/
def standardPort : Nat := 6379

/-- The usual address. -/
def standard : String := "redis://127.0.0.1:6379/"

/-- Cuts a text at the first character of a class, which stays with the second part. -/
def cutAt (stop : Char → Bool) (text : List Char) : List Char × List Char :=
  text.span fun c => !stop c

/-- The scheme in lower case, and what stands behind its colon. -/
def scheme? (text : List Char) : Option (String × List Char) :=
  let (scheme, rest) := cutAt (· == ':') text
  let follows (c : Char) : Bool := c.isAlphanum || c == '+' || c == '-' || c == '.'
  match scheme, rest with
  | first :: more, _ :: rest =>
    if first.isAlpha && more.all follows then some (String.ofList (scheme.map Char.toLower), rest)
    else none
  | _, _ => none

/-- Whether a character may stand in a host name. -/
def isHostCharacter (c : Char) : Bool :=
  !(" #/:<>?@[\\]^|\t\n\r".toList.contains c) && c.toNat != 0

/-- The host and port that stand before the path. User and password, if any, end at the last at-sign. -/
def hostAndPort? (authority : List Char) : Option (String × Nat) := do
  let behindUser := ((authority.reverse.span (· ≠ '@')).1).reverse
  let (host, rest) ← match behindUser with
    | '[' :: inside =>
      match cutAt (· == ']') inside with
      | (host, _ :: rest) =>
        if host.all (fun c => c.isDigit || c == ':' || c == '.' || "abcdefABCDEF".toList.contains c)
        then some (host, rest) else none
      | _ => none
    | _ =>
      let (host, rest) := cutAt (· == ':') behindUser
      if host.all isHostCharacter then some (host, rest) else none
  if host.isEmpty then none
  let port ← match rest with
    | [] => some standardPort
    | [':'] => some standardPort
    | ':' :: digits => (Numeral.natural? digits).filter (· < 65536)
    | _ => none
  return (String.ofList host, port)

/-- The path and the options behind a question mark. A fragment is left out. -/
def pathAndOptions (text : List Char) : List Char × List (List Char) :=
  let text := (cutAt (· == '#') text).1
  let (path, options) := cutAt (· == '?') text
  (path, (String.ofList (options.drop 1)).splitOn "&" |>.map String.toList)

/-- Whether the options name a version of the wire format only if they name a known one. -/
def optionsValid (options : List (List Char)) : Bool :=
  options.all fun option =>
    match cutAt (· == '=') option with
    | (name, value) =>
      String.ofList name ≠ "protocol" ||
        ["=2", "=resp2", "=3", "=resp3"].contains (String.ofList value)

/-- A path without the slashes at either end. -/
def withoutSlashes (path : List Char) : List Char :=
  ((path.dropWhile (· == '/')).reverse.dropWhile (· == '/')).reverse

/-- The address of a network store. -/
def network? (text : List Char) : Option Address := do
  let '/' :: '/' :: rest := text | none
  let (authority, rest) := cutAt (fun c => c == '/' || c == '?' || c == '#') rest
  let (host, port) ← hostAndPort? authority
  let (path, options) := pathAndOptions rest
  if !optionsValid options then none
  let database ← match withoutSlashes path with
    | [] => some 0
    | digits => Numeral.int64? digits
  return .network host port database

/-- The address of a socket. -/
def socket? (text : List Char) : Option Address := do
  let '/' :: '/' :: rest := text | none
  let (authority, rest) := cutAt (fun c => c == '/' || c == '?' || c == '#') rest
  if !(authority.isEmpty || String.ofList authority = "localhost") then none
  let (path, options) := pathAndOptions rest
  if path.isEmpty || !optionsValid options then none
  return .socket (String.ofList path)

/-- A text without the spaces and control characters at either end, and without any tab or line break
inside. They do not belong to an address. -/
def cleaned (text : List Char) : List Char :=
  let outside (c : Char) : Bool := c.toNat ≤ 0x20
  let trimmed := ((text.dropWhile outside).reverse.dropWhile outside).reverse
  trimmed.filter fun c => c ≠ '\t' && c ≠ '\n' && c ≠ '\r'

/-- Reads an address. -/
def parse? (text : String) : Option Address := do
  let (scheme, rest) ← scheme? (cleaned text.toList)
  if ["redis", "valkey"].contains scheme then network? rest
  else if ["unix", "redis+unix", "valkey+unix"].contains scheme then socket? rest
  else none

end Address

end TokenBucket
