import SubscriptionGateway.Fault
import SubscriptionGateway.Number.Double
import SubscriptionGateway.Text.Blank

/-!
Addresses to listen at: a host, a colon and a port. Only the last colon counts. A host is a number
in one to four parts, a number between brackets, or a name; no other name than that of the machine
itself is known.
-/
namespace SubscriptionGateway.Server

inductive AddressError where
  | noPort
  | badPort
  | noName
  | unknownName
  | elsewhere
  deriving DecidableEq, Repr

namespace AddressError

def lookup (detail : String) : String := "failed to lookup address information: " ++ detail

def fault (e : AddressError) : Fault :=
  .internal <| match e with
    | .noPort => "invalid socket address"
    | .badPort => "invalid port value"
    | .noName => lookup "Name or service not known"
    | .unknownName => lookup "Temporary failure in name resolution"
    | .elsewhere => "Cannot assign requested address (os error 99)"

end AddressError

structure Address where
  host : String
  port : Nat
  deriving DecidableEq, Repr

namespace Address

def splitAtLastColon (cs : List Char) : Option (List Char × List Char) :=
  let tail := cs.reverse.takeWhile (· != ':')
  if tail.length < cs.length then
    some (cs.take (cs.length - tail.length - 1), tail.reverse)
  else none

/-- A decimal number up to 65535, maybe after a plus sign. -/
def port? (cs : List Char) : Option Nat := Written.natBelow? 65536 cs

/-! ## Hosts that are numbers -/

def hostPart? : List Char → Option Nat
  | '0' :: 'x' :: rest | '0' :: 'X' :: rest => Written.digits? 16 rest
  | '0' :: d :: rest => Written.digits? 8 (d :: rest)
  | cs => Written.digits? 10 cs

/-- The bytes of a number; the last part stands for all bytes that have no part of their own. -/
def bytes? (host : String) : Option (List Nat) := do
  let parts ← (host.splitOn ".").mapM fun p => hostPart? p.toList
  let last ← parts.getLast?
  let before := parts.dropLast
  let left := 4 - before.length
  if 3 < before.length || before.any (255 < ·) || Nat.pow 256 left ≤ last then none
  return before ++ ((List.range left).reverse.map fun i => last / Nat.pow 256 i % 256)

/-- Every number that begins so is the machine's own, and nought is all of its numbers. -/
def isOwn (bytes : List Nat) : Bool := bytes.head? == some 127 || bytes.all (· == 0)

def bytesText (bytes : List Nat) : String := ".".intercalate (bytes.map toString)

/-! ## Hosts by name -/

def isNameChar (c : Char) : Bool := c.isAlphanum || c == '-' || c == '_' || c == '.'

def isName (host : String) : Bool :=
  host ≠ "" && !host.startsWith "-" && host.toList.all isNameChar

def ownName : String := "localhost"

def ownNumber : String := "127.0.0.1"

def hostNumber (host : String) : Except AddressError String :=
  match bytes? host with
  | some bytes => if isOwn bytes then .ok (bytesText bytes) else .error .elsewhere
  | none =>
    if host.startsWith "[" && host.endsWith "]" then .ok host
    else if Text.sameIgnoringCase host ownName then .ok ownNumber
    else if isName host then .error .unknownName
    else .error .noName

def find (s : String) : Except AddressError Address :=
  match splitAtLastColon s.toList with
  | none => .error .noPort
  | some (host, port) =>
    match port? port with
    | none => .error .badPort
    | some n => (hostNumber (String.ofList host)).map fun host => ⟨host, n⟩

end Address

end SubscriptionGateway.Server
