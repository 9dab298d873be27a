import SubscriptionGateway.Number.Binary64

/-!
Numbers as people write them in settings and arguments: integers of a sign, which may be missing,
and digits, and doubles with the infinities and the value that is no number. How doubles are read
from a decimal numeral and what they are worth as words of 64 bits.
-/
namespace SubscriptionGateway.Written

def digit? (base : Nat) (c : Char) : Option Nat :=
  let n := c.toNat
  let d :=
    if 48 ≤ n && n ≤ 57 then n - 48
    else if 65 ≤ n && n ≤ 70 then n - 55
    else if 97 ≤ n && n ≤ 102 then n - 87
    else base
  if d < base then some d else none

def digitsFrom? (base : Nat) : Nat → List Char → Option Nat
  | acc, [] => some acc
  | acc, c :: rest => (digit? base c).bind fun d => digitsFrom? base (acc * base + d) rest

def digits? (base : Nat) : List Char → Option Nat
  | [] => none
  | cs => digitsFrom? base 0 cs

def natBelow? (bound : Nat) (cs : List Char) : Option Nat :=
  let n := match cs with
    | '+' :: rest => digits? 10 rest
    | cs => digits? 10 cs
  n.filter (· < bound)

def intWithin? (base : Nat) (low high : Int) (cs : List Char) : Option Int :=
  let i : Option Int := match cs with
    | '+' :: rest => (digits? base rest).map fun n => (n : Int)
    | '-' :: rest => (digits? base rest).map fun n => -(n : Int)
    | cs => (digits? base cs).map fun n => (n : Int)
  i.filter fun i => low ≤ i ∧ i ≤ high

def int64? (base : Nat) (cs : List Char) : Option Int :=
  intWithin? base (-(Nat.pow 2 63 : Nat)) ((Nat.pow 2 63 : Nat) - 1) cs

def int32? (cs : List Char) : Option Int :=
  intWithin? 10 (-(Nat.pow 2 31 : Nat)) ((Nat.pow 2 31 : Nat) - 1) cs

end SubscriptionGateway.Written

namespace SubscriptionGateway

inductive Double where
  | finite (value : Binary64)
  | infinite (negative : Bool)
  | nan
  deriving DecidableEq

namespace Double

def lowerChars (cs : List Char) : List Char := cs.map Char.toLower

/-- The power of ten that a numeral ends with; none when what follows the digits is no such. -/
def exponent? : List Char → Option Int
  | [] => some 0
  | c :: rest =>
    if c = 'e' || c = 'E' then
      match rest with
      | '-' :: ds => (Written.digits? 10 ds).map fun n => -(n : Int)
      | '+' :: ds => (Written.digits? 10 ds).map fun n => (n : Int)
      | ds => (Written.digits? 10 ds).map fun n => (n : Int)
    else none

/-- The double nearest to `± digits · 10 ^ power`, where `length` digits were written. A power far
past the doubles is not raised. -/
def nearest (negative : Bool) (digits length : Nat) (power : Int) : Double :=
  if digits = 0 then .finite (Binary64.zero.withSign negative)
  else if 400 < power then .infinite negative
  else if (length : Int) + power < -400 then .finite (Binary64.zero.withSign negative)
  else match Binary64.ofDecimal? negative digits power with
    | some x => .finite x
    | none => .infinite negative

def magnitude? (negative : Bool) (cs : List Char) : Option Double :=
  let whole := cs.takeWhile Char.isDigit
  let rest := cs.dropWhile Char.isDigit
  let (fraction, rest) := match rest with
    | '.' :: rest => (rest.takeWhile Char.isDigit, rest.dropWhile Char.isDigit)
    | rest => ([], rest)
  let digits := whole ++ fraction
  if lowerChars cs = "inf".toList || lowerChars
    cs = "infinity".toList then some (.infinite negative)
  else if lowerChars cs = "nan".toList then some .nan
  else do
    let n ← Written.digits? 10 digits
    let power ← exponent? rest
    return nearest negative n digits.length (power - (fraction.length : Int))

/-- A decimal numeral with digits before or after its point, or the word for an infinity or for
the value that is no number, in any case. -/
def ofChars? : List Char → Option Double
  | '-' :: rest => magnitude? true rest
  | '+' :: rest => magnitude? false rest
  | cs => magnitude? false cs

def text : Double → String
  | .finite x => String.ofList x.plainChars
  | .infinite negative => if negative then "-inf" else "inf"
  | .nan => "NaN"

def isZero : Double → Bool
  | .finite x => x.isZero
  | _ => false

/-- The nearest word, a half going up; what lies outside the words is the nearer end of them, and
no number counts as nought. -/
def word : Double → Nat
  | .finite x => min x.nearestInt.toNat (Nat.pow 2 64 - 1)
  | .infinite negative => if negative then 0 else Nat.pow 2 64 - 1
  | .nan => 0

def finite? : Double → Option Binary64
  | .finite x => some x
  | _ => none

end Double

end SubscriptionGateway
