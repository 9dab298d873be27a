import SubscriptionGateway.Json.Basic

/-!
Decimal numerals and the numbers they are read as. An integer that fits 64 bits stays exact. Any
other numeral is the first digits that fit an unsigned 64-bit word, taken as a double and then
multiplied or divided by the double nearest to the power of ten: each of the steps rounds, so a
long numeral need not give the double nearest to it.
-/
namespace SubscriptionGateway

/-- A numeral as written, its digits as numbers below ten. -/
structure Numeral where
  negative : Bool
  whole : List Nat
  fraction : Option (List Nat)
  exponent : Option (Bool × List Nat)
  deriving DecidableEq

namespace Numeral

def wordMax : Nat := Nat.pow 2 64 - 1

/-- Takes digits as long as the number they spell stays within `limit`: the number, how many were
taken and how many were left. -/
def gather (limit : Nat) : Nat → Nat → List Nat → Nat × Nat × Nat
  | acc, taken, [] => (acc, taken, 0)
  | acc, taken, d :: ds =>
    if acc * 10 + d ≤ limit then gather limit (acc * 10 + d) (taken + 1) ds
    else (acc, taken, ds.length + 1)

def powerOfTen (k : Nat) : Binary64 := (Binary64.ofDecimal? false 1 k).getD Binary64.zero

/-- Scales by a power of ten one table step at a time; none when the result is too large. -/
def scale : Nat → Binary64 → Int → Option Binary64
  | 0, x, _ => some x
  | fuel + 1, x, e =>
    if e.natAbs ≤ 308 then
      if 0 ≤ e then x.mul? (powerOfTen e.natAbs) else x.div? (powerOfTen e.natAbs)
    else if x.isZero then some x
    else if 0 ≤ e then none
    else (x.div? (powerOfTen 308)).bind (scale fuel · (e + 308))

def double? (negative : Bool) (digits : Nat) (e : Int) : Option Binary64 :=
  ((Binary64.ofNat? digits).bind (scale 4 · e)).map (·.withSign negative)

/-- The number read; none when it is beyond the doubles. -/
def value? (n : Numeral) : Option JsonNumber :=
  let (head, _, dropped) := gather wordMax 0 0 n.whole
  match n.fraction, n.exponent, dropped with
  | none, none, 0 =>
    if n.negative then
      if h : IntegerRange (-(head : Int)) ∧ head ≠ 0 then some (.integer _ h.1)
      else (double? true head 0).map .double
    else JsonNumber.ofNat? head
  | fraction, exponent, dropped =>
    let (digits, taken, _) := gather wordMax head 0 (fraction.getD [])
    let e : Int := (dropped : Int) - taken
    match exponent with
    | none => (double? n.negative digits e).map .double
    | some (negative, ds) =>
      let (power, _, beyond) := gather (Nat.pow 2 31 - 1) 0 0 ds
      if beyond = 0 then
        (double? n.negative digits (if negative then e - power else e + power)).map .double
      else if digits ≠ 0 && !negative then none
      else some (.double (Binary64.zero.withSign n.negative))

def digitsOf (cs : List Char) : List Nat := cs.map (fun c => c.toNat - 48)

def digits (cs : List Char) : List Nat × List Char :=
  (digitsOf (cs.takeWhile Char.isDigit), cs.dropWhile Char.isDigit)

def scanSign : List Char → Bool × List Char
  | '-' :: cs => (true, cs)
  | cs => (false, cs)

def scanWhole : List Char → Option (List Nat × List Char)
  | '0' :: rest => some ([0], rest)
  | cs => match digits cs with
    | ([], _) => none
    | (ds, rest) => some (ds, rest)

def scanFraction : List Char → Option (Option (List Nat) × List Char)
  | '.' :: cs => match digits cs with
    | ([], _) => none
    | (ds, rest) => some (some ds, rest)
  | cs => some (none, cs)

def scanExponent : List Char → Option (Option (Bool × List Nat) × List Char)
  | c :: rest =>
    if c = 'e' || c = 'E' then
      let (negative, rest) := match rest with
        | '+' :: rest => (false, rest)
        | '-' :: rest => (true, rest)
        | rest => (false, rest)
      match digits rest with
      | ([], _) => none
      | (ds, rest) => some (some (negative, ds), rest)
    else some (none, c :: rest)
  | [] => some (none, [])

/-- Reads the numeral that a text begins with; a nought ends its whole part. -/
def scan (cs : List Char) : Option (Numeral × List Char) := do
  let (negative, cs) := scanSign cs
  let (whole, cs) ← scanWhole cs
  let (fraction, cs) ← scanFraction cs
  let (exponent, cs) ← scanExponent cs
  return (⟨negative, whole, fraction, exponent⟩, cs)

end Numeral

end SubscriptionGateway
