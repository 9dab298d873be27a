/-!
Finite double-precision numbers as exact integers: sign, significand and power of two. Rounding
is to the nearest such number, a tie to the even significand; a value too large for any of them
has no rounding.
-/
namespace SubscriptionGateway

/-- The significand is normalised unless the exponent is the least one. -/
def Binary64.Canonical (significand : Nat) (exponent : Int) : Prop :=
  significand < Nat.pow 2 53 ∧ -1074 ≤ exponent ∧ exponent ≤ 971 ∧
    (exponent = -1074 ∨ Nat.pow 2 52 ≤ significand)

instance (s : Nat) (e : Int) : Decidable (Binary64.Canonical s e) := by
  unfold Binary64.Canonical; infer_instance

/-- Stands for `± significand · 2 ^ exponent`. -/
structure Binary64 where
  negative : Bool
  significand : Nat
  exponent : Int
  canonical : Binary64.Canonical significand exponent
  deriving DecidableEq

namespace Binary64

def zero : Binary64 := ⟨false, 0, -1074, by decide⟩

instance : Inhabited Binary64 := ⟨zero⟩

def isZero (x : Binary64) : Bool := x.significand == 0

def withSign (negative : Bool) (x : Binary64) : Binary64 := { x with negative := negative }

def ratio (x : Binary64) : Nat × Nat :=
  if 0 ≤ x.exponent then (x.significand * Nat.pow 2 x.exponent.toNat, 1)
  else (x.significand, Nat.pow 2 (-x.exponent).toNat)

/-- `num / (den · 2 ^ e)` rounded to the nearest integer, a tie to the even one. -/
def roundAt (num den : Nat) (e : Int) : Nat :=
  let n := if 0 ≤ e then num else num * Nat.pow 2 (-e).toNat
  let d := if 0 ≤ e then den * Nat.pow 2 e.toNat else den
  let q := n / d
  let r := n % d
  if 2 * r < d then q else if d < 2 * r then q + 1 else q + q % 2

/-- The least exponent at which `num / den` has at most 53 binary digits. -/
def scaleOf (num den : Nat) : Int :=
  let e : Int := (num.log2 : Int) - (den.log2 : Int) - 53
  let fits := if 0 ≤ e then num < den * Nat.pow 2 e.toNat * Nat.pow 2 53
    else num * Nat.pow 2 (-e).toNat < den * Nat.pow 2 53
  max (-1074) (if fits then e else e + 1)

/-- The double nearest to `± num / den`; none when it is past the largest. -/
def ofRatio? (negative : Bool) (num den : Nat) : Option Binary64 :=
  if num = 0 then some (zero.withSign negative) else
  let e := scaleOf num den
  let q := roundAt num den e
  let (q, e) := if q = Nat.pow 2 53 then (Nat.pow 2 52, e + 1) else (q, e)
  if h : Canonical q e then some ⟨negative, q, e, h⟩ else none

def ofDecimal? (negative : Bool) (digits : Nat) (exponent : Int) : Option Binary64 :=
  if 0 ≤ exponent then ofRatio? negative (digits * Nat.pow 10 exponent.toNat) 1
  else ofRatio? negative digits (Nat.pow 10 (-exponent).toNat)

def ofNat? (n : Nat) : Option Binary64 := ofRatio? false n 1

def ofInt? (i : Int) : Option Binary64 := ofRatio? (decide (i < 0)) i.natAbs 1

def mul? (x y : Binary64) : Option Binary64 :=
  let (a, b) := x.ratio
  let (c, d) := y.ratio
  ofRatio? (x.negative != y.negative) (a * c) (b * d)

def div? (x y : Binary64) : Option Binary64 :=
  let (a, b) := x.ratio
  let (c, d) := y.ratio
  if c = 0 then none else ofRatio? (x.negative != y.negative) (a * d) (b * c)

def truncate (x : Binary64) : Nat :=
  let (a, b) := x.ratio
  a / b

/-- The nearest integer, a half going away from zero. -/
def nearestInt (x : Binary64) : Int :=
  let (a, b) := x.ratio
  let n : Int := ((2 * a + b) / (2 * b) : Nat)
  if x.negative then -n else n

def le (x y : Binary64) : Bool :=
  let (a, b) := x.ratio
  let (c, d) := y.ratio
  let l : Int := (a * d : Nat)
  let r : Int := (c * b : Nat)
  (if x.negative then -l else l) ≤ (if y.negative then -r else r)

def same (x y : Binary64) : Bool := x == y || (x.isZero && y.isZero)

/-! ## The fewest digits that read back -/

/-- `k` with `10 ^ (k - 1) ≤ num / den < 10 ^ k`, for a positive quotient. -/
def decimalOrder (num den : Nat) : Int :=
  if den ≤ num then ((Nat.toDigits 10 (num / den)).length : Int)
  else 1 - ((Nat.toDigits 10 ((den - 1) / num)).length : Int)

inductive Tie where
  | even
  | up
  deriving DecidableEq

/-- On the decimal grid of step `10 ^ step`, the nearest of the value's two neighbours that reads
back as the value. -/
def onGrid? (tie : Tie) (x : Binary64) (step : Int) : Option Nat :=
  let (a, b) := x.ratio
  let n := if 0 ≤ step then a else a * Nat.pow 10 (-step).toNat
  let d := if 0 ≤ step then b * Nat.pow 10 step.toNat else b
  let low := n / d
  let reads (k : Nat) := ofDecimal? x.negative k step == some x
  let lowFirst := 2 * (n % d) < d || (2 * (n % d) == d && tie = .even && low % 2 == 0)
  let (first, second) := if lowFirst then (low, low + 1) else (low + 1, low)
  if reads first then some first else if reads second then some second else none

def stripFuel : Nat → Nat → Int → Nat × Int
  | 0, k, step => (k, step)
  | fuel + 1, k, step => if k % 10 = 0 then stripFuel fuel (k / 10) (step + 1) else (k, step)

def shortestFrom (tie : Tie) (x : Binary64) (order : Int) : Nat → Nat → Nat × Int
  | 0, _ =>
    let (a, b) := x.ratio
    (a * Nat.pow 10 1074 / b, -1074)
  | left + 1, digits =>
    let step := order - (digits : Int)
    match onGrid? tie x step with
    | some k => stripFuel digits k step
    | none => shortestFrom tie x order left (digits + 1)

/-- Digits and power of ten of the shortest decimal that reads back. -/
def shortest (tie : Tie) (x : Binary64) : Nat × Int :=
  let (a, b) := x.ratio
  if a = 0 then (0, 0) else shortestFrom tie x (decimalOrder a b) 17 1

def zeros (n : Nat) : List Char := List.replicate n '0'

/-- Where a point is written and where an exponent: a value from 10^-5 up to below 10^16 is
positional and keeps at least one digit after the point; all else has an exponent, with neither
plus sign nor padding. -/
def decimalChars (digits : Nat) (k : Int) : List Char :=
  let ds := Nat.toDigits 10 digits
  let point := (ds.length : Int) + k
  if 0 ≤ k && point ≤ 16 then ds ++ zeros k.toNat ++ ".0".toList
  else if 0 < point && point ≤ 16 then ds.take point.toNat ++ '.' :: ds.drop point.toNat
  else if -5 < point && point ≤ 0 then "0.".toList ++ zeros (-point).toNat ++ ds
  else
    let e := (toString (point - 1)).toList
    match ds with
    | [d] => d :: 'e' :: e
    | d :: rest => d :: '.' :: (rest ++ 'e' :: e)
    | [] => []

/-- Of two digits at equal distance the even one is written. -/
def chars (x : Binary64) : List Char :=
  let sign := if x.negative then ['-'] else []
  if x.isZero then sign ++ "0.0".toList else
  let (digits, k) := x.shortest .even
  sign ++ decimalChars digits k

/-- Without an exponent, and without a point when the value is whole; of two digits at equal
distance the upper one is written. -/
def plainChars (x : Binary64) : List Char :=
  let sign := if x.negative then ['-'] else []
  if x.isZero then sign ++ ['0'] else
  let (digits, k) := x.shortest .up
  let ds := Nat.toDigits 10 digits
  let point := (ds.length : Int) + k
  sign ++
    if 0 ≤ k then ds ++ zeros k.toNat
    else if 0 < point then ds.take point.toNat ++ '.' :: ds.drop point.toNat
    else "0.".toList ++ zeros (-point).toNat ++ ds

end Binary64

end SubscriptionGateway
