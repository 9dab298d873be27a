import SubscriptionGateway.Json.Reader
import SubscriptionGateway.Proofs.Number.Decimal
import Mathlib.Data.List.TakeWhile

/-!
Numerals as they are written and as they are read. What is written for a number is one numeral and
no more, and its meaning, an integer or else the nearest double, is the number.
-/
namespace SubscriptionGateway

namespace Numeral

def number (ds : List Nat) : Nat := ds.foldl (fun n d => 10 * n + d) 0

def power (n : Numeral) : Int :=
  match n.exponent with
  | none => 0
  | some (negative, ds) => if negative then -(number ds : Int) else number ds

/-- What a numeral means: without point and power an integer, if it is one of 64 bits and has no
sign before a nought, and otherwise the double nearest to it. -/
def nearest? (n : Numeral) : Option JsonNumber :=
  let whole : Int := if n.negative then -(number n.whole : Int) else number n.whole
  let fraction := n.fraction.getD []
  let double := (Binary64.ofDecimal? n.negative (number (n.whole ++ fraction))
    (n.power - fraction.length)).map JsonNumber.double
  if n.fraction = none ∧ n.exponent = none ∧ ¬ (n.negative = true ∧ whole = 0) then
    if fits : IntegerRange whole then some (.integer whole fits) else double
  else double

theorem number_digitsOf (cs : List Char) : number (digitsOf cs) = Nat.ofDigitChars 10 cs 0 := by
  unfold number digitsOf
  rw [Nat.ofDigitChars_eq_foldl, List.foldl_map]
  rfl

theorem digitsOf_append (cs ds : List Char) : digitsOf (cs ++ ds) = digitsOf cs ++ digitsOf ds :=
  List.map_append

/-! ## What is read of digits -/

/-- A run of digits can end here. -/
def Stops (cs : List Char) : Prop := ∀ c ∈ cs.head?, c.isDigit = false

theorem stops_nil : Stops [] := by simp [Stops]

theorem stops_cons {c : Char} {cs : List Char} (other : c.isDigit = false) : Stops (c :: cs) := by
  simp [Stops, other]

variable {ds rest : List Char}

theorem digits_append (all : ∀ c ∈ ds, c.isDigit = true) (stops : Stops rest) :
    digits (ds ++ rest) = (digitsOf ds, rest) := by
  have taken : rest.takeWhile Char.isDigit = [] ∧ rest.dropWhile Char.isDigit = rest := by
    cases rest with
    | nil => exact ⟨rfl, rfl⟩
    | cons c cs =>
      have other : ¬ c.isDigit = true := by simp [stops c rfl]
      exact ⟨List.takeWhile_cons_of_neg other, List.dropWhile_cons_of_neg other⟩
  unfold digits
  rw [List.takeWhile_append_of_pos all, List.dropWhile_append_of_pos all, taken.1, taken.2,
    List.append_nil]

end Numeral

open Numeral

structure Spelling where
  negative : Bool
  whole : List Char
  fraction : Option (List Char) := none
  exponent : Option (Bool × List Char) := none

namespace Spelling

def sign (negative : Bool) : List Char := if negative then ['-'] else []

def fractionChars (s : Spelling) : List Char := s.fraction.elim [] ('.' :: ·)

def exponentChars (s : Spelling) : List Char :=
  s.exponent.elim [] fun (negative, ds) => 'e' :: (sign negative ++ ds)

def chars (s : Spelling) : List Char :=
  sign s.negative ++ (s.whole ++ (s.fractionChars ++ s.exponentChars))

def numeral (s : Spelling) : Numeral where
  negative := s.negative
  whole := digitsOf s.whole
  fraction := s.fraction.map digitsOf
  exponent := s.exponent.map fun (negative, ds) => (negative, digitsOf ds)

def Digits (cs : List Char) : Prop := cs ≠ [] ∧ ∀ c ∈ cs, c.isDigit = true

/-- A nought begins a whole part only where it is all of it. -/
structure Proper (s : Spelling) : Prop where
  whole : Digits s.whole
  leading : s.whole = ['0'] ∨ s.whole.head? ≠ some '0'
  fraction : ∀ ds ∈ s.fraction, Digits ds
  exponent : ∀ e ∈ s.exponent, Digits e.2

variable {s : Spelling} {rest : List Char}

theorem digits_head {cs : List Char} (digits : Digits cs) :
    ∃ c rest, cs = c :: rest ∧ c.isDigit = true := by
  obtain ⟨some_, all⟩ := digits
  cases cs with
  | nil => exact absurd rfl some_
  | cons c rest => exact ⟨c, rest, rfl, all c List.mem_cons_self⟩

theorem scanWhole_digits (proper : s.Proper) (stops : Stops rest) :
    scanWhole (s.whole ++ rest) = some (digitsOf s.whole, rest) := by
  rcases proper.leading with nought | other
  · rw [nought]; rfl
  · obtain ⟨c, cs, whole, -⟩ := digits_head proper.whole
    have read := digits_append proper.whole.2 stops
    rw [whole] at other read ⊢
    have differs : c ≠ '0' := fun same => other (by rw [same]; rfl)
    rw [List.cons_append] at read ⊢
    unfold scanWhole
    split
    next h => exact absurd (List.cons.inj h).1 differs
    next => rw [read]; rfl

theorem scanExponent_chars (proper : s.Proper) :
    scanExponent s.exponentChars = some (s.numeral.exponent, []) := by
  unfold exponentChars numeral
  cases exponent : s.exponent with
  | none => rfl
  | some e =>
    obtain ⟨negative, ds⟩ := e
    have digits : Digits ds := proper.exponent _ exponent
    have read := digits_append digits.2 stops_nil
    rw [List.append_nil] at read
    obtain ⟨c, cs, rfl, digit⟩ := digits_head digits
    cases negative with
    | true => simp [scanExponent, sign, read, digitsOf]
    | false =>
      have plus : c ≠ '+' := fun same => by simp [same] at digit
      have minus : c ≠ '-' := fun same => by simp [same] at digit
      simp [scanExponent, sign, plus, minus, read, digitsOf]

theorem stops_exponent : Stops s.exponentChars := by
  unfold exponentChars
  cases s.exponent with
  | none => exact stops_nil
  | some e => exact stops_cons (by decide)

theorem stops_fraction : Stops (s.fractionChars ++ s.exponentChars) := by
  unfold fractionChars
  cases s.fraction with
  | none => exact stops_exponent
  | some ds => exact stops_cons (by decide)

theorem scanFraction_chars (proper : s.Proper) :
    scanFraction (s.fractionChars ++ s.exponentChars) =
      some (s.numeral.fraction, s.exponentChars) := by
  cases fraction : s.fraction with
  | none =>
    have point : ∀ cs, s.exponentChars ≠ '.' :: cs := by
      unfold exponentChars
      cases s.exponent <;> simp
    simp only [fractionChars, fraction, Option.elim_none, List.nil_append]
    unfold scanFraction
    split
    next cs h => exact absurd h (point cs)
    next => simp [numeral, fraction]
  | some ds =>
    have digits : Digits ds := proper.fraction _ fraction
    have read := digits_append digits.2 (stops_exponent (s := s))
    obtain ⟨c, cs, rfl, digit⟩ := digits_head digits
    simp only [fractionChars, fraction, Option.elim_some, List.cons_append] at read ⊢
    simp [scanFraction, read, numeral, fraction, digitsOf]

theorem scanSign_chars (proper : s.Proper) :
    scanSign s.chars = (s.negative, s.whole ++ (s.fractionChars ++ s.exponentChars)) := by
  unfold chars sign
  cases s.negative with
  | true => rfl
  | false =>
    obtain ⟨c, ds, whole, digit⟩ := digits_head proper.whole
    have minus : c ≠ '-' := fun same => by simp [same] at digit
    simp [scanSign, whole, minus]

theorem scan_chars (proper : s.Proper) : Numeral.scan s.chars = some (s.numeral, []) := by
  unfold Numeral.scan
  simp only [scanSign_chars proper, scanWhole_digits proper stops_fraction,
    scanFraction_chars proper, scanExponent_chars proper, Option.bind_eq_bind, Option.bind_some]
  rfl

/-! ## Digits that are written -/

theorem digits_toDigits (n : Nat) : Digits (Nat.toDigits 10 n) :=
  ⟨Nat.toDigits_ne_nil, fun _ member => Nat.isDigit_of_mem_toDigits (by decide) (by decide) member⟩

theorem digits_nought : Digits ['0'] := ⟨by decide, by simp⟩

theorem Digits.append {cs ds : List Char} (digits : Digits cs) (all : ∀ c ∈ ds, c.isDigit = true) :
    Digits (cs ++ ds) := by
  constructor
  · exact List.append_ne_nil_of_left_ne_nil digits.1 ds
  · intro c member
    exact (List.mem_append.mp member).elim (digits.2 c) (all c)

theorem toDigits_leading {n : Nat} (positive : 0 < n) : (Nat.toDigits 10 n).head? ≠ some '0' := by
  induction n using Nat.strongRecOn with
  | ind n ih =>
    rw [Nat.toDigits_eq_if (by decide)]
    split
    next small =>
      intro nought
      have : n.digitChar.toNat = 48 := by rw [Option.some.inj nought]; rfl
      rw [Nat.toNat_digitChar_of_lt_ten small] at this
      omega
    next large =>
      rw [List.head?_append_of_ne_nil _ Nat.toDigits_ne_nil]
      exact ih (n / 10) (Nat.div_lt_self positive (by decide)) (by omega)

theorem int_chars (i : Int) :
    (toString i).toList = sign (decide (i < 0)) ++ Nat.toDigits 10 i.natAbs := by
  cases i with
  | ofNat n => simp [sign, Int.toString_eq_repr, Int.repr]
  | negSucc n => simp [sign, Int.toString_eq_repr, Int.repr]

theorem toDigits_whole (n : Nat) :
    Nat.toDigits 10 n = ['0'] ∨ (Nat.toDigits 10 n).head? ≠ some '0' := by
  rcases Nat.eq_zero_or_pos n with rfl | positive
  · exact .inl (Nat.toDigits_zero 10)
  · exact .inr (toDigits_leading positive)

end Spelling

open Spelling

/-- Some characters, after the sign, that spell a decimal as no integer is spelled. -/
structure Spells (negative : Bool) (k : Nat) (e : Int) (cs : List Char) (s : Spelling) : Prop where
  proper : s.Proper
  chars : s.chars = sign negative ++ cs
  sign : s.negative = negative
  pointed : s.fraction ≠ none ∨ s.exponent ≠ none
  value : Binary64.ofDecimal? negative (Nat.ofDigitChars 10 (s.whole ++ s.fraction.getD []) 0)
    (s.numeral.power - (s.fraction.getD []).length) = Binary64.ofDecimal? negative k e

theorem Spells.nearest {negative : Bool} {k : Nat} {e : Int} {cs : List Char} {s : Spelling}
    (spells : Spells negative k e cs s) :
    s.numeral.nearest? = (Binary64.ofDecimal? negative k e).map .double := by
  have double : ¬ (s.numeral.fraction = none ∧ s.numeral.exponent = none ∧
      ¬ (s.numeral.negative = true ∧
        (if s.numeral.negative then -(number s.numeral.whole : Int) else number s.numeral.whole) =
          0)) := by
    rintro ⟨none, none', -⟩
    simp only [numeral, Option.map_eq_none_iff] at none none'
    exact spells.pointed.elim (absurd none) (absurd none')
  have digits : number (s.numeral.whole ++ s.numeral.fraction.getD []) =
      Nat.ofDigitChars 10 (s.whole ++ s.fraction.getD []) 0 := by
    rw [← number_digitsOf, digitsOf_append]
    cases fraction : s.fraction <;> simp [numeral, fraction, digitsOf]
  have places : (s.numeral.fraction.getD []).length = (s.fraction.getD []).length := by
    cases fraction : s.fraction <;> simp [numeral, fraction, digitsOf]
  unfold nearest?
  rw [if_neg double, digits, places, ← spells.value, ← spells.sign]
  rfl

variable {negative : Bool} {d : Nat} {k : Int}

theorem spells_whole (positive : 0 < d) (whole : 0 ≤ k) :
    Spells negative d k (Nat.toDigits 10 d ++ Binary64.zeros k.toNat ++ ".0".toList)
      ⟨negative, Nat.toDigits 10 d ++ Binary64.zeros k.toNat, some ['0'], none⟩ := by
  constructor
  · constructor
    · exact (digits_toDigits d).append fun c member => by
        rw [List.eq_of_mem_replicate member]; decide
    · rw [List.head?_append_of_ne_nil _ Nat.toDigits_ne_nil]
      exact .inr (toDigits_leading positive)
    · intro ds given
      rw [← Option.some.inj given]
      exact digits_nought
    · intro e given
      cases given
  · simp [Spelling.chars, fractionChars, exponentChars]
  · rfl
  · exact .inl (by simp)
  · have digits : Nat.ofDigitChars 10 (Nat.toDigits 10 d ++ Binary64.zeros k.toNat ++ ['0']) 0 =
        d * 10 ^ (k.toNat + 1) := by
      rw [Nat.ofDigitChars_append, Nat.ofDigitChars_append, Binary64.zeros,
        Nat.ofDigitChars_replicate_zero, Nat.ofDigitChars_ten_toDigits, Nat.ofDigitChars_cons,
        Nat.ofDigitChars_nil]
      simp [Nat.pow_succ]
      ring
    simp only [Option.getD_some, digits, numeral, power, Binary64.ofDecimal?_noughts]
    congr 1
    simp
    omega

theorem spells_pointed (positive : 0 < d) (low : k < 0)
    (inside : 0 < ((Nat.toDigits 10 d).length : Int) + k) :
    let point := (((Nat.toDigits 10 d).length : Int) + k).toNat
    Spells negative d k ((Nat.toDigits 10 d).take point ++ '.' :: (Nat.toDigits 10 d).drop point)
      ⟨negative, (Nat.toDigits 10 d).take point, some ((Nat.toDigits 10 d).drop point), none⟩ := by
  intro point
  have some_ : 0 < point := by omega
  have few : point < (Nat.toDigits 10 d).length := by omega
  have all : ∀ c ∈ Nat.toDigits 10 d, c.isDigit = true := (digits_toDigits d).2
  constructor
  · constructor
    · exact ⟨by simp [some_.ne', Nat.toDigits_ne_nil],
        fun c member => all c (List.mem_of_mem_take member)⟩
    · rw [List.head?_take, if_neg some_.ne']
      exact .inr (toDigits_leading positive)
    · intro ds given
      rw [← Option.some.inj given]
      exact ⟨by simpa using few, fun c member => all c (List.mem_of_mem_drop member)⟩
    · intro e given
      cases given
  · simp [Spelling.chars, fractionChars, exponentChars]
  · rfl
  · exact .inl (by simp)
  · simp only [Option.getD_some, List.take_append_drop, Nat.ofDigitChars_ten_toDigits,
      numeral, power,
      Option.map_none, List.length_drop]
    congr 1
    omega

theorem spells_small (below : ((Nat.toDigits 10 d).length : Int) + k ≤ 0) :
    let point := ((Nat.toDigits 10 d).length : Int) + k
    Spells negative d k ("0.".toList ++ Binary64.zeros (-point).toNat ++ Nat.toDigits 10 d)
      ⟨negative, ['0'], some (Binary64.zeros (-point).toNat ++ Nat.toDigits 10 d), none⟩ := by
  intro point
  constructor
  · constructor
    · exact digits_nought
    · exact .inl rfl
    · intro ds given
      rw [← Option.some.inj given]
      constructor
      · exact List.append_ne_nil_of_right_ne_nil _ Nat.toDigits_ne_nil
      · intro c member
        rcases List.mem_append.mp member with nought | digit
        · rw [List.eq_of_mem_replicate nought]; decide
        · exact (digits_toDigits d).2 c digit
    · intro e given
      cases given
  · simp [Spelling.chars, fractionChars, exponentChars]
  · rfl
  · exact .inl (by simp)
  · have digits : Nat.ofDigitChars 10
        (['0'] ++ (Binary64.zeros (-point).toNat ++ Nat.toDigits 10 d)) 0 = d := by
      rw [Nat.ofDigitChars_append, Nat.ofDigitChars_append, Binary64.zeros,
        Nat.ofDigitChars_cons, Nat.ofDigitChars_nil, Nat.ofDigitChars_replicate_zero]
      simp
    simp only [Option.getD_some, digits, numeral, power, List.length_append]
    congr 1
    simp [Binary64.zeros]
    omega

theorem spells_scientific (negative : Bool) (k : Int) (positive : 0 < d) {first : Char}
    {others : List Char}
    (digits : Nat.toDigits 10 d = first :: others) :
    let power := ((Nat.toDigits 10 d).length : Int) + k - 1
    Spells negative d k
      (first :: ((if others = [] then [] else '.' :: others) ++ 'e' :: (toString power).toList))
      ⟨negative, [first], if others = [] then none else some others,
        some (decide (power < 0), Nat.toDigits 10 power.natAbs)⟩ := by
  intro power
  have all := (digits_toDigits d).2
  have leading := toDigits_leading positive
  rw [digits] at all leading
  constructor
  · constructor
    · exact ⟨by simp, by simpa using all first List.mem_cons_self⟩
    · exact .inr leading
    · intro ds given
      split at given
      next => cases given
      next several =>
        rw [← Option.some.inj given]
        exact ⟨several, fun c member => all c (List.mem_cons_of_mem _ member)⟩
    · intro e given
      rw [← Option.some.inj given]
      exact digits_toDigits _
  · rw [int_chars]
    unfold Spelling.chars fractionChars exponentChars
    split <;> simp
  · rfl
  · exact .inr (by simp)
  · have whole :
      [first] ++ (if others = [] then none else some others).getD [] = Nat.toDigits 10 d := by
      rw [digits]
      split
      next none => rw [none]; rfl
      next => rfl
    have places : ((if others = [] then none else some others).getD []).length = others.length := by
      split
      next none => rw [none]; rfl
      next => rfl
    have exponent : (if decide (power < 0) = true then
        -(number (digitsOf (Nat.toDigits 10 power.natAbs)) : Int)
        else number (digitsOf (Nat.toDigits 10 power.natAbs))) = power := by
      rw [number_digitsOf, Nat.ofDigitChars_ten_toDigits]
      split
      next below => have := of_decide_eq_true below; omega
      next above => have := of_decide_eq_false (Bool.eq_false_of_not_eq_true above); omega
    have length : (Nat.toDigits 10 d).length = others.length + 1 := by rw [digits]; rfl
    simp only [whole, Nat.ofDigitChars_ten_toDigits, numeral, Numeral.power,
      Option.map_some, exponent,
      places]
    congr 1
    omega

theorem spells_zero (negative : Bool) :
    Spells negative 0 0 "0.0".toList ⟨negative, ['0'], some ['0'], none⟩ := by
  constructor
  · constructor
    · exact digits_nought
    · exact .inl rfl
    · intro ds given
      rw [← Option.some.inj given]
      exact digits_nought
    · intro e given
      cases given
  · simp [Spelling.chars, fractionChars, exponentChars]
  · rfl
  · exact .inl (by simp)
  · exact Binary64.ofDecimal?_zero.trans Binary64.ofDecimal?_zero.symm

/-- However a decimal is laid out, that is how it is spelled. -/
theorem decimal_spelled (negative : Bool) (positive : 0 < d) (k : Int) :
    ∃ s, Spells negative d k (Binary64.decimalChars d k) s := by
  unfold Binary64.decimalChars
  dsimp only
  split
  next whole =>
    obtain ⟨whole, -⟩ : 0 ≤ k ∧ _ := by simpa using whole
    exact ⟨_, spells_whole positive whole⟩
  next notWhole =>
    split
    next inside =>
      obtain ⟨inside, small⟩ : (0 : Int) < _ ∧ _ := by simpa using inside
      have low : k < 0 := by
        by_contra above
        exact notWhole (by simp; omega)
      exact ⟨_, spells_pointed positive low inside⟩
    next =>
      split
      next small =>
        obtain ⟨-, below⟩ : _ ∧ _ ≤ (0 : Int) := by simpa using small
        exact ⟨_, spells_small below⟩
      next =>
        cases digits : Nat.toDigits 10 d with
        | nil => exact absurd digits Nat.toDigits_ne_nil
        | cons first others =>
          have spells := spells_scientific negative k positive digits
          rw [digits] at spells
          cases others with
          | nil => exact ⟨_, spells⟩
          | cons second rest => exact ⟨_, spells⟩

theorem double_spelled (x : Binary64) : ∃ s : Spelling,
    s.Proper ∧ s.chars = x.chars ∧ s.numeral.nearest? = some (.double x) := by
  unfold Binary64.chars
  cases zero : x.isZero with
  | true =>
    have spells := spells_zero x.negative
    refine ⟨_, spells.proper, spells.chars, ?_⟩
    rw [spells.nearest, Binary64.ofDecimal?_zero, Binary64.zero_of_isZero zero]
    rfl
  | false =>
    obtain ⟨positive, reads⟩ := Binary64.shortest_reads .even zero
    obtain ⟨s, spells⟩ := decimal_spelled x.negative positive (x.shortest .even).2
    refine ⟨s, spells.proper, spells.chars, ?_⟩
    rw [spells.nearest, reads]
    rfl

def integerSpelling (i : Int) : Spelling where
  negative := decide (i < 0)
  whole := Nat.toDigits 10 i.natAbs

theorem integerSpelling_proper (i : Int) : (integerSpelling i).Proper := by
  constructor
  · exact digits_toDigits _
  · exact toDigits_whole _
  · intro ds given
    cases given
  · intro e given
    cases given

theorem integerSpelling_chars (i : Int) : (integerSpelling i).chars = (toString i).toList := by
  rw [int_chars]
  simp [integerSpelling, Spelling.chars, fractionChars, exponentChars]

theorem integerSpelling_nearest (i : Int) (fits : IntegerRange i) :
    (integerSpelling i).numeral.nearest? = some (.integer i fits) := by
  have whole : (if decide (i < 0) = true then (-(i.natAbs : Int)) else i.natAbs) = i := by
    split
    next below => have := of_decide_eq_true below; omega
    next above => have := of_decide_eq_false (Bool.eq_false_of_not_eq_true above); omega
  have signed : ¬ (decide (i < 0) = true ∧ i = 0) := by
    rintro ⟨below, none⟩
    exact absurd (of_decide_eq_true below) (by omega)
  unfold nearest? numeral integerSpelling
  simp only [number_digitsOf, Nat.ofDigitChars_ten_toDigits, whole, Option.map_none, true_and]
  rw [if_pos signed, dif_pos fits]

namespace JsonNumber

def numeral (n : JsonNumber) : Numeral :=
  match Numeral.scan n.chars with
  | some (written, _) => written
  | none => ⟨false, [], none, none⟩

theorem spelled (n : JsonNumber) : ∃ s : Spelling,
    s.Proper ∧ s.chars = n.chars ∧ s.numeral.nearest? = some n := by
  cases n with
  | integer i fits =>
    exact ⟨_, integerSpelling_proper i, integerSpelling_chars i, integerSpelling_nearest i fits⟩
  | double x => exact double_spelled x

variable {n : JsonNumber} {s : Spelling}

theorem numeral_of_chars (proper : s.Proper) (chars : s.chars = n.chars) :
    n.numeral = s.numeral := by
  unfold numeral
  rw [← chars, Spelling.scan_chars proper]

theorem scan_chars (n : JsonNumber) : Numeral.scan n.chars = some (n.numeral, []) := by
  obtain ⟨s, proper, chars, -⟩ := n.spelled
  rw [numeral_of_chars proper chars, ← chars, Spelling.scan_chars proper]

/-- A number is what is meant by the numeral that is written for it. -/
theorem nearest_numeral (n : JsonNumber) : n.numeral.nearest? = some n := by
  obtain ⟨s, proper, chars, nearest⟩ := n.spelled
  rw [numeral_of_chars proper chars, nearest]

end JsonNumber

/-! ## Integers as they are read in two words -/

namespace Numeral

theorem le_spelled (ds : List Nat) (acc : Nat) : acc ≤ ds.foldl (fun n d => 10 * n + d) acc := by
  induction ds generalizing acc with
  | nil => exact Nat.le_refl acc
  | cons d ds ih => exact Nat.le_trans (by omega) (ih (10 * acc + d))

theorem gather_all {limit : Nat} {ds : List Nat} (acc taken : Nat)
    (within : ds.foldl (fun n d => 10 * n + d) acc ≤ limit) :
    gather limit acc taken ds = (ds.foldl (fun n d => 10 * n + d) acc, taken + ds.length, 0) := by
  induction ds generalizing acc taken with
  | nil => rfl
  | cons d ds ih =>
    have fits : acc * 10 + d ≤ limit := by
      have := Nat.le_trans (le_spelled ds (10 * acc + d)) within
      omega
    unfold gather
    rw [if_pos fits, Nat.mul_comm acc 10, ih _ (taken + 1) within, List.length_cons,
      List.foldl_cons]
    congr 2
    omega

end Numeral

theorem JsonNumber.value_integer (i : Int) (fits : IntegerRange i) :
    (JsonNumber.integer i fits).numeral.value? = some (.integer i fits) := by
  have small : number (digitsOf (Nat.toDigits 10 i.natAbs)) ≤ wordMax := by
    rw [number_digitsOf, Nat.ofDigitChars_ten_toDigits]
    obtain ⟨low, high⟩ := fits
    simp only [Nat.pow_eq] at low high
    simp only [wordMax, Nat.pow_eq]
    omega
  have all := gather_all 0 0 small
  rw [show List.foldl _ 0 _ = number (digitsOf (Nat.toDigits 10 i.natAbs)) from rfl,
    number_digitsOf,
    Nat.ofDigitChars_ten_toDigits] at all
  have numeral : (JsonNumber.integer i fits).numeral = (integerSpelling i).numeral :=
    numeral_of_chars (integerSpelling_proper i) (integerSpelling_chars i)
  rw [numeral]
  unfold value? Spelling.numeral integerSpelling
  simp only [all, Option.map_none]
  split
  next below =>
    have below := of_decide_eq_true below
    have value : -(i.natAbs : Int) = i := by omega
    have fits' : IntegerRange (-(i.natAbs : Int)) := value.symm ▸ fits
    rw [dif_pos ⟨fits', by omega⟩]
    congr 2
  next above =>
    have above := of_decide_eq_false (Bool.eq_false_of_not_eq_true above)
    have value : (i.natAbs : Int) = i := by omega
    have fits' : IntegerRange (i.natAbs : Int) := value.symm ▸ fits
    unfold JsonNumber.ofNat?
    rw [dif_pos fits']
    congr 2

end SubscriptionGateway
