import SubscriptionGateway.Number.Binary64
import Mathlib.Data.Nat.Basic
import Mathlib.Algebra.Order.Group.Nat
import Mathlib.Tactic.Positivity
import Mathlib.Tactic.Ring

/-!
Rounding to doubles. The exponent chosen is the least at which a quotient fits, so a quotient
rounds alike whatever factor its two parts share, a double is what it rounds to itself, and noughts
may move between the digits of a decimal and its power of ten. The digits that are written for a
double therefore read back as that double.
-/
namespace SubscriptionGateway.Binary64

variable {negative : Bool} {num den c k : Nat} {e e' : Int}

/-- At this exponent a quotient has at most 53 binary digits. -/
def FitsSignificand (num den : Nat) (e : Int) : Prop :=
  num * 2 ^ (-e).toNat < den * 2 ^ e.toNat * 2 ^ 53

theorem fits_scaled (positive : 0 < c) : FitsSignificand (c * num) (c * den) e ↔
    FitsSignificand num den e := by
  unfold FitsSignificand
  rw [Nat.mul_assoc c num, Nat.mul_assoc c den, Nat.mul_assoc c (den * _)]
  exact Nat.mul_lt_mul_left positive

theorem FitsSignificand.succ (fits : FitsSignificand num den e) :
    FitsSignificand num den (e + 1) := by
  unfold FitsSignificand at *
  rcases Int.lt_or_le e 0 with below | above
  · have here : (-e).toNat = (-(e + 1)).toNat + 1 := by omega
    have none : (e + 1).toNat = e.toNat := by omega
    rw [here, Nat.pow_succ] at fits
    rw [none]
    have less : num * 2 ^ (-(e + 1)).toNat ≤ num * (2 ^ (-(e + 1)).toNat * 2) :=
      Nat.mul_le_mul_left num (by omega)
    exact Nat.lt_of_le_of_lt less fits
  · have here : (e + 1).toNat = e.toNat + 1 := by omega
    have none : (-(e + 1)).toNat = (-e).toNat := by omega
    rw [here, none, Nat.pow_succ]
    have more : den * 2 ^ e.toNat * 2 ^ 53 ≤ den * (2 ^ e.toNat * 2) * 2 ^ 53 :=
      Nat.mul_le_mul_right _ (Nat.mul_le_mul_left den (by omega))
    exact Nat.lt_of_lt_of_le fits more

theorem FitsSignificand.mono (fits : FitsSignificand num den e) (le : e ≤ e') :
    FitsSignificand num den e' := by
  induction e', le using Int.leInduction with
  | base => exact fits
  | succ m _ ih => exact ih.succ

/-- The order of magnitude of a quotient, or one more, is enough. -/
theorem fits_above (whole : den ≠ 0) (big : num ≠ 0) :
    FitsSignificand num den ((num.log2 : Int) - den.log2 - 53 + 1) := by
  unfold FitsSignificand
  generalize split : (num.log2 : Int) - den.log2 - 53 + 1 = e
  have below : num < 2 ^ (num.log2 + 1) := (Nat.log2_lt big).mp (Nat.lt_succ_self _)
  have above : 2 ^ den.log2 ≤ den := (Nat.le_log2 whole).mp (Nat.le_refl _)
  have same : num.log2 + 1 + (-e).toNat = den.log2 + e.toNat + 53 := by omega
  calc num * 2 ^ (-e).toNat
      < 2 ^ (num.log2 + 1) * 2 ^ (-e).toNat := Nat.mul_lt_mul_of_pos_right below (by positivity)
    _ = 2 ^ den.log2 * 2 ^ e.toNat * 2 ^ 53 := by rw [← pow_add, same, pow_add, pow_add]
    _ ≤ den * 2 ^ e.toNat * 2 ^ 53 :=
        Nat.mul_le_mul_right _ (Nat.mul_le_mul_right _ above)

theorem not_fits_below (whole : den ≠ 0) (big : num ≠ 0) :
    ¬ FitsSignificand num den ((num.log2 : Int) - den.log2 - 53 - 1) := by
  unfold FitsSignificand
  generalize split : (num.log2 : Int) - den.log2 - 53 - 1 = e
  have below : den < 2 ^ (den.log2 + 1) := (Nat.log2_lt whole).mp (Nat.lt_succ_self _)
  have above : 2 ^ num.log2 ≤ num := (Nat.le_log2 big).mp (Nat.le_refl _)
  have same : den.log2 + 1 + e.toNat + 53 = num.log2 + (-e).toNat := by omega
  refine Nat.not_lt.mpr ?_
  calc den * 2 ^ e.toNat * 2 ^ 53
      ≤ 2 ^ (den.log2 + 1) * 2 ^ e.toNat * 2 ^ 53 :=
        Nat.mul_le_mul_right _ (Nat.mul_le_mul_right _ below.le)
    _ = 2 ^ num.log2 * 2 ^ (-e).toNat := by rw [← pow_add, ← pow_add, same, pow_add]
    _ ≤ num * 2 ^ (-e).toNat := Nat.mul_le_mul_right _ above

/-- The least exponent at which a quotient fits, as far as the doubles have one. -/
structure Scale (num den : Nat) (e : Int) : Prop where
  least : -1074 ≤ e
  fits : FitsSignificand num den e
  tight : e = -1074 ∨ ¬ FitsSignificand num den (e - 1)

theorem Scale.unique (one : Scale num den e) (other : Scale num den e') : e = e' := by
  have le : ∀ {e e' : Int}, Scale num den e → Scale num den e' → e ≤ e' := by
    intro e e' one other
    rcases one.tight with low | tight
    · exact low ▸ other.least
    · by_contra beyond
      exact tight (other.fits.mono (by omega))
  exact Int.le_antisymm (le one other) (le other one)

theorem scaled (positive : 0 < c) : Scale (c * num) (c * den) e ↔ Scale num den e := by
  constructor
  · rintro ⟨least, fits, tight⟩
    exact ⟨least, (fits_scaled positive).mp fits, tight.imp_right (mt (fits_scaled positive).mpr)⟩
  · rintro ⟨least, fits, tight⟩
    exact ⟨least, (fits_scaled positive).mpr fits, tight.imp_right (mt (fits_scaled positive).mp)⟩

theorem fits_iff_test :
    (if 0 ≤ e then num < den * Nat.pow 2 e.toNat * Nat.pow 2 53
      else num * Nat.pow 2 (-e).toNat < den * Nat.pow 2 53) ↔ FitsSignificand num den e := by
  unfold FitsSignificand
  simp only [Nat.pow_eq]
  split
  · rw [show (-e).toNat = 0 by omega, pow_zero, Nat.mul_one]
  · rw [show e.toNat = 0 by omega, pow_zero, Nat.mul_one]

theorem scaleOf_scale (whole : den ≠ 0) (big : num ≠ 0) : Scale num den (scaleOf num den) := by
  unfold scaleOf
  have above := fits_above whole big
  have below := not_fits_below whole big
  generalize (num.log2 : Int) - den.log2 - 53 = e at above below ⊢
  dsimp only
  by_cases fits : FitsSignificand num den e
  · rw [if_pos (by exact fits_iff_test.mpr fits)]
    constructor
    · exact Int.le_max_left _ _
    · exact fits.mono (Int.le_max_right _ _)
    · by_cases low : e ≤ -1074
      · exact .inl (by omega)
      · exact .inr (by rw [show max (-1074) e = e by omega]; exact below)
  · rw [if_neg (by exact mt fits_iff_test.mp fits)]
    constructor
    · exact Int.le_max_left _ _
    · exact above.mono (Int.le_max_right _ _)
    · by_cases low : e + 1 ≤ -1074
      · exact .inl (by omega)
      · refine .inr ?_
        rw [show max (-1074) (e + 1) - 1 = e by omega]
        exact fits

theorem scaleOf_eq (whole : den ≠ 0) (big : num ≠ 0) (scale : Scale num den e) :
    scaleOf num den = e :=
  (scaleOf_scale whole big).unique scale

theorem scaleOf_scaled (positive : 0 < c) (whole : den ≠ 0) (big : num ≠ 0) :
    scaleOf (c * num) (c * den) = scaleOf num den :=
  scaleOf_eq (by positivity) (by positivity) ((scaled positive).mpr (scaleOf_scale whole big))

theorem roundAt_scaled (positive : 0 < c) : roundAt (c * num) (c * den) e = roundAt num den e := by
  have half : ∀ r d, (2 * (c * r) < c * d ↔ 2 * r < d) ∧ (c * d < 2 * (c * r) ↔ d < 2 * r) := by
    intro r d
    rw [Nat.mul_left_comm]
    exact ⟨Nat.mul_lt_mul_left positive, Nat.mul_lt_mul_left positive⟩
  unfold roundAt
  split <;>
    simp only [Nat.mul_assoc, Nat.mul_div_mul_left _ _ positive, Nat.mul_mod_mul_left, half]

theorem ofRatio?_scaled (positive : 0 < c) (whole : den ≠ 0) :
    ofRatio? negative (c * num) (c * den) = ofRatio? negative num den := by
  unfold ofRatio?
  by_cases big : num = 0
  · subst big; rfl
  · rw [if_neg big, if_neg (Nat.mul_ne_zero positive.ne' big)]
    simp only [scaleOf_scaled positive whole big, roundAt_scaled positive]

/-! ## Doubles -/

variable {x : Binary64}

theorem isZero_iff : x.isZero = true ↔ x.significand = 0 := beq_iff_eq

theorem zero_of_isZero (none : x.isZero = true) : zero.withSign x.negative = x := by
  obtain ⟨negative, significand, exponent, canonical⟩ := x
  obtain rfl : significand = 0 := isZero_iff.mp none
  obtain rfl : exponent = -1074 := canonical.2.2.2.resolve_right (by decide)
  rfl

theorem ratio_num (nonzero : x.isZero = false) : x.ratio.1 ≠ 0 := by
  have big : x.significand ≠ 0 := fun zero => by simp [isZero, zero] at nonzero
  unfold ratio
  split
  · exact Nat.mul_ne_zero big (Nat.pow_pos (by decide)).ne'
  · exact big

theorem ratio_den : x.ratio.2 ≠ 0 := by
  unfold ratio
  split
  · exact Nat.one_ne_zero
  · exact (Nat.pow_pos (by decide)).ne'

theorem fits_ratio : FitsSignificand x.ratio.1 x.ratio.2 e ↔
    x.significand * 2 ^ (x.exponent.toNat + (-e).toNat) <
      2 ^ ((-x.exponent).toNat + e.toNat) * 2 ^ 53 := by
  unfold FitsSignificand ratio
  simp only [Nat.pow_eq, pow_add]
  split
  · rw [show (-x.exponent).toNat = 0 by omega, pow_zero, Nat.mul_assoc]
  · rw [show x.exponent.toNat = 0 by omega, pow_zero, Nat.one_mul]

theorem ratio_scale : Scale x.ratio.1 x.ratio.2 x.exponent := by
  obtain ⟨small, least, -, normal⟩ := x.canonical
  constructor
  · exact least
  · rw [fits_ratio, Nat.add_comm, Nat.mul_comm]
    exact Nat.mul_lt_mul_of_pos_left small (by positivity)
  · refine normal.imp_right fun normal => ?_
    rw [fits_ratio, Nat.not_lt]
    have one : x.exponent.toNat + (-(x.exponent - 1)).toNat =
        (-x.exponent).toNat + (x.exponent - 1).toNat + 1 := by omega
    calc 2 ^ ((-x.exponent).toNat + (x.exponent - 1).toNat) * 2 ^ 53
        = 2 ^ 52 * 2 ^ ((-x.exponent).toNat + (x.exponent - 1).toNat + 1) := by ring
      _ ≤ x.significand * 2 ^ (x.exponent.toNat + (-(x.exponent - 1)).toNat) := by
          rw [one]; exact Nat.mul_le_mul_right _ normal

theorem roundAt_ratio : roundAt x.ratio.1 x.ratio.2 x.exponent = x.significand := by
  unfold roundAt ratio
  split <;> simp [Nat.pow_eq]

theorem ofRatio?_ratio (nonzero : x.isZero = false) :
    ofRatio? x.negative x.ratio.1 x.ratio.2 = some x := by
  have small : x.significand ≠ Nat.pow 2 53 := x.canonical.1.ne
  unfold ofRatio?
  rw [if_neg (ratio_num nonzero), scaleOf_eq ratio_den (ratio_num nonzero) ratio_scale]
  simp only [roundAt_ratio, if_neg small, dif_pos x.canonical]

theorem ofRatio?_zero : ofRatio? negative 0 den = some (zero.withSign negative) := rfl

theorem ofDecimal?_zero : ofDecimal? negative 0 e = some (zero.withSign negative) := by
  unfold ofDecimal?
  split
  · rw [Nat.zero_mul, ofRatio?_zero]
  · exact ofRatio?_zero

/-! ## Decimals -/

theorem ofDecimal?_nought : ofDecimal? negative (k * 10) e = ofDecimal? negative k (e + 1) := by
  unfold ofDecimal?
  rcases Int.lt_or_le e 0 with below | above
  · rw [if_neg (by omega), Nat.mul_comm, show (-e).toNat = (-e - 1).toNat + 1 by omega, Nat.pow_eq,
      Nat.pow_succ', ofRatio?_scaled (by decide) (by positivity)]
    split
    · rw [show (-e - 1).toNat = 0 by omega, show (e + 1).toNat = 0 by omega]
      simp
    · rw [show -e - 1 = -(e + 1) by omega, Nat.pow_eq]
  · rw [if_pos above, if_pos (by omega), show (e + 1).toNat = e.toNat + 1 by omega]
    simp only [Nat.pow_eq, Nat.pow_succ', Nat.mul_assoc]

theorem ofDecimal?_noughts (j : Nat) :
    ofDecimal? negative (k * 10 ^ j) e = ofDecimal? negative k (e + j) := by
  induction j generalizing e with
  | zero => simp
  | succ j ih =>
    rw [Nat.pow_succ, ← Nat.mul_assoc, ofDecimal?_nought, ih, Int.add_assoc, Int.add_comm 1,
      Int.natCast_succ]

structure Reads (x : Binary64) (d : Nat × Int) : Prop where
  positive : 0 < d.1
  reads : ofDecimal? x.negative d.1 d.2 = some x

theorem stripFuel_reads (reads : Reads x (k, e)) (fuel : Nat) : Reads x (stripFuel fuel k e) := by
  induction fuel generalizing k e with
  | zero => exact reads
  | succ fuel ih =>
    unfold stripFuel
    split
    next nought =>
      obtain ⟨positive, reads⟩ := reads
      have tens : k / 10 * 10 = k := Nat.div_mul_cancel (Nat.dvd_of_mod_eq_zero nought)
      apply ih
      constructor
      · dsimp only at positive ⊢
        omega
      · rw [← ofDecimal?_nought, tens]
        exact reads
    next => exact reads

theorem ofDecimal?_positive (nonzero : x.isZero = false)
    (reads : ofDecimal? x.negative k e = some x) : Reads x (k, e) := by
  refine ⟨Nat.pos_of_ne_zero fun none => ?_, reads⟩
  subst none
  rw [ofDecimal?_zero, Option.some.injEq] at reads
  have zero : x.isZero = true := by rw [← reads]; rfl
  exact absurd zero (by simp [nonzero])

theorem first_of_two {r : Nat → Bool} {pair : Nat × Nat}
    (found : (if r pair.1 then some pair.1 else if r pair.2 then some pair.2 else none) = some k) :
    r k = true := by
  split at found
  next first => cases found; exact first
  next =>
    split at found
    next second => cases found; exact second
    next => cases found

theorem onGrid?_reads {tie : Tie} (nonzero : x.isZero = false) (found : onGrid? tie x e = some k) :
    Reads x (k, e) := by
  unfold onGrid? at found
  apply ofDecimal?_positive nonzero
  exact eq_of_beq (first_of_two (r := fun k => ofDecimal? x.negative k e == some x) found)

/-- The whole part of a double's value in units of a small enough power of ten is all of it. -/
theorem exact_reads (nonzero : x.isZero = false) {n : Nat} (small : -(n : Int) ≤ x.exponent) :
    Reads x (x.ratio.1 * Nat.pow 10 n / x.ratio.2, -n) := by
  obtain ⟨j, most, den⟩ : ∃ j, j ≤ n ∧ x.ratio.2 = 2 ^ j := by
    unfold ratio
    split
    · exact ⟨0, Nat.zero_le n, rfl⟩
    · exact ⟨(-x.exponent).toNat, by omega, rfl⟩
  have whole : x.ratio.2 ∣ x.ratio.1 * Nat.pow 10 n := by
    rw [den, Nat.pow_eq]
    exact Dvd.dvd.mul_left ((Nat.pow_dvd_pow 2 most).trans (pow_dvd_pow_of_dvd (by decide) n)) _
  have unit : 0 < Nat.pow 10 n := Nat.pow_pos (by decide)
  have value : ofDecimal? x.negative (x.ratio.1 * Nat.pow 10 n / x.ratio.2) (-n) =
      ofRatio? x.negative (x.ratio.1 * Nat.pow 10 n / x.ratio.2) (Nat.pow 10 n) := by
    unfold ofDecimal?
    split
    next none =>
      rw [show n = 0 by omega]
      simp [Nat.pow_eq]
    next => rw [Int.neg_neg, Int.toNat_natCast]
  apply ofDecimal?_positive nonzero
  rw [value, ← ofRatio?_scaled (Nat.pos_of_ne_zero ratio_den) unit.ne', Nat.mul_div_cancel' whole,
    Nat.mul_comm, Nat.mul_comm x.ratio.2, ofRatio?_scaled unit ratio_den]
  exact ofRatio?_ratio nonzero

theorem shortestFrom_reads (tie : Tie) (nonzero : x.isZero = false) (order : Int)
    (left digits : Nat) :
    Reads x (shortestFrom tie x order left digits) := by
  induction left generalizing digits with
  | zero =>
    unfold shortestFrom
    generalize power : (1074 : Nat) = n
    have least : -(n : Int) ≤ x.exponent := power ▸ x.canonical.2.1
    rw [show (-1074 : Int) = -(n : Int) by omega]
    exact exact_reads nonzero least
  | succ left ih =>
    unfold shortestFrom
    dsimp only
    split
    next k found => exact stripFuel_reads (onGrid?_reads nonzero found) digits
    next => exact ih (digits + 1)

/-- The digits written for a double read back as that double. -/
theorem shortest_reads (tie : Tie) (nonzero : x.isZero = false) : Reads x (x.shortest tie) := by
  unfold shortest
  dsimp only
  rw [if_neg (ratio_num nonzero)]
  exact shortestFrom_reads tie nonzero _ 17 1

end SubscriptionGateway.Binary64
