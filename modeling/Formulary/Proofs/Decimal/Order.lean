import Mathlib.Data.Int.Log
import Formulary.Decimal.Arithmetic
import Formulary.Proofs.Decimal.Number

namespace Formulary.Decimal

/-! Order of decimals, their integer parts and the operations made of them, all of which depend
    on the numbers only. -/

/-- Place of the leading digit, counted from the point: a number is less than the power of ten
    of this place, and not less than the power before. -/
def decade (d : Decimal) : ℤ := d.digitCount - d.scale

theorem decade_eq {d : Decimal} (something : d.toRat ≠ 0) :
    d.decade = Int.log 10 |d.toRat| + 1 := by
  have nonzero : d.mantissa ≠ 0 := fun nothing => something (toRat_eq_zero.mpr nothing)
  have size : |d.toRat| = (d.mantissa.natAbs : ℚ) * 10 ^ (-d.scale) := by
    rw [← toRat_abs, toRat]
    rfl
  have positive : (0 : ℚ) < |d.toRat| := abs_pos.mpr something
  have low : (10 : ℚ) ^ (d.decade - 1) ≤ |d.toRat| := by
    have bound : 10 ^ Nat.log 10 d.mantissa.natAbs ≤ d.mantissa.natAbs :=
      Nat.pow_log_le_self 10 (Int.natAbs_ne_zero.mpr nonzero)
    rw [size, decade, digitCount, Digits.length_eq]
    calc (10 : ℚ) ^ (((Nat.log 10 d.mantissa.natAbs + 1 : ℕ) : ℤ) - d.scale - 1)
        = 10 ^ Nat.log 10 d.mantissa.natAbs * 10 ^ (-d.scale) := by
          rw [← zpow_natCast, ← ten_zpow_add]
          congr 1
          push_cast
          ring
      _ ≤ d.mantissa.natAbs * 10 ^ (-d.scale) := by
          refine mul_le_mul_of_nonneg_right ?_ (ten_zpow_pos _).le
          exact_mod_cast bound
  have high : |d.toRat| < (10 : ℚ) ^ d.decade := by
    rw [size, decade, digitCount]
    calc (d.mantissa.natAbs : ℚ) * 10 ^ (-d.scale)
        < 10 ^ Digits.length d.mantissa.natAbs * 10 ^ (-d.scale) := by
          refine mul_lt_mul_of_pos_right ?_ (ten_zpow_pos _)
          exact_mod_cast Digits.lt_pow_length d.mantissa.natAbs
      _ = 10 ^ ((Digits.length d.mantissa.natAbs : ℤ) - d.scale) := by
          rw [sub_eq_add_neg, ten_zpow_add, zpow_natCast]
  have above : d.decade - 1 ≤ Int.log 10 |d.toRat| :=
    (Int.zpow_le_iff_le_log (by decide) positive).mp (by exact_mod_cast low)
  have below : Int.log 10 |d.toRat| < d.decade :=
    (Int.lt_zpow_iff_log_lt (by decide) positive).mp (by exact_mod_cast high)
  omega

theorem align_lt_iff (a b : Decimal) : (align a b).1 < (align a b).2.1 ↔ a.toRat < b.toRat := by
  obtain ⟨left, right⟩ := align_spec a b
  rw [left, right, mul_lt_mul_iff_of_pos_right (ten_zpow_pos _), Int.cast_lt]

theorem lt_of_decade_lt {a b : Decimal} (left : 0 < a.toRat) (right : 0 < b.toRat)
    (order : a.decade < b.decade) : a.toRat < b.toRat := by
  rw [decade_eq left.ne', decade_eq right.ne', abs_of_pos left, abs_of_pos right] at order
  by_contra larger
  have logs := Int.log_mono_right (b := 10) right (not_lt.mp larger)
  omega

theorem compareMagnitude_lt_iff {a b : Decimal} (left : 0 < a.toRat) (right : 0 < b.toRat) :
    compareMagnitude a b = .lt ↔ a.toRat < b.toRat := by
  unfold compareMagnitude
  dsimp only
  rw [← decade, ← decade]
  rcases lt_trichotomy a.decade b.decade with less | same | greater
  · simp [compare_lt_iff_lt.mpr less, lt_of_decade_lt left right less]
  · simp only [compare_eq_iff_eq.mpr same, compare_lt_iff_lt, align_lt_iff]
  · simp [compare_gt_iff_gt.mpr greater, (lt_of_decade_lt right left greater).le]

theorem lt_of_sign_lt {a b : Decimal} (order : a.mantissa.sign < b.mantissa.sign) :
    a.toRat < b.toRat := by
  rcases lt_trichotomy a.mantissa 0 with negative | nothing | positive
  · rw [Int.sign_eq_neg_one_of_neg negative] at order
    have nonneg : 0 ≤ b.mantissa := Int.sign_nonneg_iff.mp (by omega)
    exact (toRat_neg_iff.mpr negative).trans_le
      (not_lt.mp fun less => absurd (toRat_neg_iff.mp less) (by omega))
  · rw [nothing, Int.sign_zero] at order
    rw [toRat_eq_zero.mpr nothing]
    exact toRat_pos.mpr (Int.sign_pos_iff.mp order)
  · have bound : b.mantissa.sign ≤ 1 := by
      rcases Int.sign_trichotomy b.mantissa with sign | sign | sign <;> omega
    rw [Int.sign_eq_one_of_pos positive] at order
    omega

theorem less_iff {a b : Decimal} : a.less b = true ↔ a.toRat < b.toRat := by
  rw [less, beq_iff_eq, compare]
  rcases lt_trichotomy a.mantissa.sign b.mantissa.sign with less | same | greater
  · simp [compare_lt_iff_lt.mpr less, lt_of_sign_lt less]
  · simp only [compare_eq_iff_eq.mpr same]
    rcases lt_trichotomy a.mantissa 0 with negative | nothing | positive
    · have other : b.mantissa < 0 := by
        rw [Int.sign_eq_neg_one_of_neg negative] at same
        exact Int.sign_eq_neg_one_iff_neg.mp same.symm
      have left := toRat_neg_iff.mpr negative
      have right := toRat_neg_iff.mpr other
      have magnitudes := compareMagnitude_lt_iff (a := b.abs) (b := a.abs)
        (by rw [toRat_abs]; exact abs_pos.mpr right.ne) (by rw [toRat_abs]; exact abs_pos.mpr left.ne)
      rw [toRat_abs, toRat_abs, abs_of_neg left, abs_of_neg right, neg_lt_neg_iff] at magnitudes
      rw [if_neg (by simpa using negative.ne), if_pos negative, magnitudes]
    · have other : b.mantissa = 0 := by
        rw [nothing, Int.sign_zero] at same
        exact Int.sign_eq_zero_iff_zero.mp same.symm
      simp [nothing, toRat_eq_zero.mpr nothing, toRat_eq_zero.mpr other]
    · have other : 0 < b.mantissa := by
        rw [Int.sign_eq_one_of_pos positive] at same
        exact Int.sign_eq_one_iff_pos.mp same.symm
      rw [if_neg (by simpa using positive.ne'), if_neg (by omega),
        compareMagnitude_lt_iff (toRat_pos.mpr positive) (toRat_pos.mpr other)]
  · simp [compare_gt_iff_gt.mpr greater, (lt_of_sign_lt greater).le]

/-- The part of a number before the point. -/
def integerPart (q : ℚ) : ℤ := if 0 ≤ q then ⌊q⌋ else ⌈q⌉

theorem integerPart_intCast (n : ℤ) : integerPart n = n := by
  unfold integerPart
  split
  · exact Int.floor_intCast n
  · exact Int.ceil_intCast n

theorem integerPart_neg (q : ℚ) : integerPart (-q) = -integerPart q := by
  unfold integerPart
  rcases lt_trichotomy q 0 with negative | rfl | positive
  · rw [if_pos (by linarith), if_neg (by linarith), Int.floor_neg]
  · simp
  · rw [if_neg (by linarith), if_pos positive.le, Int.ceil_neg]

theorem tdiv_eq (m n : ℤ) : m.tdiv n = integerPart (m / n) := by
  have nonnegative : ∀ (m n : ℕ), (m : ℤ).tdiv n = integerPart ((m : ℤ) / (n : ℤ)) := by
    intro m n
    have quotient : (0 : ℚ) ≤ ((m : ℤ) : ℚ) / ((n : ℤ) : ℚ) := by positivity
    rw [integerPart, if_pos quotient, Int.tdiv_eq_ediv_of_nonneg (Int.natCast_nonneg m)]
    exact_mod_cast (Rat.floor_intCast_div_natCast m n).symm
  obtain ⟨m, rfl | rfl⟩ := m.eq_nat_or_neg <;> obtain ⟨n, rfl | rfl⟩ := n.eq_nat_or_neg
  · exact nonnegative m n
  · rw [Int.tdiv_neg, nonnegative, ← integerPart_neg, Int.cast_neg, div_neg]
  · rw [Int.neg_tdiv, nonnegative, ← integerPart_neg, Int.cast_neg, neg_div]
  · rw [Int.neg_tdiv, Int.tdiv_neg, neg_neg, nonnegative, Int.cast_neg, Int.cast_neg, neg_div_neg_eq]

theorem toRat_of_scale_le {d : Decimal} (whole : d.scale ≤ 0) :
    d.toRat = ((d.mantissa * ((10 ^ (0 - d.scale).toNat : ℕ) : ℤ) : ℤ) : ℚ) := by
  have moved := ten_pow_toNat_mul whole
  rw [toRat, ← moved]
  push_cast
  ring

@[simp] theorem toInt_eq (d : Decimal) : d.toInt = integerPart d.toRat := by
  unfold toInt truncate rescale
  split
  · rename_i nothing
    rw [toRat_eq_zero.mpr nothing]
    rfl
  · split
    · rename_i whole
      rw [toRat_of_scale_le whole, integerPart_intCast]
    · rename_i fraction
      rw [tdiv_eq, toRat]
      dsimp only
      congr 1
      have moved := ten_pow_toNat_mul (show 0 ≤ d.scale by omega)
      rw [neg_zero, zpow_zero] at moved
      rw [div_eq_iff (left_ne_zero_of_mul_eq_one moved), mul_assoc, mul_comm ((10 : ℚ) ^ _), moved,
        mul_one]

theorem toRat_truncate (d : Decimal) : d.truncate.toRat = integerPart d.toRat := by
  rw [← toInt_eq, toInt, toRat, truncate, scale_rescale]
  simp

theorem isIntegral_iff {d : Decimal} : d.isIntegral = true ↔ ∃ n : ℤ, d.toRat = n := by
  rw [isIntegral, decide_eq_true_iff]
  constructor
  · intro whole
    rw [← toRat_normalize, toRat_of_scale_le whole]
    exact ⟨_, rfl⟩
  · rintro ⟨n, same⟩
    have normal : d.normalize = (ofInt n).normalize :=
      normalize_eq_iff.mpr (by rw [same, toRat_ofInt])
    rw [normal, normalize]
    dsimp only
    split
    · exact le_refl _
    · simp [ofInt]

theorem integerPart_of_isIntegral {d : Decimal} (whole : d.isIntegral = true) :
    (integerPart d.toRat : ℚ) = d.toRat := by
  obtain ⟨n, same⟩ := isIntegral_iff.mp whole
  rw [same, integerPart_intCast]

theorem toRat_rem (a b : Decimal) :
    (a.rem b).toRat = a.toRat - b.toRat * integerPart (a.toRat / b.toRat) := by
  obtain ⟨left, right⟩ := align_spec a b
  have unit := ten_zpow_ne_zero (-(align a b).2.2)
  have quotient : a.toRat / b.toRat = ((align a b).1 : ℚ) / (align a b).2.1 := by
    rw [left, right, mul_div_mul_right _ _ unit]
  rw [quotient, ← tdiv_eq]
  simp only [rem, toRat_mk]
  have division : ((align a b).1.tmod (align a b).2.1 : ℚ) =
      (align a b).1 - (align a b).2.1 * (align a b).1.tdiv (align a b).2.1 := by
    rw [Int.tmod_def]
    push_cast
    ring
  rw [division, left, right]
  ring

@[simp] theorem toRat_smaller (a b : Decimal) : (a.smaller b).toRat = min a.toRat b.toRat := by
  unfold smaller
  split
  · rename_i less
    exact (min_eq_right (less_iff.mp less).le).symm
  · rename_i notLess
    exact (min_eq_left (not_lt.mp (mt less_iff.mpr notLess))).symm

@[simp] theorem toRat_larger (a b : Decimal) : (a.larger b).toRat = max a.toRat b.toRat := by
  unfold larger
  split
  · rename_i less
    exact (max_eq_left (less_iff.mp less).le).symm
  · rename_i notLess
    exact (max_eq_right (not_lt.mp (mt less_iff.mpr notLess))).symm

@[simp] theorem toRat_floor (d : Decimal) : d.floor.toRat = ⌊d.toRat⌋ := by
  have whole := toRat_truncate d
  unfold floor
  dsimp only
  split
  · rename_i below
    rw [Bool.and_eq_true, isNegative_iff, Bool.not_eq_true', ← Bool.not_eq_true, beq_iff, whole]
      at below
    obtain ⟨negative, fraction⟩ := below
    rw [integerPart, if_neg (not_le.mpr negative)] at fraction whole
    rw [toRat_sub, whole, toRat_one, eq_comm, ← Int.cast_one, ← Int.cast_sub, Int.cast_inj,
      Int.floor_eq_iff]
    have above := lt_of_le_of_ne (Int.le_ceil d.toRat) (Ne.symm fraction)
    have near := Int.ceil_lt_add_one d.toRat
    push_cast
    constructor <;> linarith
  · rename_i notBelow
    rw [whole, integerPart]
    split
    · rfl
    · rename_i negative
      have same : (⌈d.toRat⌉ : ℚ) = d.toRat := by
        by_contra fraction
        apply notBelow
        rw [Bool.and_eq_true, isNegative_iff, Bool.not_eq_true', ← Bool.not_eq_true, beq_iff, whole,
          integerPart, if_neg negative]
        exact ⟨not_le.mp negative, fraction⟩
      rw [← same, Int.floor_intCast, Int.ceil_intCast]

@[simp] theorem toRat_ceil (d : Decimal) : d.ceil.toRat = ⌈d.toRat⌉ := by
  rw [ceil, toRat_neg, toRat_floor, toRat_neg, Int.floor_neg, Int.cast_neg, neg_neg]

theorem toRat_round (d : Decimal) :
    d.round.toRat = if d.toRat < 0 then -(⌊-d.toRat + 1 / 2⌋ : ℚ) else ⌊d.toRat + 1 / 2⌋ := by
  unfold round
  split
  · rename_i negative
    rw [if_pos (isNegative_iff.mp negative)]
    simp
  · rename_i nonneg
    rw [if_neg (mt isNegative_iff.mpr nonneg)]
    simp

/-- Two decimals denote one number, whatever their scales are. -/
abbrev Same (a b : Decimal) : Prop := a.toRat = b.toRat

namespace Same

variable {a b c d : Decimal}

theorem isZero (same : Same a b) : a.isZero = b.isZero := by
  rw [Bool.eq_iff_iff, isZero_iff, isZero_iff, same]

theorem isNegative (same : Same a b) : a.isNegative = b.isNegative := by
  rw [Bool.eq_iff_iff, isNegative_iff, isNegative_iff, same]

theorem isPositive (same : Same a b) : a.isPositive = b.isPositive := by
  rw [Bool.eq_iff_iff, isPositive_iff, isPositive_iff, same]

theorem isOne (same : Same a b) : a.isOne = b.isOne := by
  rw [Bool.eq_iff_iff, isOne_iff, isOne_iff, same]

theorem isIntegral (same : Same a b) : a.isIntegral = b.isIntegral := by
  rw [Bool.eq_iff_iff, isIntegral_iff, isIntegral_iff, same]

theorem toInt (same : Same a b) : a.toInt = b.toInt := by rw [toInt_eq, toInt_eq, same]

theorem less (left : Same a b) (right : Same c d) : a.less c = b.less d := by
  rw [Bool.eq_iff_iff, less_iff, less_iff, left, right]

theorem beq (left : Same a b) (right : Same c d) : (a == c) = (b == d) := by
  rw [Bool.eq_iff_iff, beq_iff, beq_iff, left, right]

theorem neg (same : Same a b) : Same a.neg b.neg := by rw [Same, toRat_neg, toRat_neg, same]

theorem abs (same : Same a b) : Same a.abs b.abs := by rw [Same, toRat_abs, toRat_abs, same]

theorem add (left : Same a b) (right : Same c d) : Same (a.add c) (b.add d) := by
  rw [Same, toRat_add, toRat_add, left, right]

theorem sub (left : Same a b) (right : Same c d) : Same (a.sub c) (b.sub d) := by
  rw [Same, toRat_sub, toRat_sub, left, right]

theorem mul (left : Same a b) (right : Same c d) : Same (a.mul c) (b.mul d) := by
  rw [Same, toRat_mul, toRat_mul, left, right]

theorem rem (left : Same a b) (right : Same c d) : Same (a.rem c) (b.rem d) := by
  rw [Same, toRat_rem, toRat_rem, left, right]

theorem floor (same : Same a b) : Same a.floor b.floor := by
  rw [Same, toRat_floor, toRat_floor, same]

theorem ceil (same : Same a b) : Same a.ceil b.ceil := by rw [Same, toRat_ceil, toRat_ceil, same]

theorem round (same : Same a b) : Same a.round b.round := by
  rw [Same, toRat_round, toRat_round, same]

theorem smaller (left : Same a b) (right : Same c d) : Same (a.smaller c) (b.smaller d) := by
  rw [Same, toRat_smaller, toRat_smaller, left, right]

theorem larger (left : Same a b) (right : Same c d) : Same (a.larger c) (b.larger d) := by
  rw [Same, toRat_larger, toRat_larger, left, right]

end Same

end Formulary.Decimal
