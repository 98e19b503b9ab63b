import Mathlib.Data.Rat.Floor
import Mathlib.Algebra.Order.Field.Basic
import Mathlib.Algebra.Order.Field.Rat
import Mathlib.Tactic.FieldSimp
import Mathlib.Tactic.Linarith
import Mathlib.Tactic.Positivity
import Mathlib.Tactic.NormNum
import Formulary.Decimal.Arithmetic
import Formulary.Proofs.Decimal.Digits

namespace Formulary.Decimal

/-! The number that a decimal denotes. Many decimals denote one number; the operations give
    decimals of the right numbers, whatever scales they work at. -/

/-- The number of a decimal. -/
def toRat (d : Decimal) : ℚ := d.mantissa * (10 : ℚ) ^ (-d.scale)

theorem ten_zpow_pos (k : ℤ) : (0 : ℚ) < 10 ^ k := zpow_pos (by norm_num) k

theorem ten_zpow_ne_zero (k : ℤ) : (10 : ℚ) ^ k ≠ 0 := (ten_zpow_pos k).ne'

theorem ten_zpow_add (j k : ℤ) : (10 : ℚ) ^ (j + k) = 10 ^ j * 10 ^ k :=
  zpow_add₀ (by norm_num) j k

theorem ten_pow_toNat_mul {low high : ℤ} (order : low ≤ high) :
    (((10 ^ (high - low).toNat : ℕ) : ℤ) : ℚ) * 10 ^ (-high) = 10 ^ (-low) := by
  have exponent : ((high - low).toNat : ℤ) = high - low := Int.toNat_of_nonneg (by omega)
  push_cast
  rw [← zpow_natCast, exponent, ← ten_zpow_add]
  congr 1
  ring

@[simp] theorem toRat_mk (mantissa scale : ℤ) :
    toRat ⟨mantissa, scale⟩ = mantissa * (10 : ℚ) ^ (-scale) := rfl

@[simp] theorem toRat_ofInt (n : ℤ) : (ofInt n).toRat = n := by simp [ofInt, toRat]

@[simp] theorem toRat_ofNat (n : ℕ) : (ofNat n).toRat = n := by simp [ofNat, toRat]

@[simp] theorem toRat_zero : zero.toRat = 0 := by simp [zero, toRat]

@[simp] theorem toRat_one : one.toRat = 1 := by simp [one, toRat]

@[simp] theorem toRat_two : two.toRat = 2 := by simp [two, toRat]

@[simp] theorem toRat_half : half.toRat = 1 / 2 := by norm_num [half, toRat]

theorem toRat_eq_zero {d : Decimal} : d.toRat = 0 ↔ d.mantissa = 0 := by
  simp [toRat, ten_zpow_ne_zero]

theorem isZero_iff {d : Decimal} : d.isZero = true ↔ d.toRat = 0 := by
  rw [toRat_eq_zero, isZero, beq_iff_eq]

theorem isZero_eq_false {d : Decimal} (something : d.toRat ≠ 0) : d.isZero = false := by
  simpa [← isZero_iff] using something

theorem toRat_pos {d : Decimal} : 0 < d.toRat ↔ 0 < d.mantissa := by
  rw [toRat, mul_pos_iff_of_pos_right (ten_zpow_pos _)]
  exact Int.cast_pos

theorem isPositive_iff {d : Decimal} : d.isPositive = true ↔ 0 < d.toRat := by
  rw [toRat_pos, isPositive, decide_eq_true_iff]

@[simp] theorem toRat_neg (d : Decimal) : d.neg.toRat = -d.toRat := by
  simp [neg, toRat]

theorem toRat_neg_iff {d : Decimal} : d.toRat < 0 ↔ d.mantissa < 0 := by
  have opposite := toRat_pos (d := d.neg)
  rwa [toRat_neg, neg_pos, neg, neg_pos] at opposite

theorem isNegative_iff {d : Decimal} : d.isNegative = true ↔ d.toRat < 0 := by
  rw [toRat_neg_iff, isNegative, decide_eq_true_iff]

@[simp] theorem toRat_abs (d : Decimal) : d.abs.toRat = |d.toRat| := by
  rw [toRat, toRat, abs_mul, abs_of_pos (ten_zpow_pos _)]
  simp [Decimal.abs]

theorem toRat_rescale {d : Decimal} {scale : ℤ} (order : d.scale ≤ scale) :
    (d.rescale scale).toRat = d.toRat := by
  unfold rescale
  split
  · rename_i nothing
    simp [toRat, nothing]
  · simp only [toRat, Int.cast_mul]
    rw [mul_assoc, ten_pow_toNat_mul order]

theorem scale_rescale (d : Decimal) (scale : ℤ) : (d.rescale scale).scale = scale := by
  unfold rescale
  split
  · rfl
  · split <;> rfl

theorem align_spec (a b : Decimal) :
    a.toRat = (align a b).1 * (10 : ℚ) ^ (-(align a b).2.2) ∧
      b.toRat = (align a b).2.1 * (10 : ℚ) ^ (-(align a b).2.2) := by
  have left := toRat_rescale (le_max_left a.scale b.scale)
  have right := toRat_rescale (le_max_right a.scale b.scale)
  rw [toRat, scale_rescale] at left right
  exact ⟨left.symm, right.symm⟩

@[simp] theorem toRat_addAligned (a b : Decimal) : (addAligned a b).toRat = a.toRat + b.toRat := by
  obtain ⟨left, right⟩ := align_spec a b
  rw [left, right]
  simp only [addAligned, toRat_mk]
  push_cast
  ring

theorem toRat_extendTowards (d : Decimal) (scale : ℤ) : (d.extendTowards scale).toRat = d.toRat :=
  toRat_rescale (by omega)

@[simp] theorem toRat_add (a b : Decimal) : (a.add b).toRat = a.toRat + b.toRat := by
  unfold add
  split
  · rename_i nothing
    rw [toRat_extendTowards, isZero_iff.mp nothing, add_zero]
  · split
    · rename_i nothing
      rw [toRat_extendTowards, isZero_iff.mp nothing, zero_add]
    · exact toRat_addAligned a b

@[simp] theorem toRat_sub (a b : Decimal) : (a.sub b).toRat = a.toRat - b.toRat := by
  rw [sub, toRat_addAligned, toRat_neg, sub_eq_add_neg]

@[simp] theorem toRat_normalize (d : Decimal) : d.normalize.toRat = d.toRat := by
  unfold normalize
  rcases eq_or_ne d.mantissa 0 with nothing | something
  · simp [nothing, Digits.stripZeros, toRat_eq_zero.mpr nothing]
  · have positive : d.mantissa.natAbs ≠ 0 := Int.natAbs_ne_zero.mpr something
    obtain ⟨product, last⟩ := Digits.stripZeros_spec positive
    have kept : (Digits.stripZeros d.mantissa.natAbs).1 ≠ 0 := by
      intro nothing
      rw [nothing] at last
      exact last rfl
    dsimp only
    rw [if_neg kept, toRat_mk, toRat]
    have mantissa : (d.mantissa : ℚ) = d.mantissa.sign * ((Digits.stripZeros d.mantissa.natAbs).1 *
        10 ^ (Digits.stripZeros d.mantissa.natAbs).2) := by
      have whole := Int.sign_mul_natAbs d.mantissa
      rw [← product] at whole
      exact_mod_cast whole.symm
    rw [mantissa, neg_sub, sub_eq_add_neg, ten_zpow_add, zpow_natCast]
    push_cast
    ring

theorem normalize_last {d : Decimal} (something : d.toRat ≠ 0) :
    ¬ (10 : ℤ) ∣ d.normalize.mantissa := by
  have nonzero : d.mantissa ≠ 0 := fun nothing => something (toRat_eq_zero.mpr nothing)
  obtain ⟨-, last⟩ := Digits.stripZeros_spec (Int.natAbs_ne_zero.mpr nonzero)
  have kept : (Digits.stripZeros d.mantissa.natAbs).1 ≠ 0 := by
    intro nothing
    rw [nothing] at last
    exact last rfl
  unfold normalize
  dsimp only
  rw [if_neg kept]
  intro divides
  have divides := Int.natAbs_dvd_natAbs.mpr divides
  rw [Int.natAbs_mul, Int.natAbs_sign_of_ne_zero nonzero, one_mul, Int.natAbs_natCast] at divides
  exact last (Nat.mod_eq_zero_of_dvd divides)

theorem normalize_of_zero {d : Decimal} (nothing : d.toRat = 0) : d.normalize = zero := by
  simp [normalize, toRat_eq_zero.mp nothing, Digits.stripZeros]

theorem eq_of_not_dvd {a b : Decimal} (left : ¬ (10 : ℤ) ∣ a.mantissa)
    (right : ¬ (10 : ℤ) ∣ b.mantissa) (same : a.toRat = b.toRat) : a = b := by
  have scales : ∀ {a b : Decimal}, ¬ (10 : ℤ) ∣ b.mantissa → a.toRat = b.toRat →
      b.scale ≤ a.scale := by
    intro a b last same
    by_contra smaller
    have order : a.scale ≤ b.scale := by omega
    have mantissas : b.mantissa = a.mantissa * ((10 ^ (b.scale - a.scale).toNat : ℕ) : ℤ) := by
      have product : (b.mantissa : ℚ) * 10 ^ (-b.scale) =
          a.mantissa * ((10 ^ (b.scale - a.scale).toNat : ℕ) : ℤ) * 10 ^ (-b.scale) := by
        rw [mul_assoc, ten_pow_toNat_mul order]
        exact same.symm
      exact_mod_cast mul_right_cancel₀ (ten_zpow_ne_zero _) product
    obtain ⟨places, positive⟩ : ∃ places, (b.scale - a.scale).toNat = places + 1 :=
      ⟨(b.scale - a.scale).toNat - 1, by omega⟩
    refine last ⟨a.mantissa * ((10 ^ places : ℕ) : ℤ), ?_⟩
    rw [mantissas, positive]
    push_cast
    ring
  have scale : a.scale = b.scale := le_antisymm (scales left same.symm) (scales right same)
  have mantissa : a.mantissa = b.mantissa := by
    rw [toRat, toRat, scale] at same
    exact_mod_cast mul_right_cancel₀ (ten_zpow_ne_zero _) same
  cases a
  cases b
  simp_all

theorem normalize_eq_iff {a b : Decimal} : a.normalize = b.normalize ↔ a.toRat = b.toRat := by
  constructor
  · intro same
    rw [← toRat_normalize a, ← toRat_normalize b, same]
  · intro same
    rcases eq_or_ne a.toRat 0 with nothing | something
    · rw [normalize_of_zero nothing, normalize_of_zero (same ▸ nothing)]
    · refine eq_of_not_dvd (normalize_last something) (normalize_last (same ▸ something)) ?_
      rw [toRat_normalize, toRat_normalize, same]

theorem equal_iff {a b : Decimal} : a.equal b = true ↔ a.toRat = b.toRat := by
  rw [← normalize_eq_iff]
  simp only [equal, Bool.and_eq_true, beq_iff_eq]
  constructor
  · intro same
    cases left : a.normalize
    cases right : b.normalize
    simp_all
  · intro same
    simp [same]

theorem beq_iff {a b : Decimal} : (a == b) = true ↔ a.toRat = b.toRat := equal_iff

theorem isOne_iff {d : Decimal} : d.isOne = true ↔ d.toRat = 1 := by
  rw [isOne, beq_iff, toRat_one]

theorem toRat_isPlainOne {d : Decimal} (plain : d.isPlainOne = true) : d.toRat = 1 := by
  simp only [isPlainOne, Bool.and_eq_true, decide_eq_true_eq, beq_iff_eq] at plain
  obtain ⟨⟨nonneg, -⟩, mantissa⟩ := plain
  have moved := ten_pow_toNat_mul nonneg
  simpa [toRat, mantissa] using moved

@[simp] theorem toRat_mul (a b : Decimal) : (a.mul b).toRat = a.toRat * b.toRat := by
  unfold mul
  split
  · rename_i plain
    rw [toRat_normalize, toRat_isPlainOne plain, one_mul]
  · split
    · rename_i plain
      rw [toRat_normalize, toRat_isPlainOne plain, mul_one]
    · simp only [toRat, neg_add, ten_zpow_add]
      push_cast
      ring

end Formulary.Decimal
