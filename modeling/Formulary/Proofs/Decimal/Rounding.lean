import Formulary.Decimal.Arithmetic
import Formulary.Proofs.Decimal.Order

namespace Formulary.Decimal

/-! Rounding to significant digits. What is rounded is a number, not its written form, and the
    quotient of two numbers is rounded as if it had been computed exactly. -/

/-- Halves go up; a negative number loses its fraction. -/
def settle (q : ℚ) : ℤ := if 0 ≤ q then ⌊q + 1 / 2⌋ else ⌈q⌉

/-- The scale of a number other than zero with `digits` significant digits. -/
def placeOf (q : ℚ) (digits : ℕ) : ℤ := digits - (Int.log 10 |q| + 1)

/-- A number other than zero with exactly `digits` significant digits. -/
def roundTo (q : ℚ) (digits : ℕ) : Decimal :=
  ⟨settle (q * 10 ^ placeOf q digits), placeOf q digits⟩

theorem settle_intCast (n : ℤ) : settle n = n := by
  unfold settle
  split
  · rw [Int.floor_eq_iff]
    constructor <;> linarith
  · exact Int.ceil_intCast n

/-- Division with a carry at half of the divisor. -/
theorem settle_div (m : ℤ) {unit : ℕ} (positive : 0 < unit) :
    m.tdiv unit + (if (unit : ℤ) ≤ 2 * m.tmod unit then 1 else 0) = settle ((m : ℚ) / unit) := by
  have unit_pos : (0 : ℚ) < unit := by exact_mod_cast positive
  unfold settle
  rcases le_or_gt 0 m with nonneg | negative
  · have m_nonneg : (0 : ℚ) ≤ m := by exact_mod_cast nonneg
    have low : (0 : ℚ) ≤ m.tmod unit := by exact_mod_cast Int.tmod_nonneg unit nonneg
    have high : (m.tmod unit : ℚ) < unit := by
      exact_mod_cast Int.tmod_lt_of_pos m (by exact_mod_cast positive)
    have quotient : (m : ℚ) / unit = m.tdiv unit + m.tmod unit / unit := by
      have division : (m : ℚ) = unit * m.tdiv unit + m.tmod unit := by
        exact_mod_cast (Int.mul_tdiv_add_tmod m unit).symm
      rw [div_eq_iff unit_pos.ne', add_mul, div_mul_cancel₀ _ unit_pos.ne', mul_comm]
      exact division
    rw [if_pos (div_nonneg m_nonneg unit_pos.le), eq_comm, Int.floor_eq_iff, quotient]
    split
    · rename_i carry
      have half : (1 : ℚ) / 2 ≤ m.tmod unit / unit := by
        rw [div_le_div_iff₀ two_pos unit_pos, one_mul, mul_comm]
        exact_mod_cast carry
      have below : (m.tmod unit : ℚ) / unit < 1 := (div_lt_one unit_pos).mpr high
      push_cast
      constructor <;> linarith
    · rename_i noCarry
      have half : (m.tmod unit : ℚ) / unit < 1 / 2 := by
        rw [div_lt_div_iff₀ unit_pos two_pos, one_mul, mul_comm]
        exact_mod_cast not_le.mp noCarry
      have above : (0 : ℚ) ≤ m.tmod unit / unit := div_nonneg low unit_pos.le
      push_cast
      constructor <;> linarith
  · have rest : m.tmod unit ≤ 0 := by
      have opposite := Int.tmod_nonneg (a := -m) unit (by omega)
      rw [Int.neg_tmod] at opposite
      omega
    have quotient : ¬ (0 : ℚ) ≤ (m : ℚ) / unit :=
      not_le.mpr (div_neg_of_neg_of_pos (by exact_mod_cast negative) unit_pos)
    rw [if_neg (by omega), if_neg quotient, add_zero, tdiv_eq, integerPart, Int.cast_natCast,
      if_neg quotient]

/-- Cutting off the fraction first does not change the result when more digits are lost. -/
theorem settle_integerPart (q : ℚ) {places : ℕ} (lost : 0 < places) :
    settle (integerPart q / (10 ^ places : ℕ)) = settle (q / (10 ^ places : ℕ)) := by
  have unit_pos : (0 : ℚ) < (10 ^ places : ℕ) := by positivity
  unfold integerPart
  rcases le_or_gt 0 q with nonneg | negative
  · have floor_nonneg : (0 : ℚ) ≤ ⌊q⌋ := by exact_mod_cast Int.floor_nonneg.mpr nonneg
    obtain ⟨half, twice⟩ : 2 ∣ 10 ^ places := Dvd.dvd.pow (by decide) lost.ne'
    have middle : (1 : ℚ) / 2 = half / (10 ^ places : ℕ) := by
      rw [div_eq_div_iff two_ne_zero unit_pos.ne', one_mul, mul_comm]
      exact_mod_cast twice
    rw [if_pos nonneg, settle, settle, if_pos (div_nonneg floor_nonneg unit_pos.le),
      if_pos (div_nonneg nonneg unit_pos.le), middle, ← add_div, ← add_div,
      Int.floor_div_natCast, Int.floor_div_natCast, Int.floor_add_natCast, Int.floor_add_natCast,
      Int.floor_intCast]
  · have ceil_nonpos : (⌈q⌉ : ℚ) ≤ 0 := by
      exact_mod_cast Int.ceil_le.mpr (by exact_mod_cast negative.le)
    have ceils : ⌈(⌈q⌉ : ℚ) / (10 ^ places : ℕ)⌉ = ⌈q / (10 ^ places : ℕ)⌉ := by
      rw [← neg_inj, ← Int.floor_neg, ← Int.floor_neg, ← neg_div, ← neg_div,
        Int.floor_div_natCast, Int.floor_div_natCast, Int.floor_neg, Int.floor_neg,
        Int.ceil_intCast]
    have below : ¬ (0 : ℚ) ≤ q / (10 ^ places : ℕ) :=
      not_le.mpr (div_neg_of_neg_of_pos negative unit_pos)
    rw [if_neg (not_le.mpr negative), settle, settle, if_neg below]
    split
    · rename_i above
      have nothing : (⌈q⌉ : ℚ) / (10 ^ places : ℕ) = 0 :=
        le_antisymm (div_nonpos_of_nonpos_of_nonneg ceil_nonpos unit_pos.le) above
      rw [← ceils, nothing]
      norm_num
    · exact ceils

theorem toRat_mul_ten_zpow (d : Decimal) (places : ℕ) :
    d.toRat * 10 ^ (d.scale - places) = d.mantissa / (10 ^ places : ℕ) := by
  rw [toRat, mul_assoc, ← ten_zpow_add, div_eq_mul_inv, Nat.cast_pow, Nat.cast_ofNat,
    ← zpow_natCast, ← zpow_neg]
  congr 2
  ring

theorem placeOf_toRat {d : Decimal} (something : d.toRat ≠ 0) (digits : ℕ) :
    placeOf d.toRat digits = d.scale + digits - d.digitCount := by
  rw [placeOf, ← decade_eq something, decade]
  ring

theorem withDigits_eq {d : Decimal} (something : d.toRat ≠ 0) (digits : ℕ) :
    d.withDigits digits = roundTo d.toRat digits := by
  unfold withDigits roundTo
  dsimp only
  rw [placeOf_toRat something]
  split
  · rename_i surplus
    have scale : d.scale + digits - d.digitCount = d.scale - (d.digitCount - digits : ℕ) := by omega
    rw [scale, toRat_mul_ten_zpow, ← settle_div d.mantissa (by positivity)]
  · rename_i missing
    have scale : d.scale + digits - d.digitCount = d.scale + (digits - d.digitCount : ℕ) := by omega
    have moved : d.toRat * 10 ^ (d.scale + ((digits - d.digitCount : ℕ) : ℤ)) =
        ((d.mantissa * ((10 ^ (digits - d.digitCount) : ℕ) : ℤ) : ℤ) : ℚ) := by
      rw [toRat, mul_assoc, ← ten_zpow_add, neg_add_cancel_left, zpow_natCast]
      push_cast
      ring
    rw [scale, moved, settle_intCast]

theorem toRat_withDigits_zero {d : Decimal} (nothing : d.toRat = 0) (digits : ℕ) :
    (d.withDigits digits).toRat = 0 := by
  have mantissa := toRat_eq_zero.mp nothing
  unfold withDigits
  dsimp only
  split
  · rw [toRat_eq_zero, mantissa]
    simp
  · rw [toRat_eq_zero, mantissa]
    simp

theorem Same.withDigits {a b : Decimal} (same : Same a b) (digits : ℕ) :
    Same (a.withDigits digits) (b.withDigits digits) := by
  by_cases nothing : a.toRat = 0
  · rw [Same, toRat_withDigits_zero nothing, toRat_withDigits_zero (same ▸ nothing)]
  · rw [withDigits_eq nothing, withDigits_eq (same ▸ nothing), same]

theorem log_mul_ten_zpow {q : ℚ} (positive : 0 < q) (k : ℤ) :
    Int.log 10 (q * 10 ^ k) = Int.log 10 q + k := by
  refine eq_of_forall_le_iff fun x => ?_
  have base : 1 < 10 := by decide
  have moved : (10 : ℚ) ^ x ≤ q * 10 ^ k ↔ (10 : ℚ) ^ (x - k) ≤ q := by
    rw [zpow_sub₀ (by norm_num), div_le_iff₀ (ten_zpow_pos k)]
  have left := Int.zpow_le_iff_le_log base (x := x) (mul_pos positive (ten_zpow_pos k))
  have right := Int.zpow_le_iff_le_log base (x := x - k) positive
  rw [Nat.cast_ofNat] at left right
  rw [← left, moved, right]
  omega

theorem placeOf_mul_ten_zpow {q : ℚ} (something : q ≠ 0) (scale : ℤ) (digits : ℕ) :
    placeOf (q * 10 ^ (-scale)) digits = scale + placeOf q digits := by
  rw [placeOf, abs_mul, abs_of_pos (ten_zpow_pos _), log_mul_ten_zpow (abs_pos.mpr something),
    placeOf]
  ring

theorem roundTo_mul_ten_zpow {q : ℚ} (something : q ≠ 0) (scale : ℤ) (digits : ℕ) :
    roundTo (q * 10 ^ (-scale)) digits =
      ⟨(roundTo q digits).mantissa, scale + (roundTo q digits).scale⟩ := by
  unfold roundTo
  rw [placeOf_mul_ten_zpow something, mul_assoc, ← ten_zpow_add, neg_add_cancel_left]

theorem abs_integerPart (q : ℚ) : |(integerPart q : ℚ)| = ⌊|q|⌋₊ := by
  have nonnegative : ∀ {q : ℚ}, 0 ≤ q → |(integerPart q : ℚ)| = ⌊|q|⌋₊ := by
    intro q nonneg
    have floor := Int.floor_nonneg.mpr nonneg
    rw [integerPart, if_pos nonneg, abs_of_nonneg nonneg, abs_of_nonneg (by exact_mod_cast floor),
      natCast_floor_eq_intCast_floor nonneg]
  rcases le_total 0 q with nonneg | nonpos
  · exact nonnegative nonneg
  · have opposite := nonnegative (neg_nonneg.mpr nonpos)
    rwa [integerPart_neg, Int.cast_neg, abs_neg, abs_neg] at opposite

/-- The integer part of a number with more digits than are asked for has the same leading digit, and
    digits behind those that are asked for. -/
theorem placeOf_integerPart {q : ℚ} {digits : ℕ} (large : (10 : ℚ) ^ digits ≤ |q|) :
    placeOf (integerPart q) digits = placeOf q digits ∧
      ∃ lost : ℕ, placeOf q digits = -(lost + 1 : ℕ) := by
  have one_le : (1 : ℚ) ≤ |q| := (one_le_pow₀ (by norm_num)).trans large
  have log : Int.log 10 |(integerPart q : ℚ)| = Int.log 10 |q| := by
    rw [abs_integerPart, Int.log_natCast, Int.log_of_one_le_right _ one_le]
  have cut : (digits : ℤ) ≤ Int.log 10 |q| :=
    (Int.zpow_le_iff_le_log (by decide) (by linarith)).mp (by exact_mod_cast large)
  refine ⟨by rw [placeOf, placeOf, log], (Int.log 10 |q| - digits).toNat, ?_⟩
  rw [placeOf]
  push_cast
  omega

theorem mul_ten_zpow_neg (q : ℚ) (places : ℕ) :
    q * 10 ^ (-(places : ℤ)) = q / (10 ^ places : ℕ) := by
  rw [zpow_neg, zpow_natCast, Nat.cast_pow, Nat.cast_ofNat, div_eq_mul_inv]

theorem roundTo_integerPart {q : ℚ} {digits : ℕ} (large : (10 : ℚ) ^ digits ≤ |q|) :
    roundTo (integerPart q) digits = roundTo q digits := by
  obtain ⟨same, lost, place⟩ := placeOf_integerPart large
  unfold roundTo
  rw [same, place, mul_ten_zpow_neg, mul_ten_zpow_neg, settle_integerPart q (by omega)]

/-! Quotients. -/

section

variable {a b : Decimal}

theorem quotient_eq (dividend : a.toRat ≠ 0) (divisor : b.toRat ≠ 0) (digits : ℕ) :
    quotient a b digits = .ok ((longQuotient a b digits).withDigits digits) := by
  rw [quotient, if_neg (mt isZero_iff.mp divisor), if_neg (mt isZero_iff.mp dividend)]

theorem quotient_zero (dividend : a.toRat = 0) (divisor : b.toRat ≠ 0) (digits : ℕ) :
    quotient a b digits = .ok zero := by
  rw [quotient, if_neg (mt isZero_iff.mp divisor), if_pos (isZero_iff.mpr dividend)]

theorem quotient_by_zero (divisor : b.toRat = 0) (digits : ℕ) :
    quotient a b digits = .error .divisionByZero := by
  rw [quotient, if_pos (isZero_iff.mpr divisor)]

/-- A quotient before it is rounded is the integer part of the ratio at a place behind the digits
    that are asked for. -/
theorem longQuotient_eq (dividend : a.toRat ≠ 0) (divisor : b.toRat ≠ 0) (digits : ℕ) :
    ∃ q : ℚ, 10 ^ digits ≤ |q| ∧
      a.toRat / b.toRat = q * 10 ^ (-(longQuotient a b digits).scale) ∧
      (longQuotient a b digits).mantissa = integerPart q := by
  have left : a.mantissa ≠ 0 := fun nothing => dividend (toRat_eq_zero.mpr nothing)
  have right : b.mantissa ≠ 0 := fun nothing => divisor (toRat_eq_zero.mpr nothing)
  unfold longQuotient
  dsimp only
  set shift := digits + b.digitCount + 1 - a.digitCount with shift_eq
  set q : ℚ := (a.mantissa * (10 ^ shift : ℕ) : ℤ) / (b.mantissa : ℤ) with q_eq
  refine ⟨q, ?_, ?_, tdiv_eq _ _⟩
  · have above : 10 ^ (a.digitCount - 1) ≤ a.mantissa.natAbs := by
      rw [digitCount, Digits.length_eq]
      exact Nat.pow_log_le_self 10 (Int.natAbs_ne_zero.mpr left)
    have below := Digits.lt_pow_length b.mantissa.natAbs
    have counted : digits + b.digitCount ≤ a.digitCount - 1 + shift := by
      have := Digits.length_eq a.mantissa.natAbs
      unfold digitCount at *
      omega
    rw [q_eq, abs_div, le_div_iff₀ (abs_pos.mpr (by exact_mod_cast right))]
    have product : 10 ^ digits * b.mantissa.natAbs ≤ a.mantissa.natAbs * 10 ^ shift :=
      calc 10 ^ digits * b.mantissa.natAbs
          ≤ 10 ^ digits * 10 ^ b.digitCount := Nat.mul_le_mul_left _ below.le
        _ = 10 ^ (digits + b.digitCount) := (pow_add 10 _ _).symm
        _ ≤ 10 ^ (a.digitCount - 1 + shift) := Nat.pow_le_pow_right (by decide) counted
        _ = 10 ^ (a.digitCount - 1) * 10 ^ shift := pow_add 10 _ _
        _ ≤ a.mantissa.natAbs * 10 ^ shift := Nat.mul_le_mul_right _ above
    rw [← Int.cast_abs, ← Int.cast_abs, Int.abs_eq_natAbs, Int.abs_eq_natAbs, Int.natAbs_mul,
      Int.natAbs_natCast]
    exact_mod_cast product
  · have mantissa : (b.mantissa : ℚ) ≠ 0 := by exact_mod_cast right
    have powers : (10 : ℚ) ^ (-a.scale) =
        10 ^ shift * 10 ^ (-(a.scale - b.scale + shift)) * 10 ^ (-b.scale) := by
      rw [← zpow_natCast, ← ten_zpow_add, ← ten_zpow_add]
      congr 1
      ring
    rw [div_eq_iff divisor, q_eq, toRat, toRat, powers]
    push_cast
    field_simp

theorem ne_zero_of_ten_pow_le {q : ℚ} {digits : ℕ} (large : (10 : ℚ) ^ digits ≤ |q|) : q ≠ 0 := by
  rintro rfl
  rw [abs_zero] at large
  exact absurd large (not_le.mpr (by positivity))

theorem integerPart_ne_zero {q : ℚ} {digits : ℕ} (large : (10 : ℚ) ^ digits ≤ |q|) :
    (integerPart q : ℚ) ≠ 0 := by
  intro nothing
  have floor := abs_integerPart q
  rw [nothing, abs_zero, eq_comm, Nat.cast_eq_zero, Nat.floor_eq_zero] at floor
  exact absurd large (not_le.mpr (floor.trans_le (one_le_pow₀ (by norm_num))))

/-- Quotients carry enough digits to round as the exact ratio does. -/
theorem withDigits_longQuotient (dividend : a.toRat ≠ 0) (divisor : b.toRat ≠ 0) (digits : ℕ) :
    (longQuotient a b digits).withDigits digits = roundTo (a.toRat / b.toRat) digits := by
  obtain ⟨q, large, ratio, mantissa⟩ := longQuotient_eq dividend divisor digits
  have whole := integerPart_ne_zero large
  have value : (longQuotient a b digits).toRat =
      integerPart q * 10 ^ (-(longQuotient a b digits).scale) := by
    rw [toRat, mantissa]
  rw [withDigits_eq, value, ratio, roundTo_mul_ten_zpow whole,
    roundTo_mul_ten_zpow (ne_zero_of_ten_pow_le large), roundTo_integerPart large]
  rw [value]
  exact mul_ne_zero whole (ten_zpow_ne_zero _)

theorem Same.quotient {a' b' : Decimal} (left : Same a a') (right : Same b b') (digits : ℕ) :
    quotient a b digits = quotient a' b' digits := by
  by_cases divisor : b.toRat = 0
  · rw [quotient_by_zero divisor, quotient_by_zero (right ▸ divisor)]
  by_cases dividend : a.toRat = 0
  · rw [quotient_zero dividend divisor, quotient_zero (left ▸ dividend) (right ▸ divisor)]
  rw [quotient_eq dividend divisor, withDigits_longQuotient dividend divisor, left, right,
    quotient_eq (left ▸ dividend) (right ▸ divisor),
    withDigits_longQuotient (left ▸ dividend) (right ▸ divisor)]

theorem Same.divide {a' b' : Decimal} (left : Same a a') (right : Same b b') (digits : ℕ) :
    divide a b digits = divide a' b' digits := by
  rw [Decimal.divide, Decimal.divide, left.quotient right]

end

end Formulary.Decimal
