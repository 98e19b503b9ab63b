import Formulary.Decimal.Text
import Formulary.Proofs.Decimal.Cut

namespace Formulary.Decimal

/-! Division with scales of 64 bits. A quotient is accurate as long as the scale of its last digit
    fits; what does not fit on the way to it does no harm, because sums that go round come back. -/

/-- An integer as a word of 64 bits keeps it. -/
def word (n : ℤ) : ℤ := n.bmod (2 ^ 64)

theorem word_of_fits {n : ℤ} (fits : scaleFits n = true) : word n = n := by
  have bounds : -(2 ^ 63) ≤ n ∧ n < 2 ^ 63 := by simpa [scaleFits] using fits
  rw [word, Int.bmod_eq_of_le (by omega) (by omega)]

theorem wrapped_of_fits {d : Decimal} (fits : scaleFits d.scale = true) : d.wrapped = d := by
  have kept : d.scale.bmod (2 ^ 64) = d.scale := word_of_fits fits
  rw [wrapped, kept]

/-- A scale that has gone round is still right after a cut. -/
theorem wrapped_withDigits (d : Decimal) (digits : ℕ) :
    (d.wrapped.withDigits digits).wrapped = (d.withDigits digits).wrapped := by
  unfold withDigits wrapped digitCount
  dsimp only
  split
  · rw [Int.bmod_sub_bmod]
  · rw [Int.bmod_add_bmod]

/-- Division with every count of digits as it is computed: in words, and with a shift that is cut to
    32 bits where it is the exponent of a power of ten. -/
def divideInWords (a b : Decimal) (digits : ℕ) : Except Fault Decimal :=
  if b.isZero then .error .divisionByZero
  else if a.isZero then .ok zero
  else
    let shift := max (word (word (word (word digits + b.digitCount) - a.digitCount) + 1)) 0
    let quotient := (a.mantissa * (10 ^ (shift.toNat % 2 ^ 32) : ℕ)).tdiv b.mantissa
    let scale := word (word (a.scale - b.scale) + shift)
    .ok (withDigits ⟨quotient, scale⟩ digits).wrapped

section

variable {a b : Decimal} {digits : ℕ}

/-- No count goes round as long as all the digits together can be counted in 32 bits. -/
theorem divideInWords_eq (few : digits + a.digitCount + b.digitCount + 1 < 2 ^ 32) :
    divideInWords a b digits = divide a b digits := by
  have small : ∀ n : ℤ, -(2 ^ 32) ≤ n → n ≤ 2 ^ 32 → word n = n := by
    intro n low high
    refine word_of_fits ?_
    simp only [scaleFits, Bool.and_eq_true, decide_eq_true_eq]
    omega
  have shift : max (word (word (word (word digits + b.digitCount) - a.digitCount) + 1)) 0 =
      ((digits + b.digitCount + 1 - a.digitCount : ℕ) : ℤ) := by
    rw [small digits (by omega) (by omega), small (digits + b.digitCount) (by omega) (by omega),
      small (digits + b.digitCount - a.digitCount) (by omega) (by omega),
      small (digits + b.digitCount - a.digitCount + 1) (by omega) (by omega)]
    omega
  have exponent : (digits + b.digitCount + 1 - a.digitCount) % 2 ^ 32 =
      digits + b.digitCount + 1 - a.digitCount := Nat.mod_eq_of_lt (by omega)
  unfold divideInWords divide quotient
  split
  · rfl
  split
  · rfl
  dsimp only
  rw [shift, Int.toNat_natCast, exponent, word, word, Int.bmod_add_bmod]
  exact congrArg Except.ok (wrapped_withDigits (longQuotient a b digits) digits)

theorem divide_eq_wrapped (dividend : a.toRat ≠ 0) (divisor : b.toRat ≠ 0) (digits : ℕ) :
    divide a b digits = .ok ((longQuotient a b digits).withDigits digits).wrapped := by
  rw [divide, quotient_eq dividend divisor]
  rfl

theorem scale_longQuotient (dividend : a.toRat ≠ 0) (divisor : b.toRat ≠ 0) (digits : ℕ) :
    ((longQuotient a b digits).withDigits digits).scale = placeOf (a.toRat / b.toRat) digits := by
  rw [withDigits_longQuotient dividend divisor]
  rfl

end

/-- What division computes with: counts of digits in 32 bits, and a scale of 64 bits for the last
    digit of the ratio. -/
structure DivisionFits (a b : Decimal) (digits : ℕ) : Prop where
  counts : digits + a.digitCount + b.digitCount + 1 < 2 ^ 32
  scale : scaleFits (placeOf (a.toRat / b.toRat) digits) = true

/-- Division is accurate, and exact where it can be. A quotient of zero is zero. Any other one is off
    by less than a unit in the last of the digits asked for, and not at all when the true quotient
    can be written with them. -/
theorem divide_accurate (a : Decimal) {b : Decimal} (divisor : b.toRat ≠ 0) {digits : ℕ}
    (fits : DivisionFits a b digits) :
    ∃ quotient, divide a b digits = .ok quotient ∧ divideInWords a b digits = .ok quotient ∧
      scaleFits quotient.scale = true ∧
      (a.toRat ≠ 0 →
        |quotient.toRat * b.toRat - a.toRat| < 10 ^ (1 - digits : ℤ) * |a.toRat|) ∧
      (a.toRat = 0 → quotient.toRat = 0) ∧
      (WrittenWith digits (a.toRat / b.toRat) → quotient.toRat = a.toRat / b.toRat) := by
  rw [divideInWords_eq fits.counts]
  by_cases dividend : a.toRat = 0
  · have divided : divide a b digits = .ok zero := by
      rw [divide, quotient_zero dividend divisor]
      rfl
    refine ⟨zero, divided, divided, rfl, fun something => absurd dividend something,
      fun _ => toRat_zero, fun _ => ?_⟩
    rw [dividend, zero_div, toRat_zero]
  · have divided := divide_eq_wrapped dividend divisor digits
    have kept : scaleFits ((longQuotient a b digits).withDigits digits).scale = true := by
      rw [scale_longQuotient dividend divisor]
      exact fits.scale
    rw [wrapped_of_fits kept] at divided
    obtain ⟨close, exact⟩ := Cut.withDigits.longQuotient_accurate dividend divisor digits
    refine ⟨_, divided, divided, kept, fun _ => ?_, fun nothing => absurd nothing dividend, exact⟩
    set q := a.toRat / b.toRat with q_eq
    set rounded := ((longQuotient a b digits).withDigits digits).toRat
    have product : a.toRat = q * b.toRat := (div_mul_cancel₀ _ divisor).symm
    calc |rounded * b.toRat - a.toRat| = |rounded - q| * |b.toRat| := by
          rw [← abs_mul, sub_mul, ← product]
      _ < |q| * 10 ^ (1 - digits : ℤ) * |b.toRat| :=
          mul_lt_mul_of_pos_right close (abs_pos.mpr divisor)
      _ = 10 ^ (1 - digits : ℤ) * |a.toRat| := by
          rw [product, abs_mul]
          ring

/-- Minus two thirds are cut to two digits; an eighth has three of them. -/
theorem divide_accurate_thirds :
    DivisionFits ⟨-20, 1⟩ ⟨3, 0⟩ 2 ∧ divide ⟨-20, 1⟩ ⟨3, 0⟩ 2 = .ok ⟨-66, 2⟩ ∧
    |toRat ⟨-66, 2⟩ * toRat ⟨3, 0⟩ - toRat ⟨-20, 1⟩| < 10 ^ (-1 : ℤ) * |toRat ⟨-20, 1⟩| ∧
    ∃ eighth, divide one ⟨80, 1⟩ 3 = .ok eighth ∧ eighth.toRat = 1 / 8 := by
  have divided : divide ⟨-20, 1⟩ ⟨3, 0⟩ 2 = .ok ⟨-66, 2⟩ := rfl
  have thirds : DivisionFits ⟨-20, 1⟩ ⟨3, 0⟩ 2 := by
    refine ⟨by decide, ?_⟩
    rw [← scale_longQuotient (by simp) (by simp)]
    decide
  have eighths : DivisionFits one ⟨80, 1⟩ 3 := by
    refine ⟨by decide, ?_⟩
    rw [← scale_longQuotient (by simp) (by simp)]
    decide
  obtain ⟨quotient, same, -, -, close, -⟩ := divide_accurate ⟨-20, 1⟩ (b := ⟨3, 0⟩) (by simp) thirds
  obtain ⟨eighth, divided', -, -, -, -, kept⟩ := divide_accurate one (b := ⟨80, 1⟩) (by simp) eighths
  rw [divided] at same
  cases same
  have value : one.toRat / toRat ⟨80, 1⟩ = 1 / 8 := by norm_num
  rw [value] at kept
  exact ⟨thirds, divided, close (by simp), eighth, divided', kept ⟨125, -3, by decide, by norm_num⟩⟩

theorem mantissa_le_toRat {d : Decimal} (nonneg : 0 ≤ d.mantissa) (whole : d.scale ≤ 0) :
    (d.mantissa : ℚ) ≤ d.toRat :=
  le_mul_of_one_le_right (by exact_mod_cast nonneg) (one_le_zpow₀ (by norm_num) (by omega))

theorem toRat_le_mantissa {d : Decimal} (nonneg : 0 ≤ d.mantissa) (fraction : 0 ≤ d.scale) :
    d.toRat ≤ d.mantissa :=
  mul_le_of_le_one_right (by exact_mod_cast nonneg)
    (zpow_le_one_of_nonpos₀ (by norm_num) (by omega))

/-- A number at the largest scale, divided by one, is small and comes out large. -/
theorem divide_goes_round :
    divide ⟨1, 9223372036854775807⟩ one 5 = .ok ⟨10000, -9223372036854775805⟩ ∧
    ¬ |toRat ⟨10000, -9223372036854775805⟩ * one.toRat - toRat ⟨1, 9223372036854775807⟩| <
      10 ^ (1 - (5 : ℕ) : ℤ) * |toRat ⟨1, 9223372036854775807⟩| := by
  have something : toRat ⟨1, 9223372036854775807⟩ ≠ 0 := mt toRat_eq_zero.mp (by decide)
  have long : longQuotient ⟨1, 9223372036854775807⟩ one 5 = ⟨1000000, 9223372036854775813⟩ := rfl
  have cut : withDigits ⟨1000000, 9223372036854775813⟩ 5 = ⟨10000, 9223372036854775811⟩ := rfl
  have divided : divide ⟨1, 9223372036854775807⟩ one 5 = .ok ⟨10000, -9223372036854775805⟩ := by
    rw [divide_eq_wrapped something (by simp), long, cut]
    rfl
  refine ⟨divided, not_lt.mpr ?_⟩
  have large : (10000 : ℚ) ≤ toRat ⟨10000, -9223372036854775805⟩ := by
    exact_mod_cast mantissa_le_toRat (d := ⟨10000, -9223372036854775805⟩) (by decide) (by decide)
  have small : toRat ⟨1, 9223372036854775807⟩ ≤ 1 := by
    exact_mod_cast toRat_le_mantissa (d := ⟨1, 9223372036854775807⟩) (by decide) (by decide)
  have positive : 0 < toRat ⟨1, 9223372036854775807⟩ := toRat_pos.mpr (by decide)
  have unit : (10 : ℚ) ^ (1 - (5 : ℕ) : ℤ) ≤ 1 := by norm_num
  rw [toRat_one, mul_one, abs_of_pos positive, abs_of_pos (by linarith)]
  calc (10 : ℚ) ^ (1 - (5 : ℕ) : ℤ) * toRat ⟨1, 9223372036854775807⟩
      ≤ 1 * toRat ⟨1, 9223372036854775807⟩ := mul_le_mul_of_nonneg_right unit positive.le
    _ ≤ toRat ⟨10000, -9223372036854775805⟩ - toRat ⟨1, 9223372036854775807⟩ := by linarith

end Formulary.Decimal
