import Formulary.Proofs.Decimal.Rounding

namespace Formulary.Decimal

/-! How far a number is from the one it is cut to, for every way of cutting to significant digits
    that goes to the nearest neighbour or towards zero. Nothing is lost of a number that can be
    written with the digits. A quotient is cut twice, and still off by less than a unit in the last
    digit. -/

/-- The integer is a nearest one, or the number without its fraction. -/
def Rounds (n : ℤ) (q : ℚ) : Prop := n = integerPart q ∨ |(n : ℚ) - q| ≤ 1 / 2

/-- A way of cutting to significant digits: a number is moved to one of the neighbours that can be
    written with them. -/
structure Cut (cut : Decimal → ℕ → Decimal) : Prop where
  zero : ∀ {d : Decimal}, d.toRat = 0 → ∀ digits, (cut d digits).toRat = 0
  rounds : ∀ {d : Decimal}, d.toRat ≠ 0 → ∀ digits, ∃ n : ℤ,
    Rounds n (d.toRat * 10 ^ placeOf d.toRat digits) ∧
      (cut d digits).toRat = n * 10 ^ (-placeOf d.toRat digits)

/-- The number can be written with at most `digits` significant digits. -/
def WrittenWith (digits : ℕ) (q : ℚ) : Prop := ∃ n k : ℤ, n.natAbs < 10 ^ digits ∧ q = n * 10 ^ k

theorem abs_integerPart_sub_lt (q : ℚ) : |(integerPart q : ℚ) - q| < 1 := by
  unfold integerPart
  rw [abs_lt]
  split
  · have low := Int.sub_one_lt_floor q
    have high := Int.floor_le q
    constructor <;> linarith
  · have low := Int.le_ceil q
    have high := Int.ceil_lt_add_one q
    constructor <;> linarith

theorem integerPart_integerPart (q : ℚ) {unit : ℕ} (positive : 0 < unit) :
    integerPart (integerPart q / unit) = integerPart (q / unit) := by
  have unit_pos : (0 : ℚ) < unit := by exact_mod_cast positive
  have nonnegative : ∀ {q : ℚ}, 0 ≤ q → integerPart (integerPart q / unit) = integerPart (q / unit) := by
    intro q nonneg
    have floor_nonneg : (0 : ℚ) ≤ ⌊q⌋ := by exact_mod_cast Int.floor_nonneg.mpr nonneg
    simp only [integerPart, if_pos nonneg, if_pos (div_nonneg nonneg unit_pos.le),
      if_pos (div_nonneg floor_nonneg unit_pos.le), Int.floor_div_natCast, Int.floor_intCast]
  rcases le_total 0 q with nonneg | nonpos
  · exact nonnegative nonneg
  · have opposite := nonnegative (neg_nonneg.mpr nonpos)
    rw [integerPart_neg, Int.cast_neg, neg_div, integerPart_neg, neg_div, integerPart_neg] at opposite
    exact neg_injective opposite

namespace Rounds

theorem settle (q : ℚ) : Rounds (settle q) q := by
  unfold Rounds Decimal.settle integerPart
  split
  · right
    have low := Int.sub_one_lt_floor (q + 1 / 2)
    have high := Int.floor_le (q + 1 / 2)
    rw [abs_le]
    constructor <;> linarith
  · exact .inl rfl

variable {m n : ℤ} {q : ℚ}

theorem eq_intCast (rounds : Rounds m n) : m = n := by
  rcases rounds with same | near
  · rwa [integerPart_intCast] at same
  · have apart : |m - n| < 1 := by
      have less : |(m : ℚ) - n| < 1 := by linarith
      exact_mod_cast less
    exact sub_eq_zero.mp (Int.abs_lt_one_iff.mp apart)

theorem abs_sub_lt (rounds : Rounds n q) : |(n : ℚ) - q| < 1 := by
  rcases rounds with rfl | near
  · exact abs_integerPart_sub_lt q
  · linarith

/-- Cutting off the fraction first does not move a number by a whole when more digits are lost. -/
theorem abs_sub_lt_of_integerPart {places : ℕ} (lost : 0 < places)
    (rounds : Rounds n (integerPart q / (10 ^ places : ℕ))) : |(n : ℚ) - q / (10 ^ places : ℕ)| < 1 := by
  rcases rounds with same | near
  · rw [integerPart_integerPart q (by positivity)] at same
    rw [same]
    exact abs_integerPart_sub_lt _
  · have unit : (10 : ℚ) ≤ (10 ^ places : ℕ) := by
      exact_mod_cast Nat.le_self_pow lost.ne' 10
    have fraction : |(integerPart q : ℚ) / (10 ^ places : ℕ) - q / (10 ^ places : ℕ)| ≤ 1 / 10 := by
      have unit_pos : (0 : ℚ) < (10 ^ places : ℕ) := by linarith
      rw [← sub_div, abs_div, abs_of_pos unit_pos, div_le_div_iff₀ unit_pos (by norm_num)]
      linarith [abs_integerPart_sub_lt q]
    linarith [abs_sub_le (n : ℚ) (integerPart q / (10 ^ places : ℕ)) (q / (10 ^ places : ℕ))]

end Rounds

/-! Numbers at the place of their last digit. -/

section

variable {q : ℚ} {digits : ℕ}

theorem mul_ten_zpow_cancel (q : ℚ) (place : ℤ) : q * 10 ^ place * 10 ^ (-place) = q := by
  rw [mul_assoc, ← ten_zpow_add, add_neg_cancel, zpow_zero, mul_one]

/-- One unit in the last digit. -/
theorem ten_zpow_neg_placeOf_le (something : q ≠ 0) (digits : ℕ) :
    (10 : ℚ) ^ (-placeOf q digits) ≤ |q| * 10 ^ (1 - digits : ℤ) := by
  have leading : (10 : ℚ) ^ Int.log 10 |q| ≤ |q| := by
    exact_mod_cast Int.zpow_log_le_self (by decide : 1 < 10) (abs_pos.mpr something)
  calc (10 : ℚ) ^ (-placeOf q digits) = 10 ^ Int.log 10 |q| * 10 ^ (1 - digits : ℤ) := by
        rw [← ten_zpow_add, placeOf]
        congr 1
        ring
    _ ≤ |q| * 10 ^ (1 - digits : ℤ) := mul_le_mul_of_nonneg_right leading (ten_zpow_pos _).le

theorem abs_sub_lt_of_placeOf {n : ℤ} (something : q ≠ 0)
    (close : |(n : ℚ) - q * 10 ^ placeOf q digits| < 1) :
    |(n : ℚ) * 10 ^ (-placeOf q digits) - q| < |q| * 10 ^ (1 - digits : ℤ) := by
  have unit_pos := ten_zpow_pos (-placeOf q digits)
  calc |(n : ℚ) * 10 ^ (-placeOf q digits) - q|
      = |(n : ℚ) - q * 10 ^ placeOf q digits| * 10 ^ (-placeOf q digits) := by
        rw [← abs_of_pos unit_pos, ← abs_mul, abs_of_pos unit_pos, sub_mul, mul_ten_zpow_cancel]
    _ < 10 ^ (-placeOf q digits) := mul_lt_of_lt_one_left unit_pos close
    _ ≤ |q| * 10 ^ (1 - digits : ℤ) := ten_zpow_neg_placeOf_le something digits

/-- A number that can be written with the digits is whole at the place of the last of them. -/
theorem WrittenWith.exists_int (written : WrittenWith digits q) (something : q ≠ 0) :
    ∃ m : ℤ, q * 10 ^ placeOf q digits = m := by
  obtain ⟨n, k, room, rfl⟩ := written
  have nonzero : n.natAbs ≠ 0 := by
    intro zero
    rw [Int.natAbs_eq_zero.mp zero, Int.cast_zero, zero_mul] at something
    exact something rfl
  have log : Int.log 10 |(n : ℚ) * 10 ^ k| = Nat.log 10 n.natAbs + k := by
    have magnitude : |(n : ℚ)| = n.natAbs := by rw [Nat.cast_natAbs, Int.cast_abs]
    have positive : (0 : ℚ) < n.natAbs := by exact_mod_cast Nat.pos_of_ne_zero nonzero
    rw [abs_mul, abs_of_pos (ten_zpow_pos k), magnitude, log_mul_ten_zpow positive, Int.log_natCast]
  have counted : Nat.log 10 n.natAbs + 1 ≤ digits := Nat.log_lt_of_lt_pow nonzero room
  have place : k + placeOf (n * 10 ^ k) digits = (digits - (Nat.log 10 n.natAbs + 1) : ℕ) := by
    rw [placeOf, log]
    omega
  refine ⟨n * (10 ^ (digits - (Nat.log 10 n.natAbs + 1)) : ℕ), ?_⟩
  rw [mul_assoc, ← ten_zpow_add, place, zpow_natCast]
  push_cast
  ring

end

theorem Cut.withDigits : Cut withDigits where
  zero := toRat_withDigits_zero
  rounds := by
    intro d something digits
    refine ⟨_, Rounds.settle _, ?_⟩
    rw [withDigits_eq something, roundTo, toRat_mk]

namespace Cut

variable {cut : Decimal → ℕ → Decimal} {d a b : Decimal} {digits : ℕ} (cuts : Cut cut)

include cuts

theorem toRat_of_written (written : WrittenWith digits d.toRat) : (cut d digits).toRat = d.toRat := by
  by_cases nothing : d.toRat = 0
  · rw [cuts.zero nothing, nothing]
  · obtain ⟨n, rounds, value⟩ := cuts.rounds nothing digits
    obtain ⟨m, whole⟩ := written.exists_int nothing
    rw [whole] at rounds
    rw [value, rounds.eq_intCast, ← whole, mul_ten_zpow_cancel]

theorem abs_sub_le (d : Decimal) (digits : ℕ) :
    |(cut d digits).toRat - d.toRat| ≤ |d.toRat| * 10 ^ (1 - digits : ℤ) := by
  by_cases nothing : d.toRat = 0
  · rw [cuts.zero nothing, nothing]
    simp
  · obtain ⟨n, rounds, value⟩ := cuts.rounds nothing digits
    rw [value]
    exact (abs_sub_lt_of_placeOf nothing rounds.abs_sub_lt).le

/-- A quotient that is cut once more is less than a unit off, and not at all when the ratio can be
    written with the digits. -/
theorem longQuotient_accurate (dividend : a.toRat ≠ 0) (divisor : b.toRat ≠ 0) (digits : ℕ) :
    |(cut (longQuotient a b digits) digits).toRat - a.toRat / b.toRat| <
        |a.toRat / b.toRat| * 10 ^ (1 - digits : ℤ) ∧
      (WrittenWith digits (a.toRat / b.toRat) →
        (cut (longQuotient a b digits) digits).toRat = a.toRat / b.toRat) := by
  have something := div_ne_zero dividend divisor
  obtain ⟨q, large, ratio, mantissa⟩ := longQuotient_eq dividend divisor digits
  set long := longQuotient a b digits with long_eq
  have value : long.toRat = integerPart q * 10 ^ (-long.scale) := by rw [toRat, mantissa]
  have nonzero : long.toRat ≠ 0 := by
    rw [value]
    exact mul_ne_zero (integerPart_ne_zero large) (ten_zpow_ne_zero _)
  obtain ⟨same, lost, behind⟩ := placeOf_integerPart large
  -- The ratio and the quotient that is carried have their last digits at the same place, some
  -- digits before the one at which the quotient ends.
  have place : placeOf (a.toRat / b.toRat) digits = long.scale + -(lost + 1 : ℕ) := by
    rw [ratio, placeOf_mul_ten_zpow (ne_zero_of_ten_pow_le large), behind]
  have carried : placeOf long.toRat digits = placeOf (a.toRat / b.toRat) digits := by
    rw [value, placeOf_mul_ten_zpow (integerPart_ne_zero large), same, place, behind]
  have moved : ∀ x : ℚ, x * 10 ^ (-long.scale) * 10 ^ placeOf (a.toRat / b.toRat) digits =
      x / (10 ^ (lost + 1) : ℕ) := by
    intro x
    rw [place, mul_assoc, ← ten_zpow_add, neg_add_cancel_left, mul_ten_zpow_neg]
  obtain ⟨n, rounds, result⟩ := cuts.rounds nonzero digits
  rw [carried, value, moved] at rounds
  have exact : a.toRat / b.toRat * 10 ^ placeOf (a.toRat / b.toRat) digits =
      q / (10 ^ (lost + 1) : ℕ) := by
    nth_rewrite 1 [ratio]
    exact moved q
  rw [result, carried]
  constructor
  · refine abs_sub_lt_of_placeOf something ?_
    rw [exact]
    exact rounds.abs_sub_lt_of_integerPart (by omega)
  · intro written
    obtain ⟨m, whole⟩ := written.exists_int something
    have unit : ((10 ^ (lost + 1) : ℕ) : ℚ) ≠ 0 := by positivity
    have kept : q = ((m * (10 ^ (lost + 1) : ℕ) : ℤ) : ℚ) := by
      rw [(div_eq_iff unit).mp (exact.symm.trans whole), Int.cast_mul, Int.cast_natCast]
    rw [kept, integerPart_intCast, ← kept, ← exact, whole] at rounds
    rw [rounds.eq_intCast, ← whole, mul_ten_zpow_cancel]

end Cut

theorem abs_quotient_sub_le {a b ratio : Decimal} {digits : ℕ}
    (divided : quotient a b digits = .ok ratio) :
    |ratio.toRat - a.toRat / b.toRat| ≤ |a.toRat / b.toRat| * 10 ^ (1 - digits : ℤ) := by
  by_cases divisor : b.toRat = 0
  · rw [quotient_by_zero divisor] at divided
    cases divided
  by_cases dividend : a.toRat = 0
  · rw [quotient_zero dividend divisor] at divided
    cases divided
    simp [dividend]
  · rw [quotient_eq dividend divisor] at divided
    cases divided
    exact (Cut.withDigits.longQuotient_accurate dividend divisor digits).1.le

end Formulary.Decimal
