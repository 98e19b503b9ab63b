import Mathlib.Algebra.Order.Ring.Int
import Formulary.Proofs.Calculator.Congruence
import Formulary.Proofs.Calculator.Logarithm

namespace Formulary.Calculator

/-! Exact powers. Repeated squaring is exact as long as the power has room among the digits, since
    no factor on the way has more of them than the power. -/

theorem natAbs_mul_pow_mono (r : ℤ) {s : ℤ} (s_ne : s ≠ 0) {i j : ℕ} (order : i ≤ j) :
    (r * s ^ i).natAbs ≤ (r * s ^ j).natAbs := by
  rw [Int.natAbs_mul, Int.natAbs_mul, Int.natAbs_pow, Int.natAbs_pow]
  exact Nat.mul_le_mul_left _ (Nat.pow_le_pow_right (Int.natAbs_pos.mpr s_ne) order)

/-- One step of repeated squaring: the lowest binary digit of the exponent is multiplied in, and the
    others count squares. -/
theorem mul_pow_digits {M : Type*} [Monoid M] (r s : M) (n : ℕ) :
    r * s ^ (n % 2) * (s * s) ^ (n / 2) = r * s ^ n := by
  rw [mul_assoc, ← pow_two, ← pow_mul, ← pow_add, Nat.mod_add_div]

theorem toRat_powerLoop {cut : Decimal → Decimal} {working : ℕ}
    (keeps : ∀ {d : Decimal}, Decimal.WrittenWith working d.toRat → (cut d).toRat = d.toRat)
    {fuel exponent : ℕ} {result square : Decimal} {r s i j : ℤ}
    (result_eq : result.toRat = r * 10 ^ i) (square_eq : square.toRat = s * 10 ^ j) (r_ne : r ≠ 0)
    (s_ne : s ≠ 0) (enough : exponent < 2 ^ fuel) (fits : (r * s ^ exponent).natAbs < 10 ^ working) :
    (powerLoop cut fuel result square exponent).toRat = result.toRat * square.toRat ^ exponent := by
  induction fuel generalizing exponent result square r s i j with
  | zero =>
    obtain rfl : exponent = 0 := by simpa using enough
    rw [powerLoop, pow_zero, mul_one]
  | succ fuel ih =>
    rw [powerLoop]
    split
    · rename_i finished
      rw [beq_iff_eq.mp finished, pow_zero, mul_one]
    rename_i unfinished
    have positive : 1 ≤ exponent := by
      rw [beq_iff_eq] at unfinished
      omega
    -- What is multiplied in now is the lowest binary digit of the exponent.
    have low : (if exponent % 2 == 1 then cut (result.mul square) else result).toRat =
        result.toRat * square.toRat ^ (exponent % 2) := by
      rcases Nat.mod_two_eq_zero_or_one exponent with even | odd
      · simp [even]
      · have room := (natAbs_mul_pow_mono r s_ne positive).trans_lt fits
        have product : (result.mul square).toRat = ((r * s ^ 1 : ℤ) : ℚ) * 10 ^ (i + j) := by
          rw [Decimal.toRat_mul, result_eq, square_eq, Decimal.ten_zpow_add]
          push_cast
          ring
        have kept := keeps ⟨_, _, room, product⟩
        simpa [odd] using kept
    have low_eq : result.toRat * square.toRat ^ (exponent % 2) =
        ((r * s ^ (exponent % 2) : ℤ) : ℚ) * 10 ^ (i + j * (exponent % 2 : ℕ)) := by
      rw [result_eq, square_eq, mul_pow, Decimal.ten_zpow_add, zpow_mul, zpow_natCast]
      push_cast
      ring
    have low_ne : r * s ^ (exponent % 2) ≠ 0 := mul_ne_zero r_ne (pow_ne_zero _ s_ne)
    by_cases last : exponent / 2 = 0
    · obtain rfl : exponent = 1 := by omega
      have below : 0 < 2 ^ fuel := by positivity
      have done := ih (low.trans low_eq) square_eq low_ne s_ne below
        (by rw [pow_zero, mul_one]; exact fits)
      rw [low] at done
      simpa using done
    · have square_sq : (square.mul square).toRat = ((s * s : ℤ) : ℚ) * 10 ^ (j + j) := by
        rw [Decimal.toRat_mul, square_eq, Decimal.ten_zpow_add]
        push_cast
        ring
      have room : (s * s).natAbs < 10 ^ working := by
        have grown := natAbs_mul_pow_mono r s_ne (by omega : 2 ≤ exponent)
        have factor : (s * s).natAbs ≤ (r * s ^ 2).natAbs := by
          rw [Int.natAbs_mul r, pow_two]
          exact Nat.le_mul_of_pos_left _ (Int.natAbs_pos.mpr r_ne)
        omega
      have squared := keeps ⟨_, _, room, square_sq⟩
      have below : exponent / 2 < 2 ^ fuel := by
        rw [pow_succ] at enough
        omega
      have done := ih (low.trans low_eq) (squared.trans square_sq) low_ne (mul_ne_zero s_ne s_ne)
        below (by rw [mul_pow_digits]; exact fits)
      rw [low, squared, Decimal.toRat_mul, mul_pow_digits] at done
      simpa [last] using done

/-- Repeated squaring, with a way of cutting. -/
def integerPowerBy (cut : Decimal → ℕ → Decimal) (base : Decimal) (exponent working : ℕ) : Decimal :=
  powerLoop (cut · working) (exponent.log2 + 1) .one base exponent

theorem toRat_integerPowerBy {cut : Decimal → ℕ → Decimal} (cuts : Decimal.Cut cut) {base : Decimal}
    {m k : ℤ} {n working : ℕ} (base_eq : base.toRat = m * 10 ^ k) (m_ne : m ≠ 0)
    (fits : (m ^ n).natAbs < 10 ^ working) :
    (integerPowerBy cut base n working).toRat = base.toRat ^ n := by
  have one : Decimal.one.toRat = ((1 : ℤ) : ℚ) * 10 ^ (0 : ℤ) := by simp
  have loop := toRat_powerLoop cuts.toRat_of_written one base_eq one_ne_zero m_ne Nat.lt_log2_self
    (by rwa [one_mul])
  rwa [Decimal.toRat_one, one_mul] at loop

theorem toRat_powInteger (calculator : Calculator) {base result : Decimal} {m : ℤ} {n : ℕ}
    (base_eq : base.toRat = m) (fits : (m ^ n).natAbs < 10 ^ calculator.digits)
    (done : calculator.powInteger base n = .ok result) : result.toRat = ((m ^ n : ℤ) : ℚ) := by
  unfold powInteger at done
  split at done
  · rename_i none_
    cases done
    obtain rfl : n = 0 := by simpa using none_
    simp
  rename_i some_
  have n_ne : n ≠ 0 := by simpa using some_
  dsimp only at done
  split at done
  · rename_i nothing
    cases done
    obtain rfl : m = 0 := by
      rw [Decimal.isZero_iff, base_eq] at nothing
      exact_mod_cast nothing
    simp [n_ne]
  · rename_i something
    have m_ne : m ≠ 0 := by
      rintro rfl
      exact something (Decimal.isZero_iff.mpr (by simpa using base_eq))
    have wider : (m ^ n).natAbs < 10 ^ (calculator.digits + guardDigits) :=
      fits.trans_le (Nat.pow_le_pow_right (by decide) (by omega))
    have power : (integerPower base n (calculator.digits + guardDigits)).toRat = ((m ^ n : ℤ) : ℚ) := by
      have exact := toRat_integerPowerBy .withDigits
        (by simpa using base_eq : base.toRat = m * 10 ^ (0 : ℤ)) m_ne wider
      rwa [base_eq, ← Int.cast_pow] at exact
    rw [if_neg (by omega), Int.natAbs_natCast] at done
    rw [← Except.ok.inj done,
      Decimal.Cut.withDigits.toRat_of_written ⟨m ^ n, 0, fits, by simpa using power⟩, power]

/-- The machine's logarithm of an integer from two on is not negative. It is the start of an
    iteration; powers with an integer exponent reach it only when there are more digits than
    repeated squaring takes exponents. -/
def EstimatesLogarithm (calculator : Calculator) : Prop :=
  maxIntegerExponent < calculator.digits →
    ∀ n : ℕ, 2 ≤ n → ∀ y, lnEstimate (.ofNat n) = .ok y → y.isNegative = false

theorem toRat_powReal (calculator : Calculator) (estimates : calculator.EstimatesLogarithm)
    {base exponent result : Decimal} {m : ℤ} {n : ℕ} (base_eq : base.toRat = m)
    (exponent_eq : exponent.toRat = n) (large : maxIntegerExponent < n)
    (precise : maxIntegerExponent < calculator.digits)
    (done : calculator.powReal base exponent = .ok result) :
    result.toRat = ((m ^ n : ℤ) : ℚ) := by
  rcases lt_trichotomy m 1 with below | rfl | above
  · -- Zero stays zero, and there is no power of a negative number.
    unfold powReal at done
    split at done
    · rename_i nothing
      have m_eq : m = 0 := by
        rw [Decimal.isZero_iff, base_eq] at nothing
        exact_mod_cast nothing
      split at done
      · cases done
      · cases done
        simp [m_eq, Nat.ne_of_gt (Nat.zero_lt_of_lt large)]
    · rename_i something
      have negative : base.isNegative = true := by
        rw [Decimal.isNegative_iff]
        rw [Decimal.isZero_iff, base_eq] at something
        have other : m ≠ 0 := by exact_mod_cast something
        rw [base_eq]
        exact_mod_cast (by omega : m < 0)
      simp only [if_pos negative] at done
      cases done
  · -- The logarithm of one is zero.
    have one : base.toRat = 1 := by rw [base_eq, Int.cast_one]
    have something : ¬ base.isZero = true := by
      rw [Decimal.isZero_iff, one]
      exact one_ne_zero
    have sign : ¬ base.isNegative = true := by
      rw [Decimal.isNegative_iff, one]
      norm_num
    have logarithm : lnTo base (calculator.digits + guardDigits) = .ok .zero := by
      have positive : base.isPositive = true := Decimal.isPositive_iff.mpr (by rw [one]; norm_num)
      unfold lnTo
      simp [positive, Decimal.isOne_iff.mpr one, pure, Except.pure]
    have product : ((exponent.mul .zero).withDigits (calculator.digits + guardDigits)).isZero = true := by
      rw [Decimal.isZero_iff]
      exact Decimal.toRat_withDigits_zero (by simp) _
    unfold powReal at done
    simp only [if_neg something, if_neg sign, logarithm] at done
    have raised : expTo ((exponent.mul .zero).withDigits (calculator.digits + guardDigits))
        calculator.digits = .ok result := done
    rw [expTo, if_pos product] at raised
    cases raised
    simp
  · have base_ge : 2 ≤ base.toRat := by
      rw [base_eq]
      exact_mod_cast above
    have exceeds : (maxIntegerExponent : ℚ) < exponent.toRat := by
      rw [exponent_eq]
      exact_mod_cast large
    refine absurd done (calculator.powReal_overflows ?_ base_ge (fun y estimate => ?_) exceeds)
    · unfold maxIntegerExponent at precise
      omega
    · have same : Decimal.Same base (.ofNat m.toNat) := by
        rw [Decimal.Same, base_eq, Decimal.toRat_ofNat]
        exact_mod_cast (Int.toNat_of_nonneg (by omega : 0 ≤ m)).symm
      obtain ⟨y', estimate', rfl⟩ := (lnEstimate_congr same).of_ok estimate
      have sign := estimates precise m.toNat (by omega) y estimate'
      rw [← not_lt, ← Decimal.isNegative_iff, sign]
      exact Bool.false_ne_true

theorem toRat_pow (calculator : Calculator) (estimates : calculator.EstimatesLogarithm)
    {base exponent result : Decimal} {m : ℤ} {n : ℕ} (base_eq : base.toRat = m)
    (exponent_eq : exponent.toRat = n) (room : Digits.length m.natAbs * n ≤ calculator.digits)
    (done : calculator.pow base exponent = .ok result) : result.toRat = ((m ^ n : ℤ) : ℚ) := by
  have exponent_int : exponent.toInt = n := by
    rw [Decimal.toInt_eq, exponent_eq]
    exact_mod_cast Decimal.integerPart_intCast n
  have fits : (m ^ n).natAbs < 10 ^ calculator.digits := by
    rcases Nat.eq_zero_or_pos n with rfl | positive
    · simpa using Nat.one_lt_pow calculator.digits_pos.ne' (by decide : 1 < 10)
    rw [Int.natAbs_pow]
    calc m.natAbs ^ n < (10 ^ Digits.length m.natAbs) ^ n :=
          Nat.pow_lt_pow_left (Digits.lt_pow_length _) positive.ne'
      _ = 10 ^ (Digits.length m.natAbs * n) := (pow_mul 10 _ n).symm
      _ ≤ 10 ^ calculator.digits := Nat.pow_le_pow_right (by decide) room
  have integral : exponent.isIntegral = true := Decimal.isIntegral_iff.mpr ⟨n, exponent_eq⟩
  have other : (exponent == Decimal.ofInt leastWord) = false := by
    rw [← Bool.not_eq_true, Decimal.beq_iff, exponent_eq, Decimal.toRat_ofInt, leastWord]
    have nonneg : (0 : ℚ) ≤ n := n.cast_nonneg
    intro same
    rw [same] at nonneg
    norm_num at nonneg
  unfold pow integerExponent? at done
  cases large : (Decimal.ofNat maxIntegerExponent).less exponent.abs with
  | false =>
    simp only [integral, large, Bool.not_false, Bool.and_self, if_true, exponent_int] at done
    exact calculator.toRat_powInteger base_eq fits done
  | true =>
    simp only [integral, large, other, Bool.not_true, Bool.and_false, Bool.false_eq_true, if_false]
      at done
    have exceeded : maxIntegerExponent < n := by
      rw [Decimal.less_iff, Decimal.toRat_ofNat, Decimal.toRat_abs, exponent_eq,
        abs_of_nonneg n.cast_nonneg] at large
      exact_mod_cast large
    have precise : maxIntegerExponent < calculator.digits := by
      have counted : 1 ≤ Digits.length m.natAbs := by
        rw [Digits.length_eq]
        omega
      calc maxIntegerExponent < n := exceeded
        _ ≤ Digits.length m.natAbs * n := Nat.le_mul_of_pos_left n counted
        _ ≤ calculator.digits := room
    exact calculator.toRat_powReal estimates base_eq exponent_eq exceeded precise done

end Formulary.Calculator
