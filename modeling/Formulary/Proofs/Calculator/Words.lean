import Formulary.Proofs.Calculator.Accuracy
import Formulary.Proofs.Decimal.Division

namespace Formulary.Calculator

/-! Powers whose scales are kept in words of 64 bits. Every scale on the way to a power may go round;
    the power has the promised precision as long as its own scale fits. -/

open Decimal (placeOf scaleFits)

/-- The numbers are the same but for scales that have gone round. -/
def Turned (d d' : Decimal) : Prop := ∃ turns : ℤ, d'.toRat = d.toRat * 10 ^ (turns * 2 ^ 64)

theorem roundTo_turned {q : ℚ} (something : q ≠ 0) (turns : ℤ) (digits : ℕ) :
    Decimal.roundTo (q * 10 ^ (turns * 2 ^ 64)) digits =
      ⟨(Decimal.roundTo q digits).mantissa,
        (Decimal.roundTo q digits).scale - turns * (2 ^ 64 : ℕ)⟩ := by
  have moved := Decimal.roundTo_mul_ten_zpow something (-(turns * 2 ^ 64)) digits
  rw [neg_neg] at moved
  rw [moved, sub_eq_neg_add]
  norm_num

theorem toRat_roundTo_turned {q : ℚ} (something : q ≠ 0) (turns : ℤ) (digits : ℕ) :
    (Decimal.roundTo (q * 10 ^ (turns * 2 ^ 64)) digits).toRat =
      (Decimal.roundTo q digits).toRat * 10 ^ (turns * 2 ^ 64) := by
  rw [roundTo_turned something, Decimal.toRat_mk, neg_sub, sub_eq_add_neg, Decimal.ten_zpow_add,
    Decimal.toRat]
  push_cast
  ring

namespace Turned

variable {a a' b b' d d' : Decimal}

theorem refl (d : Decimal) : Turned d d := ⟨0, by simp⟩

theorem trans {d'' : Decimal} (first : Turned d d') (second : Turned d' d'') : Turned d d'' := by
  obtain ⟨k, same⟩ := first
  obtain ⟨l, same'⟩ := second
  exact ⟨k + l, by rw [same', same, add_mul, Decimal.ten_zpow_add, mul_assoc]⟩

theorem mul (left : Turned a a') (right : Turned b b') : Turned (a.mul b) (a'.mul b') := by
  obtain ⟨k, left⟩ := left
  obtain ⟨l, right⟩ := right
  refine ⟨k + l, ?_⟩
  rw [Decimal.toRat_mul, Decimal.toRat_mul, left, right, add_mul, Decimal.ten_zpow_add]
  ring

theorem wrapped (d : Decimal) : Turned d d.wrapped := by
  refine ⟨d.scale.bdiv (2 ^ 64), ?_⟩
  have scale : -d.wrapped.scale = -d.scale + d.scale.bdiv (2 ^ 64) * 2 ^ 64 := by
    rw [Decimal.wrapped, Int.bmod_eq_self_sub_mul_bdiv]
    push_cast
    ring
  rw [Decimal.toRat, scale, Decimal.ten_zpow_add, ← mul_assoc]
  rfl

theorem toRat_ne_zero (turned : Turned d d') (something : d.toRat ≠ 0) : d'.toRat ≠ 0 := by
  obtain ⟨turns, same⟩ := turned
  rw [same]
  exact mul_ne_zero something (Decimal.ten_zpow_ne_zero _)

theorem withDigits (turned : Turned d d') (digits : ℕ) :
    Turned (d.withDigits digits) (d'.withDigits digits) := by
  by_cases nothing : d.toRat = 0
  · obtain ⟨turns, same⟩ := turned
    rw [nothing, zero_mul] at same
    refine ⟨0, ?_⟩
    rw [Decimal.toRat_withDigits_zero same, Decimal.toRat_withDigits_zero nothing, zero_mul]
  · have something := turned.toRat_ne_zero nothing
    obtain ⟨turns, same⟩ := turned
    refine ⟨turns, ?_⟩
    rw [Decimal.withDigits_eq something, Decimal.withDigits_eq nothing, same,
      toRat_roundTo_turned nothing]

/-- Cut to the same digits and with a scale in a word, they are one. -/
theorem wrapped_withDigits (turned : Turned d d') (something : d.toRat ≠ 0) (digits : ℕ) :
    (d'.withDigits digits).wrapped = (d.withDigits digits).wrapped := by
  have other := turned.toRat_ne_zero something
  obtain ⟨turns, same⟩ := turned
  rw [Decimal.withDigits_eq other, Decimal.withDigits_eq something, same, roundTo_turned something,
    Decimal.wrapped, Int.sub_mul_bmod_self_right]
  rfl

theorem longQuotient (turned : Turned d d') (dividend : a.toRat ≠ 0) (something : d.toRat ≠ 0)
    (digits : ℕ) :
    Turned ((a.longQuotient d digits).withDigits digits)
      ((a.longQuotient d' digits).withDigits digits) := by
  have other := turned.toRat_ne_zero something
  obtain ⟨turns, same⟩ := turned
  have ratio : a.toRat / d'.toRat = a.toRat / d.toRat * 10 ^ (-turns * 2 ^ 64) := by
    rw [same, div_mul_eq_div_div, neg_mul, zpow_neg, div_eq_mul_inv (a.toRat / d.toRat)]
  refine ⟨-turns, ?_⟩
  rw [Decimal.withDigits_longQuotient dividend other,
    Decimal.withDigits_longQuotient dividend something, ratio,
    toRat_roundTo_turned (div_ne_zero dividend something)]

end Turned

/-- A power with an integer exponent with all scales in words. -/
def powerInWords (digits : ℕ) (x : Decimal) (n : ℤ) : Except Fault Decimal :=
  let working := digits + guardDigits
  let magnitude := integerPowerBy (fun d k => (d.withDigits k).wrapped) x n.natAbs working
  let carried := if n < 0 then Decimal.divideInWords .one magnitude working else .ok magnitude
  carried.map fun power => (power.withDigits digits).wrapped

/-- A cut leaves at most one digit more than is asked for, where it rounds up to a power of ten. -/
theorem digitCount_withDigits_le (d : Decimal) (digits : ℕ) :
    (d.withDigits digits).digitCount ≤ digits + 1 := by
  have size := Digits.lt_pow_length d.mantissa.natAbs
  have bounded : (d.withDigits digits).mantissa.natAbs ≤ 10 ^ digits := by
    unfold Decimal.withDigits
    dsimp only
    split
    · rename_i surplus
      have split : 10 ^ d.digitCount = 10 ^ (d.digitCount - digits) * 10 ^ digits := by
        rw [← pow_add, Nat.sub_add_cancel surplus.le]
      have quotient : (d.mantissa.tdiv (10 ^ (d.digitCount - digits) : ℕ)).natAbs < 10 ^ digits := by
        rw [Int.natAbs_tdiv, Int.natAbs_natCast]
        refine Nat.div_lt_of_lt_mul ?_
        rwa [← split]
      dsimp only
      split <;> omega
    · rename_i room
      rw [Int.natAbs_mul, Int.natAbs_natCast]
      calc d.mantissa.natAbs * 10 ^ (digits - d.digitCount)
          ≤ 10 ^ d.digitCount * 10 ^ (digits - d.digitCount) := Nat.mul_le_mul_right _ size.le
        _ = 10 ^ digits := by rw [← pow_add, Nat.add_sub_cancel' (not_lt.mp room)]
  rw [Decimal.digitCount, Digits.length_eq, Nat.add_le_add_iff_right]
  calc Nat.log 10 (d.withDigits digits).mantissa.natAbs ≤ Nat.log 10 (10 ^ digits) :=
        Nat.log_mono_right bounded
    _ = digits := Nat.log_pow (by decide) digits

/-- What holds of one and of everything that is cut holds of a power. -/
theorem powerLoop_induction {motive : Decimal → Prop} {cut : Decimal → Decimal}
    (cuts : ∀ d, motive (cut d)) {result : Decimal} (square : Decimal) (fuel exponent : ℕ)
    (start : motive result) : motive (powerLoop cut fuel result square exponent) := by
  induction fuel generalizing result square exponent with
  | zero => exact start
  | succ fuel ih =>
    unfold powerLoop
    split
    · exact start
    · refine ih _ _ ?_
      split
      · exact cuts _
      · exact start

section

variable {x : Decimal} {n : ℤ} {digits : ℕ}

theorem integerPowerBy_turned (x : Decimal) (n working : ℕ) :
    Turned (integerPowerBy Decimal.withDigits x n working)
      (integerPowerBy (fun d k => (d.withDigits k).wrapped) x n working) :=
  powerLoop_related Turned.mul (fun turned => (turned.withDigits working).trans (.wrapped _)) _ n
    (.refl _) (.refl x)

theorem digitCount_integerPowerBy_le (x : Decimal) (n working : ℕ) :
    (integerPowerBy (fun d k => (d.withDigits k).wrapped) x n working).digitCount ≤ working + 1 := by
  refine powerLoop_induction (motive := fun d => d.digitCount ≤ working + 1) (fun d => ?_) x _ n ?_
  · exact digitCount_withDigits_le d working
  · have one : Decimal.one.digitCount = 1 := by decide
    omega

/-- Words are wide enough for all scales on the way, and the digits can be counted in 32 bits. -/
theorem powerInWords_eq (something : x.toRat ≠ 0) (few : digits + 12 < 2 ^ 31) (n : ℤ) :
    powerInWords digits x n = .ok (powerBy Decimal.withDigits digits x n).wrapped := by
  have below := resolution_working_lt_one digits
  have magnitude_ne : (integerPowerBy Decimal.withDigits x n.natAbs (digits + guardDigits)).toRat ≠ 0 :=
    (integerPowerBy_near .withDigits below x n.natAbs).ne_zero below (pow_ne_zero _ something)
  have carried_ne : (carriedBy Decimal.withDigits (digits + guardDigits) x n).toRat ≠ 0 :=
    (carriedBy_near .withDigits below something n).ne_zero below (zpow_ne_zero n something)
  have turned := integerPowerBy_turned x n.natAbs (digits + guardDigits)
  unfold powerInWords powerBy
  unfold carriedBy at carried_ne ⊢
  dsimp only at carried_ne ⊢
  split
  · rename_i negative
    rw [if_pos negative] at carried_ne
    have counted := digitCount_integerPowerBy_le x n.natAbs (digits + guardDigits)
    set magnitude' := integerPowerBy (fun d k => (d.withDigits k).wrapped) x n.natAbs
      (digits + guardDigits)
    have room : digits + guardDigits + Decimal.one.digitCount + magnitude'.digitCount + 1 < 2 ^ 32 := by
      have one : Decimal.one.digitCount = 1 := by decide
      unfold guardDigits at *
      omega
    have dividend : Decimal.one.toRat ≠ 0 := by simp
    rw [Decimal.divideInWords_eq room,
      Decimal.divide_eq_wrapped dividend (turned.toRat_ne_zero magnitude_ne)]
    refine congrArg Except.ok (Turned.wrapped_withDigits ?_ carried_ne digits)
    exact (turned.longQuotient dividend magnitude_ne _).trans (.wrapped _)
  · rename_i nonneg
    rw [if_neg nonneg] at carried_ne
    exact congrArg Except.ok (turned.wrapped_withDigits carried_ne digits)

/-- A number a little off has its leading digit at most one place off. -/
theorem abs_placeOf_sub_le {q r : ℚ} (something : q ≠ 0) (close : |r - q| ≤ 1 / 10 * |q|)
    (digits : ℕ) : |placeOf r digits - placeOf q digits| ≤ 1 := by
  have q_pos := abs_pos.mpr something
  have low : 9 / 10 * |q| ≤ |r| := by linarith [abs_sub_abs_le_abs_sub q r, abs_sub_comm q r]
  have high : |r| ≤ 11 / 10 * |q| := by linarith [abs_sub_abs_le_abs_sub r q]
  have r_pos : 0 < |r| := by linarith
  have step : ∀ k : ℤ, (10 : ℚ) ^ (k + 1) = 10 * 10 ^ k := by
    intro k
    rw [Decimal.ten_zpow_add, zpow_one, mul_comm]
  have above : Int.log 10 |r| < Int.log 10 |q| + 1 + 1 := by
    have next := Int.lt_zpow_succ_log_self (by decide : 1 < 10) |q|
    rw [← Int.lt_zpow_iff_log_lt (by decide) r_pos]
    rw [Nat.cast_ofNat] at next ⊢
    rw [step]
    linarith
  have below : Int.log 10 |q| - 1 ≤ Int.log 10 |r| := by
    have leading := Int.zpow_log_le_self (by decide : 1 < 10) q_pos
    rw [← Int.zpow_le_iff_le_log (by decide) r_pos]
    have tenth := step (Int.log 10 |q| - 1)
    rw [Nat.cast_ofNat] at leading ⊢
    rw [sub_add_cancel] at tenth
    linarith
  unfold Decimal.placeOf
  rw [abs_le]
  omega

/-- A power with all scales in range is the one without bounds on them. -/
theorem powInteger_eq (calculator : Calculator) (something : x.toRat ≠ 0) (nonzero : n ≠ 0)
    (fits : scaleFits (powerBy Decimal.withDigits calculator.digits x n).scale = true) :
    calculator.powInteger x n = .ok (powerBy Decimal.withDigits calculator.digits x n) := by
  have kept := Decimal.wrapped_of_fits fits
  unfold powerBy carriedBy at kept ⊢
  dsimp only at kept ⊢
  rcases lt_or_gt_of_ne nonzero with negative | positive
  · have below := resolution_working_lt_one calculator.digits
    have magnitude := (integerPowerBy_near .withDigits below x n.natAbs).ne_zero below
      (pow_ne_zero _ something)
    have divided := Decimal.divide_eq_wrapped (by simp : Decimal.one.toRat ≠ 0) magnitude
      (calculator.digits + guardDigits)
    rw [if_pos negative] at kept ⊢
    rw [← kept, ← Decimal.wrapped_withDigits]
    have power : integerPower x n.natAbs (calculator.digits + guardDigits) =
      integerPowerBy Decimal.withDigits x n.natAbs (calculator.digits + guardDigits) := rfl
    simp [powInteger, Decimal.isZero_eq_false something, nonzero, negative, power, divided, pure,
      Except.pure, bind, Except.bind]
  · rw [if_neg (by omega)]
    simp [powInteger, Decimal.isZero_eq_false something, nonzero, not_lt.mpr positive.le, pure,
      Except.pure]
    rfl

end

theorem integerExponent?_eq {y : Decimal} {n : ℤ} (exponent : y.toRat = n)
    (bounded : |n| ≤ maxIntegerExponent) : integerExponent? y = some n := by
  have integral : y.isIntegral = true := Decimal.isIntegral_iff.mpr ⟨n, exponent⟩
  have within : (Decimal.ofNat maxIntegerExponent).less y.abs = false := by
    rw [← Bool.not_eq_true, Decimal.less_iff, Decimal.toRat_ofNat, Decimal.toRat_abs, exponent, not_lt]
    exact_mod_cast bounded
  have whole : y.toInt = n := by rw [Decimal.toInt_eq, exponent, Decimal.integerPart_intCast]
  rw [integerExponent?, integral, within, whole]
  rfl

/-- What a power is computed with: digits that can be counted in 32 bits, also of the quotient for
    a negative exponent, and a scale of 64 bits for the last digit of the power and its neighbours. -/
structure PowerFits (calculator : Calculator) (power : ℚ) : Prop where
  digits : calculator.digits + 12 < 2 ^ 31
  scale : |placeOf power calculator.digits| < 2 ^ 63 - 1

/-- Powers with an integer exponent up to a million, of either sign, have the promised precision:
    they are off by at most two units in the last digit. A power with a positive exponent that can be
    written with the digits of the results is exact. -/
theorem pow_accurate (calculator : Calculator) {x y : Decimal} {n : ℤ} (base : x.toRat ≠ 0)
    (exponent : y.toRat = n) (nonzero : 0 < |n|) (bounded : |n| ≤ 1000000)
    (fits : calculator.PowerFits (x.toRat ^ n)) :
    ∃ power, calculator.pow x y = .ok power ∧ powerInWords calculator.digits x n = .ok power ∧
      scaleFits power.scale = true ∧
      |power.toRat - x.toRat ^ n| ≤
        2 * 10 ^ (1 - calculator.digits : ℤ) * |x.toRat ^ n| ∧
      (0 < n → Decimal.WrittenWith calculator.digits (x.toRat ^ n) →
        power.toRat = x.toRat ^ n) := by
  have nonzero : n ≠ 0 := abs_pos.mp nonzero
  have positive := calculator.digits_pos
  have power_ne : x.toRat ^ n ≠ 0 := zpow_ne_zero n base
  have carried_ne : (carriedBy Decimal.withDigits (calculator.digits + guardDigits) x n).toRat ≠ 0 :=
    (carriedBy_near .withDigits (resolution_working_lt_one _) base n).ne_zero
      (resolution_working_lt_one _) power_ne
  have scale : scaleFits (powerBy Decimal.withDigits calculator.digits x n).scale = true := by
    have close := abs_carriedBy_sub_le .withDigits positive base bounded
    have small := resolution_le_one positive
    have moved := abs_le.mp (abs_placeOf_sub_le power_ne (close.trans
      (mul_le_mul_of_nonneg_right (by linarith) (abs_nonneg _))) calculator.digits)
    have place := abs_lt.mp fits.scale
    rw [powerBy, Decimal.withDigits_eq carried_ne, Decimal.roundTo]
    simp only [scaleFits, Bool.and_eq_true, decide_eq_true_eq]
    omega
  refine ⟨_, ?_, ?_, scale, abs_powerBy_sub_le .withDigits positive base bounded, fun above written =>
    toRat_powerBy_of_written .withDigits base above written⟩
  · rw [pow, integerExponent?_eq exponent bounded]
    exact calculator.powInteger_eq base nonzero scale
  · rw [powerInWords_eq base fits.digits, Decimal.wrapped_of_fits scale]

theorem placeOf_eq {q : ℚ} {k : ℤ} (above : (10 : ℚ) ^ k ≤ |q|) (below : |q| < 10 ^ (k + 1))
    (digits : ℕ) : placeOf q digits = digits - (k + 1) := by
  have positive : 0 < |q| := (Decimal.ten_zpow_pos k).trans_le above
  have low : k ≤ Int.log 10 |q| :=
    (Int.zpow_le_iff_le_log (by decide) positive).mp (by exact_mod_cast above)
  have high : Int.log 10 |q| < k + 1 :=
    (Int.lt_zpow_iff_log_lt (by decide) positive).mp (by exact_mod_cast below)
  rw [Decimal.placeOf, le_antisymm (Int.lt_add_one_iff.mp high) low]

set_option maxRecDepth 4000 in
/-- With three digits, the cube of minus three has an inverse that is cut, and the square of 1.2 is
    exact. -/
theorem pow_accurate_three_digits :
    (ofDigits 3 none).pow ⟨-30, 1⟩ ⟨-30, 1⟩ = .ok ⟨-370, 4⟩ ∧
    |Decimal.toRat ⟨-370, 4⟩ - (-3) ^ (-3 : ℤ)| ≤ 2 * 10 ^ (-2 : ℤ) * |((-3) ^ (-3 : ℤ) : ℚ)| ∧
    ∃ power, (ofDigits 3 none).pow ⟨120, 2⟩ .two = .ok power ∧ power.toRat = 144 / 100 := by
  have computed : (ofDigits 3 none).pow ⟨-30, 1⟩ ⟨-30, 1⟩ = .ok ⟨-370, 4⟩ := rfl
  have base : Decimal.toRat ⟨-30, 1⟩ = -3 := by norm_num
  have wide : Decimal.toRat ⟨120, 2⟩ = 6 / 5 := by norm_num
  have cube : (ofDigits 3 none).PowerFits (Decimal.toRat ⟨-30, 1⟩ ^ (-3 : ℤ)) := by
    have place := placeOf_eq (q := (-3) ^ (-3 : ℤ)) (k := -2) (by norm_num [abs_of_neg])
      (by norm_num [abs_of_neg]) (ofDigits 3 none).digits
    rw [base]
    exact ⟨by decide, by rw [place]; decide⟩
  have square : (ofDigits 3 none).PowerFits (Decimal.toRat ⟨120, 2⟩ ^ (2 : ℤ)) := by
    have place := placeOf_eq (q := (6 / 5) ^ (2 : ℤ)) (k := 0) (by norm_num [abs_of_pos])
      (by norm_num [abs_of_pos]) (ofDigits 3 none).digits
    rw [wide]
    exact ⟨by decide, by rw [place]; decide⟩
  obtain ⟨power, same, -, -, close, -⟩ := (ofDigits 3 none).pow_accurate (x := ⟨-30, 1⟩)
    (y := ⟨-30, 1⟩) (n := -3) (by norm_num) (by norm_num) (by decide) (by decide) cube
  obtain ⟨square, squared, -, -, -, kept⟩ := (ofDigits 3 none).pow_accurate (x := ⟨120, 2⟩) (y := .two)
    (n := 2) (by norm_num) (by norm_num) (by decide) (by decide) square
  rw [computed] at same
  cases same
  rw [base] at close
  rw [wide] at kept
  refine ⟨computed, close, square, squared, ?_⟩
  have value : (6 / 5 : ℚ) ^ (2 : ℤ) = 144 / 100 := by norm_num
  rw [value] at kept
  exact kept (by decide) ⟨144, -2, by decide, by norm_num⟩

set_option maxRecDepth 4000 in
/-- The inverse of a number at nearly the least scale is small and comes out large. -/
theorem pow_goes_round :
    (ofDigits 3 none).pow ⟨1, -9223372036854775807⟩ ⟨-1, 0⟩ = .ok ⟨100, -9223372036854775807⟩ ∧
    ¬ |Decimal.toRat ⟨100, -9223372036854775807⟩ -
        Decimal.toRat ⟨1, -9223372036854775807⟩ ^ (-1 : ℤ)| ≤
      2 * 10 ^ (1 - (3 : ℕ) : ℤ) * |Decimal.toRat ⟨1, -9223372036854775807⟩ ^ (-1 : ℤ)| := by
  have computed : (ofDigits 3 none).pow ⟨1, -9223372036854775807⟩ ⟨-1, 0⟩ =
      .ok ⟨100, -9223372036854775807⟩ := rfl
  have base : (1 : ℚ) ≤ Decimal.toRat ⟨1, -9223372036854775807⟩ := by
    exact_mod_cast Decimal.mantissa_le_toRat (d := ⟨1, -9223372036854775807⟩) (by decide) (by decide)
  have large : (100 : ℚ) ≤ Decimal.toRat ⟨100, -9223372036854775807⟩ := by
    exact_mod_cast Decimal.mantissa_le_toRat (d := ⟨100, -9223372036854775807⟩) (by decide) (by decide)
  refine ⟨computed, not_le.mpr ?_⟩
  rw [zpow_neg_one]
  have small := inv_le_one_of_one_le₀ base
  have positive : 0 < (Decimal.toRat ⟨1, -9223372036854775807⟩)⁻¹ := inv_pos.mpr (by linarith)
  have unit : 2 * (10 : ℚ) ^ (1 - (3 : ℕ) : ℤ) ≤ 1 := by norm_num
  rw [abs_of_pos positive, abs_of_pos (by linarith)]
  calc 2 * (10 : ℚ) ^ (1 - (3 : ℕ) : ℤ) * (Decimal.toRat ⟨1, -9223372036854775807⟩)⁻¹
      ≤ 1 * (Decimal.toRat ⟨1, -9223372036854775807⟩)⁻¹ := mul_le_mul_of_nonneg_right unit positive.le
    _ < Decimal.toRat ⟨100, -9223372036854775807⟩ - (Decimal.toRat ⟨1, -9223372036854775807⟩)⁻¹ := by
        linarith

end Formulary.Calculator
