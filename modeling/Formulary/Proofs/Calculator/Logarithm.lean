import Mathlib.Algebra.Order.Ring.Pow
import Mathlib.Tactic.LinearCombination
import Formulary.Calculator
import Formulary.Proofs.Decimal.Cut
import Formulary.Proofs.Evaluation.Outcome

namespace Formulary.Calculator

/-! Bounds on the exponential and the logarithm. Each computed exponential is below a fraction
    that grows little faster than the true one, so a step of the iteration for the logarithm of a
    number from two on never falls to zero, whatever estimate from zero on it starts from. -/

/-- Bound on the relative error of one operation with more than a dozen digits. -/
def grain : ℚ := 1 / 10 ^ 12

theorem ten_zpow_le_grain {digits : ℕ} (precise : 13 ≤ digits) :
    (10 : ℚ) ^ (1 - digits : ℤ) ≤ grain := by
  have order : (1 - digits : ℤ) ≤ -12 := by omega
  calc (10 : ℚ) ^ (1 - digits : ℤ) ≤ 10 ^ (-12 : ℤ) := zpow_le_zpow_right₀ (by norm_num) order
    _ = grain := by norm_num [grain]

section

variable {d a b ratio : Decimal} {digits : ℕ}

theorem abs_withDigits_sub_le (precise : 13 ≤ digits) :
    |(d.withDigits digits).toRat - d.toRat| ≤ |d.toRat| * grain :=
  (Decimal.Cut.withDigits.abs_sub_le d digits).trans
    (mul_le_mul_of_nonneg_left (ten_zpow_le_grain precise) (abs_nonneg _))

theorem withDigits_le (precise : 13 ≤ digits) (nonneg : 0 ≤ d.toRat) :
    (d.withDigits digits).toRat ≤ (1 + grain) * d.toRat := by
  have close := abs_le.mp (abs_withDigits_sub_le (d := d) precise)
  rw [abs_of_nonneg nonneg] at close
  linarith [close.2]

theorem le_withDigits (precise : 13 ≤ digits) (nonneg : 0 ≤ d.toRat) :
    999 / 1000 * d.toRat ≤ (d.withDigits digits).toRat := by
  have close := abs_le.mp (abs_withDigits_sub_le (d := d) precise)
  rw [abs_of_nonneg nonneg] at close
  have error : d.toRat * grain ≤ d.toRat * (1 / 1000) :=
    mul_le_mul_of_nonneg_left (by norm_num [grain]) nonneg
  linarith [close.1]

theorem withDigits_pos (precise : 13 ≤ digits) (positive : 0 < d.toRat) :
    0 < (d.withDigits digits).toRat := by
  have above := le_withDigits precise positive.le
  linarith

theorem abs_quotient_sub_le (precise : 13 ≤ digits)
    (divided : Decimal.quotient a b digits = .ok ratio) :
    |ratio.toRat - a.toRat / b.toRat| ≤ |a.toRat / b.toRat| * grain :=
  (Decimal.abs_quotient_sub_le divided).trans
    (mul_le_mul_of_nonneg_left (ten_zpow_le_grain precise) (abs_nonneg _))

theorem quotient_bounds (precise : 13 ≤ digits)
    (divided : Decimal.quotient a b digits = .ok ratio) (nonneg : 0 ≤ a.toRat / b.toRat) :
    0 ≤ ratio.toRat ∧ ratio.toRat ≤ (1 + grain) * (a.toRat / b.toRat) := by
  have close := abs_le.mp (abs_quotient_sub_le precise divided)
  rw [abs_of_nonneg nonneg] at close
  have kept : 0 ≤ (1 - grain) * (a.toRat / b.toRat) := mul_nonneg (by norm_num [grain]) nonneg
  constructor
  · linarith [close.1]
  · linarith [close.2]

end

/-! The exponential. -/

/-- The fraction that bounds the exponential function between zero and two. -/
def pade (z : ℚ) : ℚ := (2 + z) / (2 - z)

theorem pade_sq_le {z : ℚ} (nonneg : 0 ≤ z) (below : z < 1) : pade z ^ 2 ≤ pade (2 * z) := by
  have small : 0 < 2 - z := by linarith
  have twice : 0 < 2 - 2 * z := by linarith
  unfold pade
  rw [div_pow, div_le_div_iff₀ (by positivity) twice]
  nlinarith [mul_nonneg nonneg (mul_nonneg nonneg nonneg)]

/-- One term more: what is added now and what is still to come, with the errors of both. -/
theorem series_step {sum next exact total rest weight : ℚ} (weight_ge : 1 ≤ weight)
    (sum_nonneg : 0 ≤ sum) (next_nonneg : 0 ≤ next)
    (next_le : next ≤ (1 + grain) * exact) (total_le : total ≤ (1 + grain) * (sum + next))
    (rest_le : rest ≤ (weight - 1) * next) :
    total + rest ≤ (1 + grain) ^ 2 * (sum + weight * exact) := by
  have grain_pos : 0 < grain := by norm_num [grain]
  have slack : 0 ≤ grain * ((weight - 1) * next) :=
    mul_nonneg grain_pos.le (mul_nonneg (by linarith) next_nonneg)
  have scaled : weight * next ≤ weight * ((1 + grain) * exact) :=
    mul_le_mul_of_nonneg_left next_le (by linarith)
  have more : 0 ≤ grain * sum := mul_nonneg grain_pos.le sum_nonneg
  calc total + rest ≤ (1 + grain) * (sum + weight * next) := by linarith
    _ ≤ (1 + grain) * ((1 + grain) * (sum + weight * exact)) := by
        refine mul_le_mul_of_nonneg_left ?_ (by linarith)
        linarith
    _ = (1 + grain) ^ 2 * (sum + weight * exact) := by ring

/-- The terms that are still to come are below a multiple of the next one. -/
theorem series_bounds {x sum term result : Decimal} {working : ℕ} (precise : 13 ≤ working)
    (nonneg : 0 ≤ x.toRat) (fuel : ℕ) {n : ℕ} (counted : 1 ≤ n) (sum_pos : 0 < sum.toRat)
    (term_nonneg : 0 ≤ term.toRat) (done : series x working fuel n sum term = .ok result) :
    0 < result.toRat ∧ (x.toRat < 2 → result.toRat ≤
      (1 + grain) ^ (2 * fuel) *
        (sum.toRat + 2 / (2 - x.toRat) * (term.toRat * x.toRat / n))) := by
  induction fuel generalizing n sum term with
  | zero =>
    cases done
    refine ⟨sum_pos, fun below => ?_⟩
    have weight : 0 < 2 - x.toRat := by linarith
    have tail : 0 ≤ 2 / (2 - x.toRat) * (term.toRat * x.toRat / n) := by positivity
    simpa using tail
  | succ fuel ih =>
    have grain_pos : 0 < grain := by norm_num [grain]
    rw [series] at done
    obtain ⟨next, divided, continued⟩ := bind_eq_ok.mp done
    have quotient := quotient_bounds precise divided
    rw [Decimal.toRat_mul, Decimal.toRat_ofNat] at quotient
    obtain ⟨next_nonneg, next_le⟩ := quotient (by positivity)
    set exact := term.toRat * x.toRat / n
    have added_pos : 0 < (sum.add next).toRat := by
      rw [Decimal.toRat_add]
      linarith
    set total := (sum.add next).withDigits working
    have total_pos : 0 < total.toRat := withDigits_pos precise added_pos
    have total_le : total.toRat ≤ (1 + grain) * (sum.toRat + next.toRat) := by
      rw [← Decimal.toRat_add]
      exact withDigits_le precise added_pos.le
    have weight : x.toRat < 2 → 1 ≤ 2 / (2 - x.toRat) := by
      intro below
      rw [le_div_iff₀ (by linarith)]
      linarith
    have step : ∀ rest : ℚ, x.toRat < 2 → rest ≤ (2 / (2 - x.toRat) - 1) * next.toRat →
        (1 + grain) ^ (2 * fuel) * (total.toRat + rest) ≤
          (1 + grain) ^ (2 * (fuel + 1)) * (sum.toRat + 2 / (2 - x.toRat) * exact) := by
      intro rest below rest_le
      have inner := series_step (weight below) sum_pos.le next_nonneg next_le total_le rest_le
      calc (1 + grain) ^ (2 * fuel) * (total.toRat + rest)
          ≤ (1 + grain) ^ (2 * fuel) *
              ((1 + grain) ^ 2 * (sum.toRat + 2 / (2 - x.toRat) * exact)) :=
            mul_le_mul_of_nonneg_left inner (by positivity)
        _ = (1 + grain) ^ (2 * (fuel + 1)) * (sum.toRat + 2 / (2 - x.toRat) * exact) := by ring
    dsimp only at continued
    split at continued
    · rw [← Except.ok.inj continued]
      refine ⟨total_pos, fun below => ?_⟩
      have stop := step 0 below (mul_nonneg (sub_nonneg.mpr (weight below)) next_nonneg)
      have grown : total.toRat ≤ (1 + grain) ^ (2 * fuel) * (total.toRat + 0) := by
        rw [add_zero]
        exact le_mul_of_one_le_left total_pos.le (one_le_pow₀ (by linarith))
      exact grown.trans stop
    · obtain ⟨positive, bounded⟩ := ih (by omega) total_pos next_nonneg continued
      refine ⟨positive, fun below => (bounded below).trans (step _ below ?_)⟩
      have room : 0 < 2 - x.toRat := by linarith
      have half : x.toRat / ((n + 1 : ℕ) : ℚ) ≤ x.toRat / 2 := by
        refine div_le_div_of_nonneg_left nonneg (by norm_num) ?_
        exact_mod_cast (by omega : 2 ≤ n + 1)
      calc 2 / (2 - x.toRat) * (next.toRat * x.toRat / ((n + 1 : ℕ) : ℚ))
          = 2 / (2 - x.toRat) * (x.toRat / ((n + 1 : ℕ) : ℚ)) * next.toRat := by ring
        _ ≤ 2 / (2 - x.toRat) * (x.toRat / 2) * next.toRat := by gcongr
        _ = (2 / (2 - x.toRat) - 1) * next.toRat := by
            field_simp
            ring

theorem halve_spec (fuel : ℕ) (x : Decimal) :
    (halve fuel x).1.toRat * 2 ^ (halve fuel x).2 = x.toRat ∧ (halve fuel x).2 ≤ fuel ∧
      (0 < fuel → (halve fuel x).2 = 0 → x.toRat ≤ 1 / 2) := by
  induction fuel generalizing x with
  | zero => exact ⟨by simp [halve], le_rfl, fun impossible => absurd impossible (by omega)⟩
  | succ fuel ih =>
    unfold halve
    split
    · obtain ⟨product, bound, -⟩ := ih (x.mul Decimal.half)
      rw [Decimal.toRat_mul, Decimal.toRat_half] at product
      refine ⟨?_, by simpa using bound, fun _ impossible => absurd impossible (by simp)⟩
      dsimp only
      rw [pow_succ]
      linear_combination 2 * product
    · rename_i small
      rw [Decimal.less_iff, Decimal.toRat_half] at small
      exact ⟨by simp, by simp, fun _ _ => not_lt.mp small⟩

theorem squarings_succ (working count : ℕ) (x : Decimal) :
    squarings working (count + 1) x =
      ((squarings working count x).mul (squarings working count x)).withDigits working := by
  induction count generalizing x with
  | zero => rfl
  | succ count ih =>
    rw [squarings, ih]
    rfl

theorem squarings_pos {working : ℕ} (precise : 13 ≤ working) (count : ℕ) {x : Decimal}
    (positive : 0 < x.toRat) : 0 < (squarings working count x).toRat := by
  induction count generalizing x with
  | zero => exact positive
  | succ count ih =>
    refine ih (withDigits_pos precise ?_)
    rw [Decimal.toRat_mul]
    exact mul_pos positive positive

theorem square_le {working : ℕ} (precise : 13 ≤ working) {x : Decimal} {bound : ℚ}
    (positive : 0 < x.toRat) (below : (1 + grain) * x.toRat ≤ bound) :
    (1 + grain) * ((x.mul x).withDigits working).toRat ≤ bound ^ 2 := by
  have grain_pos : 0 < grain := by norm_num [grain]
  have product : (x.mul x).toRat = x.toRat * x.toRat := Decimal.toRat_mul x x
  have rounded : ((x.mul x).withDigits working).toRat ≤ (1 + grain) * (x.toRat * x.toRat) := by
    rw [← product]
    exact withDigits_le precise (by rw [product]; positivity)
  calc (1 + grain) * ((x.mul x).withDigits working).toRat
      ≤ (1 + grain) * ((1 + grain) * (x.toRat * x.toRat)) :=
        mul_le_mul_of_nonneg_left rounded (by linarith)
    _ = ((1 + grain) * x.toRat) ^ 2 := by ring
    _ ≤ bound ^ 2 := by gcongr

theorem squarings_le {working : ℕ} (precise : 13 ≤ working) (count : ℕ) {x : Decimal} {m : ℕ}
    {z : ℚ} (positive : 0 < x.toRat) (nonneg : 0 ≤ z) (below : z * 2 ^ count < 2)
    (bounded : (1 + grain) * x.toRat ≤ (1 + grain) ^ m * pade z) :
    (1 + grain) * (squarings working count x).toRat ≤
      (1 + grain) ^ (m * 2 ^ count) * pade (z * 2 ^ count) := by
  induction count generalizing x m z with
  | zero => simpa [squarings] using bounded
  | succ count ih =>
    have grain_pos : 0 < grain := by norm_num [grain]
    have small : z < 1 := by
      have one_le : (1 : ℚ) ≤ 2 ^ count := one_le_pow₀ (by norm_num)
      rw [pow_succ] at below
      nlinarith
    have squared : (1 + grain) * ((x.mul x).withDigits working).toRat ≤
        (1 + grain) ^ (m * 2) * pade (z * 2) := by
      calc (1 + grain) * ((x.mul x).withDigits working).toRat
          ≤ ((1 + grain) ^ m * pade z) ^ 2 := square_le precise positive bounded
        _ = (1 + grain) ^ (m * 2) * pade z ^ 2 := by rw [mul_pow, ← pow_mul]
        _ ≤ (1 + grain) ^ (m * 2) * pade (z * 2) := by
            rw [mul_comm z]
            exact mul_le_mul_of_nonneg_left (pade_sq_le nonneg small) (by positivity)
    have square_pos : 0 < ((x.mul x).withDigits working).toRat := by
      refine withDigits_pos precise ?_
      rw [Decimal.toRat_mul]
      exact mul_pos positive positive
    have again := ih square_pos (by linarith) (by rw [mul_assoc, ← pow_succ']; exact below) squared
    rw [squarings]
    calc (1 + grain) * (squarings working count ((x.mul x).withDigits working)).toRat
        ≤ (1 + grain) ^ (m * 2 * 2 ^ count) * pade (z * 2 * 2 ^ count) := again
      _ = (1 + grain) ^ (m * 2 ^ (count + 1)) * pade (z * 2 ^ (count + 1)) := by
          rw [mul_assoc m, mul_assoc z, ← pow_succ', ← pow_succ']

theorem growth_le {n : ℕ} (few : n ≤ 2 ^ 28) : (1 + grain) ^ n ≤ 101 / 100 := by
  have shrunk : (100 : ℚ) / 101 ≤ (1 - grain) ^ n := by
    have bernoulli : 1 + (n : ℚ) * -grain ≤ (1 + -grain) ^ n :=
      one_add_mul_le_pow (by norm_num [grain]) n
    have counted : (n : ℚ) ≤ 2 ^ 28 := by exact_mod_cast few
    have small : (n : ℚ) * grain ≤ 2 ^ 28 * grain :=
      mul_le_mul_of_nonneg_right counted (by norm_num [grain])
    have numbers : (100 : ℚ) / 101 ≤ 1 - 2 ^ 28 * grain := by norm_num [grain]
    rw [← sub_eq_add_neg] at bernoulli
    linarith
  have product : (1 + grain) ^ n * (1 - grain) ^ n ≤ 1 := by
    rw [← mul_pow]
    exact pow_le_one₀ (by norm_num [grain]) (by norm_num [grain])
  have grown : (1 + grain) ^ n * (100 / 101) ≤ (1 + grain) ^ n * (1 - grain) ^ n :=
    mul_le_mul_of_nonneg_left shrunk (by norm_num [grain])
  linarith

/-- What is known about a computed exponential. -/
structure Exponential (y e : ℚ) : Prop where
  positive : 0 < e
  bounded : y ≤ 1 / 2 ∧ e ≤ 101 / 100 * pade y ∨ (y < 4 → e ≤ 101 / 100 * pade (y / 2) ^ 2)

theorem series_le {x sum : Decimal} {working : ℕ} (precise : 13 ≤ working) (nonneg : 0 ≤ x.toRat)
    (below : x.toRat < 2)
    (summed : series x working maxSteps 1 Decimal.one Decimal.one = .ok sum) :
    (1 + grain) * sum.toRat ≤ (1 + grain) ^ 401 * pade x.toRat := by
  have room : 2 - x.toRat ≠ 0 := by linarith
  have tail : Decimal.one.toRat + 2 / (2 - x.toRat) * (Decimal.one.toRat * x.toRat / (1 : ℕ)) =
      pade x.toRat := by
    rw [Decimal.toRat_one, pade, Nat.cast_one]
    field_simp
    ring
  have bound := (series_bounds precise nonneg maxSteps le_rfl (by norm_num) (by norm_num)
    summed).2 below
  rw [tail] at bound
  calc (1 + grain) * sum.toRat ≤ (1 + grain) * ((1 + grain) ^ (2 * maxSteps) * pade x.toRat) :=
        mul_le_mul_of_nonneg_left bound (by norm_num [grain])
    _ = (1 + grain) ^ 401 * pade x.toRat := by
        rw [← mul_assoc, ← pow_succ']
        rfl

theorem exponential_squarings {x reduced sum : Decimal} {working digits halvings : ℕ}
    (precise : 13 ≤ digits) (carried : 13 ≤ working) (nonneg : 0 ≤ reduced.toRat)
    (product : reduced.toRat * 2 ^ halvings = x.toRat) (few : halvings ≤ maxHalvings)
    (unhalved : halvings = 0 → x.toRat ≤ 1 / 2) (sum_pos : 0 < sum.toRat)
    (sum_le : reduced.toRat < 2 →
      (1 + grain) * sum.toRat ≤ (1 + grain) ^ 401 * pade reduced.toRat) :
    Exponential x.toRat ((squarings working halvings sum).withDigits digits).toRat := by
  have raised_pos := squarings_pos carried halvings sum_pos
  refine ⟨withDigits_pos precise raised_pos, ?_⟩
  have rounded := withDigits_le precise raised_pos.le
  cases halvings with
  | zero =>
    have small := unhalved rfl
    rw [pow_zero, mul_one] at product
    rw [product] at sum_le nonneg
    refine .inl ⟨small, ?_⟩
    calc ((squarings working 0 sum).withDigits digits).toRat ≤ (1 + grain) * sum.toRat := rounded
      _ ≤ (1 + grain) ^ 401 * pade x.toRat := sum_le (by linarith)
      _ ≤ 101 / 100 * pade x.toRat := by
          refine mul_le_mul_of_nonneg_right (growth_le (by norm_num)) ?_
          exact div_nonneg (by linarith) (by linarith)
  | succ count =>
    -- All squarings but the last lead to the bound at half of the argument, which is below two.
    refine .inr fun below => ?_
    have halved : reduced.toRat * 2 ^ count = x.toRat / 2 := by
      rw [← product, pow_succ]
      ring
    have reduced_le : reduced.toRat ≤ x.toRat / 2 := by
      rw [← halved]
      exact le_mul_of_one_le_right nonneg (one_le_pow₀ (by norm_num))
    have raised := squarings_le carried count sum_pos nonneg (by linarith)
      (sum_le (by linarith))
    rw [halved] at raised
    have squared := square_le carried (squarings_pos carried count sum_pos) raised
    rw [← squarings_succ] at squared
    have steps : 401 * 2 ^ count * 2 ≤ 2 ^ 28 := by
      have power : 2 ^ count ≤ 2 ^ 17 :=
        Nat.pow_le_pow_right (by decide) (Nat.le_of_succ_le_succ few)
      omega
    calc ((squarings working (count + 1) sum).withDigits digits).toRat
        ≤ ((1 + grain) ^ (401 * 2 ^ count) * pade (x.toRat / 2)) ^ 2 := rounded.trans squared
      _ = (1 + grain) ^ (401 * 2 ^ count * 2) * pade (x.toRat / 2) ^ 2 := by
          rw [mul_pow, ← pow_mul]
      _ ≤ 101 / 100 * pade (x.toRat / 2) ^ 2 :=
          mul_le_mul_of_nonneg_right (growth_le steps) (sq_nonneg _)

theorem exponential_expPositive {x result : Decimal} {digits : ℕ} (precise : 13 ≤ digits)
    (positive : 0 < x.toRat) (done : expPositive x digits = .ok result) :
    Exponential x.toRat result.toRat := by
  obtain ⟨product, few, unhalved⟩ := halve_spec maxHalvings x
  have carried : 13 ≤ digits + guardDigits + (halve maxHalvings x).2 := by omega
  have nonneg : 0 ≤ (halve maxHalvings x).1.toRat := by
    rw [← product] at positive
    exact (pos_of_mul_pos_left positive (by positivity)).le
  unfold expPositive at done
  obtain ⟨sum, summed, returned⟩ := bind_eq_ok.mp done
  have sum_pos := (series_bounds carried nonneg maxSteps le_rfl (by norm_num) (by norm_num)
    summed).1
  rw [← Except.ok.inj returned]
  exact exponential_squarings precise carried nonneg product few (unhalved (by decide)) sum_pos
    fun below => series_le carried nonneg below summed

theorem exponential_expTo {y result : Decimal} {digits : ℕ} (precise : 13 ≤ digits)
    (nonneg : 0 ≤ y.toRat) (done : expTo y digits = .ok result) :
    Exponential y.toRat result.toRat := by
  unfold expTo at done
  split at done
  · rename_i nothing
    cases done
    rw [Decimal.isZero_iff.mp nothing]
    exact ⟨by norm_num, .inl ⟨by norm_num, by norm_num [pade]⟩⟩
  · rename_i something
    have positive : 0 < y.toRat :=
      lt_of_le_of_ne nonneg fun zero => something (Decimal.isZero_iff.mpr zero.symm)
    have sign : y.isNegative ≠ true := fun negative =>
      absurd (Decimal.isNegative_iff.mp negative) (not_lt.mpr nonneg)
    simp only [if_neg sign] at done
    split at done
    · cases done
    · exact exponential_expPositive precise positive done

/-! The logarithm. -/

theorem step_ge {x y e : ℚ} (base : 2 ≤ x) (nonneg : 0 ≤ y) (exponential : Exponential y e) :
    4 / 25 ≤ y + 2 * (x - e) / (x + e) := by
  have e_pos := exponential.positive
  -- A larger base only moves the step up.
  have least : 2 * (2 - e) / (2 + e) ≤ 2 * (x - e) / (x + e) := by
    rw [div_le_div_iff₀ (by linarith) (by linarith)]
    nlinarith
  suffices enough : (4 / 25 - y) * (2 + e) ≤ 2 * (2 - e) by
    have ahead := (le_div_iff₀ (by linarith)).mpr enough
    linarith
  rcases exponential.bounded with ⟨small, bound⟩ | bound
  · have fraction : pade y ≤ 5 / 3 := by
      rw [pade, div_le_div_iff₀ (by linarith) (by norm_num)]
      linarith
    nlinarith
  · by_cases close : y < 54 / 25
    · set q := pade (y / 2) with q_eq
      have limit := bound (by linarith)
      have argument : y * (q + 1) = 4 * (q - 1) := by
        have fraction : q * (2 - y / 2) = 2 + y / 2 := div_mul_cancel₀ _ (by linarith)
        linarith
      have q_ge : 1 ≤ q := by
        rw [q_eq, pade, le_div_iff₀ (by linarith)]
        linarith
      have cubic : 101 / 100 * q ^ 2 * ((54 / 25 - y) * (q + 1)) ≤ (92 / 25 + 2 * y) * (q + 1) := by
        have left : (54 / 25 - y) * (q + 1) = 154 / 25 - 46 / 25 * q := by linarith
        have right : (92 / 25 + 2 * y) * (q + 1) = 292 / 25 * q - 108 / 25 := by linarith
        rw [left, right]
        nlinarith [mul_nonneg (sub_nonneg.mpr q_ge) (sq_nonneg (q - 1))]
      have quadratic : 101 / 100 * q ^ 2 * (54 / 25 - y) ≤ 92 / 25 + 2 * y := by
        refine le_of_mul_le_mul_right ?_ (by linarith : 0 < q + 1)
        linarith
      nlinarith
    · nlinarith

theorem lnStep_ge {x y e change : Decimal} {working : ℕ} (precise : 13 ≤ working)
    (base : 2 ≤ x.toRat) (nonneg : 0 ≤ y.toRat) (raised : expTo y working = .ok e)
    (divided : Decimal.quotient (Decimal.two.mul (x.sub e)) (x.add e) working = .ok change) :
    3 / 20 ≤ ((y.add change).withDigits working).toRat := by
  have exponential := exponential_expTo precise nonneg raised
  have e_pos := exponential.positive
  have ahead := step_ge base nonneg exponential
  set exact := 2 * (x.toRat - e.toRat) / (x.toRat + e.toRat)
  have bounded : |exact| ≤ 2 := by
    rw [abs_le]
    constructor
    · rw [le_div_iff₀ (by linarith)]
      linarith
    · rw [div_le_iff₀ (by linarith)]
      linarith
  have error : |change.toRat - exact| ≤ 2 * grain := by
    have close := abs_quotient_sub_le precise divided
    simp only [Decimal.toRat_mul, Decimal.toRat_two, Decimal.toRat_sub, Decimal.toRat_add] at close
    exact close.trans (mul_le_mul_of_nonneg_right bounded (by norm_num [grain]))
  have moved : 4 / 25 - 2 * grain ≤ (y.add change).toRat := by
    rw [Decimal.toRat_add]
    linarith [(abs_le.mp error).1]
  have coarse : grain ≤ 1 / 1000 := by norm_num [grain]
  have rounded := le_withDigits (d := y.add change) precise (by linarith)
  linarith

theorem lnSteps_ge {x y result : Decimal} {working : ℕ} (precise : 13 ≤ working)
    (base : 2 ≤ x.toRat) (fuel : ℕ) (nonneg : 0 ≤ y.toRat) (last : fuel = 0 → 3 / 20 ≤ y.toRat)
    (done : lnSteps x working fuel y = .ok result) : 3 / 20 ≤ result.toRat := by
  induction fuel generalizing y with
  | zero =>
    cases done
    exact last rfl
  | succ fuel ih =>
    rw [lnSteps] at done
    obtain ⟨e, raised, done⟩ := bind_eq_ok.mp done
    obtain ⟨change, divided, done⟩ := bind_eq_ok.mp done
    have next := lnStep_ge precise base nonneg raised divided
    dsimp only at done
    split at done
    · cases done
      exact next
    · exact ih (by linarith) (fun _ => next) done

theorem lnTo_ge {x result : Decimal} {digits : ℕ} (precise : 13 ≤ digits) (base : 2 ≤ x.toRat)
    (estimated : ∀ y, lnEstimate x = .ok y → 0 ≤ y.toRat) (done : lnTo x digits = .ok result) :
    7 / 50 ≤ result.toRat := by
  have positive : x.isPositive = true := Decimal.isPositive_iff.mpr (by linarith)
  have other : ¬ x.isOne = true := by
    rw [Decimal.isOne_iff]
    linarith
  unfold lnTo at done
  simp only [positive, Bool.not_true, Bool.false_eq_true, if_false, if_neg other] at done
  obtain ⟨y, estimate, done⟩ := bind_eq_ok.mp done
  obtain ⟨better, improved, done⟩ := bind_eq_ok.mp done
  have lower := lnSteps_ge (by omega) base maxSteps (estimated y estimate)
    (fun impossible => absurd impossible (by decide)) improved
  rw [← Except.ok.inj done]
  have rounded := le_withDigits (d := better) precise (by linarith)
  linarith

/-- A power of a number from two on is too large for an exponent beyond those that are computed
    by repeated squaring. -/
theorem powReal_overflows (calculator : Calculator) {x y result : Decimal}
    (precise : 13 ≤ calculator.digits) (base : 2 ≤ x.toRat)
    (estimated : ∀ y, lnEstimate x = .ok y → 0 ≤ y.toRat)
    (large : (maxIntegerExponent : ℚ) < y.toRat) : calculator.powReal x y ≠ .ok result := by
  intro done
  have something : ¬ x.isZero = true := by
    rw [Decimal.isZero_iff]
    linarith
  have sign : ¬ x.isNegative = true := by
    rw [Decimal.isNegative_iff]
    linarith
  unfold powReal at done
  simp only [if_neg something, if_neg sign] at done
  obtain ⟨logarithm, computed, done⟩ := bind_eq_ok.mp done
  have lower := lnTo_ge (by omega) base estimated computed
  have product : 140000 ≤ (y.mul logarithm).toRat := by
    rw [Decimal.toRat_mul]
    norm_num [maxIntegerExponent] at large
    nlinarith
  set exponent := (y.mul logarithm).withDigits (calculator.digits + guardDigits)
  have rounded : 139000 ≤ exponent.toRat := by
    have above := le_withDigits (d := y.mul logarithm) (by omega : 13 ≤ calculator.digits + guardDigits)
      (by linarith)
    linarith
  have unzero : ¬ exponent.isZero = true := by
    rw [Decimal.isZero_iff]
    linarith
  have unsigned : ¬ exponent.isNegative = true := by
    rw [Decimal.isNegative_iff]
    linarith
  have beyond : (Decimal.ofNat maxExponential).less exponent.abs = true := by
    rw [Decimal.less_iff, Decimal.toRat_ofNat, Decimal.toRat_abs, abs_of_pos (by linarith)]
    norm_num [maxExponential]
    linarith
  unfold expTo at done
  simp only [if_neg unzero, if_pos beyond, if_neg unsigned] at done
  cases done

end Formulary.Calculator
