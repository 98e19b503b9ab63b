import Mathlib.Algebra.GCDMonoid.Nat
import Mathlib.Algebra.Order.Ring.Pow
import Mathlib.Algebra.Squarefree.Basic
import Mathlib.Data.Nat.Squarefree
import Mathlib.Tactic.Linarith
import Formulary.Proofs.Calculator.Power

namespace Formulary.Calculator

/-! How far powers with an integer exponent are from the true ones, whichever way of cutting is used.
    Each product that is cut to the working digits is off by a factor close to one. A square has
    twice the factors of its root and one more, so that repeated squaring gathers one factor for each
    unit of the exponent. -/

/-- The number is off by at most `steps` factors, each of them from `1 - u` to its inverse. -/
def Near (u : ℚ) (steps : ℕ) (q ideal : ℚ) : Prop :=
  ∃ factor, q = factor * ideal ∧ (1 - u) ^ steps ≤ factor ∧ factor * (1 - u) ^ steps ≤ 1

namespace Near

variable {u r q s t : ℚ} {m n : ℕ}

theorem refl (q : ℚ) : Near u 0 q q := ⟨1, by simp, by simp, by simp⟩

theorem mul (below : u < 1) (left : Near u m r q) (right : Near u n s t) :
    Near u (m + n) (r * s) (q * t) := by
  have positive : 0 < 1 - u := sub_pos.mpr below
  obtain ⟨f, rfl, f_ge, f_le⟩ := left
  obtain ⟨g, rfl, g_ge, g_le⟩ := right
  have g_nonneg : 0 ≤ g := (pow_nonneg positive.le n).trans g_ge
  refine ⟨f * g, by ring, ?_, ?_⟩
  · rw [pow_add]
    exact mul_le_mul f_ge g_ge (pow_nonneg positive.le n)
      ((pow_nonneg positive.le m).trans f_ge)
  · calc f * g * (1 - u) ^ (m + n) = f * (1 - u) ^ m * (g * (1 - u) ^ n) := by ring
      _ ≤ 1 * 1 := mul_le_mul f_le g_le (mul_nonneg g_nonneg (pow_nonneg positive.le n)) zero_le_one
      _ = 1 := one_mul 1

theorem trans (below : u < 1) (first : Near u m r s) (second : Near u n s q) :
    Near u (m + n) r q := by
  obtain ⟨f, rfl, f_ge, f_le⟩ := first
  have factor : Near u m f 1 := ⟨f, by simp, f_ge, f_le⟩
  simpa using factor.mul below second

theorem mono (nonneg : 0 ≤ u) (below : u < 1) (order : m ≤ n) (near : Near u m r q) :
    Near u n r q := by
  have positive : 0 < 1 - u := sub_pos.mpr below
  obtain ⟨f, rfl, f_ge, f_le⟩ := near
  have smaller : (1 - u) ^ n ≤ (1 - u) ^ m := pow_le_pow_of_le_one positive.le (by linarith) order
  refine ⟨f, rfl, smaller.trans f_ge, le_trans ?_ f_le⟩
  exact mul_le_mul_of_nonneg_left smaller ((pow_nonneg positive.le m).trans f_ge)

theorem inv (below : u < 1) (near : Near u n r q) : Near u n r⁻¹ q⁻¹ := by
  have positive : 0 < (1 - u) ^ n := pow_pos (sub_pos.mpr below) n
  obtain ⟨f, rfl, f_ge, f_le⟩ := near
  have f_pos : 0 < f := positive.trans_le f_ge
  refine ⟨f⁻¹, mul_inv f q, ?_, ?_⟩
  · rwa [le_inv_comm₀ positive f_pos, ← one_div, le_div_iff₀ positive]
  · rw [inv_mul_le_iff₀ f_pos, mul_one]
    exact f_ge

theorem ne_zero (below : u < 1) (near : Near u n r q) (something : q ≠ 0) : r ≠ 0 := by
  obtain ⟨f, rfl, f_ge, -⟩ := near
  exact mul_ne_zero ((pow_pos (sub_pos.mpr below) n).trans_le f_ge).ne' something

theorem of_abs_sub_le (nonneg : 0 ≤ u) (below : u < 1) (close : |r - q| ≤ |q| * u) :
    Near u 1 r q := by
  by_cases nothing : q = 0
  · have same : r = 0 := by simpa [nothing] using close
    exact ⟨1, by simp [same, nothing], by simpa using nonneg, by simpa using nonneg⟩
  · have error : |r / q - 1| ≤ u := by
      rw [div_sub_one nothing, abs_div, div_le_iff₀ (abs_pos.mpr nothing), mul_comm]
      exact close
    obtain ⟨low, high⟩ := abs_le.mp error
    refine ⟨r / q, (div_mul_cancel₀ r nothing).symm, by linarith, ?_⟩
    calc r / q * (1 - u) ^ 1 ≤ (1 + u) * (1 - u) := by
          rw [pow_one]
          exact mul_le_mul_of_nonneg_right (by linarith) (by linarith)
      _ = 1 - u ^ 2 := by ring
      _ ≤ 1 := by linarith [sq_nonneg u]

theorem abs_sub_le {c : ℚ} (nonneg : 0 ≤ u) (below : u < 1) (few : n * u ≤ c) (small : c ≤ 1 / 2)
    (near : Near u n r q) : |r - q| ≤ 2 * c * |q| := by
  obtain ⟨f, rfl, f_ge, f_le⟩ := near
  have c_nonneg : 0 ≤ c := (mul_nonneg n.cast_nonneg nonneg).trans few
  have bernoulli : 1 - c ≤ (1 - u) ^ n := by
    have bound := one_add_mul_le_pow (by linarith : -2 ≤ -u) n
    rw [← sub_eq_add_neg] at bound
    linarith
  have low : 1 - c ≤ f := bernoulli.trans f_ge
  have high : f ≤ 1 + 2 * c := by
    have positive : 0 < 1 - c := by linarith
    refine le_of_mul_le_mul_right ?_ positive
    calc f * (1 - c) ≤ f * (1 - u) ^ n := mul_le_mul_of_nonneg_left bernoulli (by linarith)
      _ ≤ 1 := f_le
      _ ≤ 1 + c * (1 - 2 * c) := le_add_of_nonneg_right (mul_nonneg c_nonneg (by linarith))
      _ = (1 + 2 * c) * (1 - c) := by ring
  have error : |f - 1| ≤ 2 * c := abs_le.mpr ⟨by linarith, by linarith⟩
  calc |f * q - q| = |f - 1| * |q| := by rw [← abs_mul, sub_mul, one_mul]
    _ ≤ 2 * c * |q| := mul_le_mul_of_nonneg_right error (abs_nonneg q)

end Near

/-- Repeated squaring gathers one factor for each unit of the exponent. -/
theorem powerLoop_near {u : ℚ} (below : u < 1) {cut : Decimal → Decimal}
    (cuts : ∀ d : Decimal, Near u 1 (cut d).toRat d.toRat) {fuel exponent a b : ℕ}
    {result square : Decimal} {r s : ℚ} (result_near : Near u a result.toRat r)
    (square_near : Near u b square.toRat s) (enough : exponent < 2 ^ fuel) :
    Near u (a + (b + 1) * exponent) (powerLoop cut fuel result square exponent).toRat
      (r * s ^ exponent) := by
  induction fuel generalizing exponent result square r s a b with
  | zero =>
    obtain rfl : exponent = 0 := by simpa using enough
    simpa [powerLoop] using result_near
  | succ fuel ih =>
    rw [powerLoop]
    split
    · rename_i finished
      simpa [beq_iff_eq.mp finished] using result_near
    rename_i unfinished
    have positive : exponent ≠ 0 := by simpa using unfinished
    -- What is multiplied in now is the lowest binary digit of the exponent.
    have low : Near u (a + (b + 1) * (exponent % 2))
        (if exponent % 2 == 1 then cut (result.mul square) else result).toRat
        (r * s ^ (exponent % 2)) := by
      rcases Nat.mod_two_eq_zero_or_one exponent with even | odd
      · simpa [even] using result_near
      · have factors := result_near.mul below square_near
        rw [← Decimal.toRat_mul] at factors
        simpa [odd, add_comm 1, add_assoc] using (cuts _).trans below factors
    by_cases last : exponent / 2 = 0
    · obtain rfl : exponent = 1 := by omega
      simpa using ih low square_near (by positivity : 0 < 2 ^ fuel)
    · have squared : Near u (2 * b + 1) (cut (square.mul square)).toRat (s * s) := by
        have factors := square_near.mul below square_near
        rw [← Decimal.toRat_mul] at factors
        simpa [two_mul, add_comm] using (cuts _).trans below factors
      have halved : exponent / 2 < 2 ^ fuel := by
        rw [pow_succ] at enough
        omega
      have done := ih low squared halved
      have steps : a + (b + 1) * (exponent % 2) + (2 * b + 1 + 1) * (exponent / 2) =
          a + (b + 1) * exponent := by
        calc a + (b + 1) * (exponent % 2) + (2 * b + 1 + 1) * (exponent / 2)
            = a + (b + 1) * (exponent % 2 + 2 * (exponent / 2)) := by ring
          _ = a + (b + 1) * exponent := by rw [Nat.mod_add_div]
      rw [steps, mul_pow_digits] at done
      simpa [last] using done

/-! The relative error of a number that is cut to so many digits. -/

def resolution (digits : ℕ) : ℚ := 10 ^ (1 - digits : ℤ)

theorem resolution_pos (digits : ℕ) : 0 < resolution digits := Decimal.ten_zpow_pos _

theorem resolution_le_one {digits : ℕ} (positive : 0 < digits) : resolution digits ≤ 1 :=
  zpow_le_one_of_nonpos₀ (by norm_num) (by omega)

theorem resolution_working (digits : ℕ) :
    resolution (digits + guardDigits) = resolution digits / 10 ^ 10 := by
  have split : (1 - (digits + guardDigits : ℕ) : ℤ) = (1 - digits) + -10 := by
    unfold guardDigits
    push_cast
    ring
  rw [resolution, split, Decimal.ten_zpow_add, resolution, div_eq_mul_inv]
  norm_num

theorem resolution_working_lt_one (digits : ℕ) : resolution (digits + guardDigits) < 1 :=
  zpow_lt_one_of_neg₀ (by norm_num) (by unfold guardDigits; omega)

/-- A power with an integer exponent before it is cut to the digits of the results. -/
def carriedBy (cut : Decimal → ℕ → Decimal) (working : ℕ) (x : Decimal) (n : ℤ) : Decimal :=
  let magnitude := integerPowerBy cut x n.natAbs working
  if n < 0 then cut (Decimal.longQuotient .one magnitude working) working else magnitude

/-- A power with an integer exponent, with a way of cutting. -/
def powerBy (cut : Decimal → ℕ → Decimal) (digits : ℕ) (x : Decimal) (n : ℤ) : Decimal :=
  cut (carriedBy cut (digits + guardDigits) x n) digits

section

variable {cut : Decimal → ℕ → Decimal} (cuts : Decimal.Cut cut) {x : Decimal} {n : ℤ}

include cuts

theorem cut_near {working : ℕ} (below : resolution working < 1) (d : Decimal) :
    Near (resolution working) 1 (cut d working).toRat d.toRat :=
  .of_abs_sub_le (resolution_pos working).le below (cuts.abs_sub_le d working)

theorem integerPowerBy_near {working : ℕ} (below : resolution working < 1) (base : Decimal) (n : ℕ) :
    Near (resolution working) n (integerPowerBy cut base n working).toRat (base.toRat ^ n) := by
  have start : Near (resolution working) 0 Decimal.one.toRat 1 := by simpa using Near.refl 1
  simpa [integerPowerBy] using
    powerLoop_near below (cut_near cuts below) start (.refl base.toRat) Nat.lt_log2_self

theorem inverse_near {working : ℕ} (below : resolution working < 1) {d : Decimal} {q : ℚ} {n : ℕ}
    (something : q ≠ 0) (close : Near (resolution working) n d.toRat q) :
    Near (resolution working) (n + 1) (cut (Decimal.longQuotient .one d working) working).toRat
      q⁻¹ := by
  have dividend : Decimal.one.toRat ≠ 0 := by simp
  have divided := cuts.longQuotient_accurate dividend (close.ne_zero below something) working
  rw [add_comm]
  refine (Near.of_abs_sub_le (resolution_pos working).le below divided.1.le).trans below ?_
  simpa using close.inv below

theorem carriedBy_near {working : ℕ} (below : resolution working < 1) (something : x.toRat ≠ 0)
    (n : ℤ) : Near (resolution working) (n.natAbs + 1) (carriedBy cut working x n).toRat
      (x.toRat ^ n) := by
  have close := integerPowerBy_near cuts below x n.natAbs
  unfold carriedBy
  dsimp only
  split
  · rename_i negative
    have power : (x.toRat ^ n.natAbs)⁻¹ = x.toRat ^ n := by
      rw [← zpow_natCast, ← zpow_neg]
      congr 1
      omega
    rw [← power]
    exact inverse_near cuts below (pow_ne_zero n.natAbs something) close
  · rename_i nonneg
    have power : x.toRat ^ n.natAbs = x.toRat ^ n := by
      rw [← zpow_natCast]
      congr 1
      omega
    rw [← power]
    exact close.mono (resolution_pos working).le below (Nat.le_succ _)

variable {digits : ℕ} (positive : 0 < digits) (something : x.toRat ≠ 0)
  (bounded : |n| ≤ maxIntegerExponent)

include positive something bounded

/-- The ten guard digits are enough for all exponents within the limit: what repeated squaring loses
    is small against the last cut. -/
theorem abs_carriedBy_sub_le :
    |(carriedBy cut (digits + guardDigits) x n).toRat - x.toRat ^ n| ≤
      resolution digits / 2500 * |x.toRat ^ n| := by
  have near := carriedBy_near cuts (resolution_working_lt_one digits) something n
  rw [resolution_working] at near
  set e := resolution digits with e_eq
  have e_pos : 0 < e := resolution_pos digits
  have small : e ≤ 1 := resolution_le_one positive
  have nonneg : 0 ≤ e / 10 ^ 10 := by positivity
  have below : e / 10 ^ 10 < 1 := by
    norm_num
    linarith
  have few : ((n.natAbs + 1 : ℕ) : ℚ) * (e / 10 ^ 10) ≤ e / 5000 := by
    have count : ((n.natAbs + 1 : ℕ) : ℚ) ≤ 1000001 := by
      have limit : n.natAbs + 1 ≤ 1000001 := by
        rw [maxIntegerExponent, Int.abs_eq_natAbs] at bounded
        omega
      exact_mod_cast limit
    calc ((n.natAbs + 1 : ℕ) : ℚ) * (e / 10 ^ 10) ≤ 1000001 * (e / 10 ^ 10) :=
          mul_le_mul_of_nonneg_right count nonneg
      _ ≤ e / 5000 := by linarith
  have close := near.abs_sub_le nonneg below few (by linarith)
  linarith

theorem abs_powerBy_sub_le :
    |(powerBy cut digits x n).toRat - x.toRat ^ n| ≤ 2 * resolution digits * |x.toRat ^ n| := by
  have gathered := abs_carriedBy_sub_le cuts positive something bounded
  set carried := carriedBy cut (digits + guardDigits) x n with carried_eq
  set e := resolution digits with e_eq
  have e_pos : 0 < e := resolution_pos digits
  have small : e ≤ 1 := resolution_le_one positive
  have last : |(cut carried digits).toRat - carried.toRat| ≤ e * |carried.toRat| := by
    rw [mul_comm]
    exact cuts.abs_sub_le carried digits
  have size : |carried.toRat| ≤ (1 + e / 2500) * |x.toRat ^ n| := by
    have triangle := abs_sub_abs_le_abs_sub carried.toRat (x.toRat ^ n)
    linarith
  have relative : e * (1 + e / 2500) + e / 2500 ≤ 2 * e := by
    have square : e * e ≤ e * 1 := mul_le_mul_of_nonneg_left small e_pos.le
    linarith
  calc |(cut carried digits).toRat - x.toRat ^ n|
      ≤ |(cut carried digits).toRat - carried.toRat| + |carried.toRat - x.toRat ^ n| :=
        abs_sub_le _ _ _
    _ ≤ e * ((1 + e / 2500) * |x.toRat ^ n|) + e / 2500 * |x.toRat ^ n| :=
        add_le_add (last.trans (mul_le_mul_of_nonneg_left size e_pos.le)) gathered
    _ = (e * (1 + e / 2500) + e / 2500) * |x.toRat ^ n| := by ring
    _ ≤ 2 * e * |x.toRat ^ n| := mul_le_mul_of_nonneg_right relative (abs_nonneg _)

end

/-- The digits of a power, apart from zeros at the end, are those of the power of the digits: an
    integer that does not end in zero has no power that does. -/
theorem natAbs_pow_lt {m k : ℤ} {n digits : ℕ} (last : ¬ (10 : ℤ) ∣ m) (positive : n ≠ 0)
    (written : Decimal.WrittenWith digits ((m * 10 ^ k) ^ n)) : (m ^ n).natAbs < 10 ^ digits := by
  obtain ⟨c, l, room, same⟩ := written
  have powers : ((m ^ n : ℤ) : ℚ) * 10 ^ (k * n) = c * 10 ^ l := by
    rw [← same, mul_pow, zpow_mul, zpow_natCast, Int.cast_pow]
  rcases le_or_gt l (k * n) with order | order
  · -- The digits given have zeros at the end, or are the digits of the power.
    obtain ⟨zeros, shift⟩ := Int.le.dest order
    have product : c = m ^ n * 10 ^ zeros := by
      have cancelled : (c : ℚ) * 10 ^ l = ((m ^ n * 10 ^ zeros : ℤ) : ℚ) * 10 ^ l := by
        rw [← powers, ← shift, Decimal.ten_zpow_add, zpow_natCast]
        push_cast
        ring
      exact_mod_cast mul_right_cancel₀ (Decimal.ten_zpow_ne_zero l) cancelled
    refine lt_of_le_of_lt ?_ room
    rw [product, Int.natAbs_mul]
    exact Nat.le_mul_of_pos_right _ (Int.natAbs_pos.mpr (by positivity))
  · obtain ⟨zeros, shift⟩ := Int.lt.dest order
    have product : m ^ n = c * 10 ^ (zeros + 1) := by
      have cancelled : ((m ^ n : ℤ) : ℚ) * 10 ^ (k * n) =
          ((c * 10 ^ (zeros + 1) : ℤ) : ℚ) * 10 ^ (k * n) := by
        have places : l = k * n + (zeros + 1 : ℕ) := by omega
        rw [powers, places, Decimal.ten_zpow_add, zpow_natCast]
        push_cast
        ring
      exact_mod_cast mul_right_cancel₀ (Decimal.ten_zpow_ne_zero _) cancelled
    have divides : (10 : ℤ) ∣ m ^ n := ⟨c * 10 ^ zeros, by rw [product]; ring⟩
    have squarefree : Squarefree (10 : ℤ) := by
      rw [← Int.squarefree_natAbs]
      decide +kernel
    exact absurd ((squarefree.dvd_pow_iff_dvd positive).mp divides) last

/-- A power that can be written with the digits of the results is exact, whichever way of cutting is
    used. -/
theorem toRat_powerBy_of_written {cut : Decimal → ℕ → Decimal} (cuts : Decimal.Cut cut) {x : Decimal}
    (something : x.toRat ≠ 0) {n : ℤ} (positive : 0 < n) {digits : ℕ}
    (written : Decimal.WrittenWith digits (x.toRat ^ n)) :
    (powerBy cut digits x n).toRat = x.toRat ^ n := by
  obtain ⟨n, rfl⟩ := Int.eq_ofNat_of_zero_le positive.le
  rw [zpow_natCast] at written ⊢
  have base_eq : x.toRat = x.normalize.mantissa * 10 ^ (-x.normalize.scale) :=
    x.toRat_normalize.symm
  have mantissa : x.normalize.mantissa ≠ 0 := by
    intro nothing
    rw [base_eq, nothing, Int.cast_zero, zero_mul] at something
    exact something rfl
  have fits : (x.normalize.mantissa ^ n).natAbs < 10 ^ digits := by
    rw [base_eq] at written
    exact natAbs_pow_lt (Decimal.normalize_last something) (by omega) written
  have wider : (x.normalize.mantissa ^ n).natAbs < 10 ^ (digits + guardDigits) :=
    fits.trans_le (Nat.pow_le_pow_right (by decide) (by omega))
  have carried : (carriedBy cut (digits + guardDigits) x n).toRat = x.toRat ^ n := by
    rw [carriedBy, if_neg (by omega), Int.natAbs_natCast]
    exact toRat_integerPowerBy cuts base_eq mantissa wider
  rw [powerBy, cuts.toRat_of_written (by rwa [carried]), carried]

end Formulary.Calculator
