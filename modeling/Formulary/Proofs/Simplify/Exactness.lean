import Mathlib.Algebra.Order.Field.Power
import Formulary.Simplify.Exactness
import Formulary.Proofs.Binary.Layout
import Formulary.Proofs.Decimal.Order

namespace Formulary

/-! Which decimals are 32-bit floats. A float is an odd integer times a power of two; a decimal
    is one when its digits have all the fives that the power of ten below them has. -/

open Binary

/-! Odd parts. -/

theorem Binary.Finite.spareBits_spec {fuel n : ℕ} (something : n ≠ 0) (enough : n < 2 ^ fuel) :
    ∃ odd, odd % 2 = 1 ∧ n = odd * 2 ^ spareBits fuel n := by
  induction fuel generalizing n with
  | zero => omega
  | succ fuel ih =>
    rw [spareBits]
    split
    · rename_i even
      have even := beq_iff_eq.mp even
      rw [Nat.pow_succ] at enough
      obtain ⟨odd, last, half⟩ := ih (n := n / 2) (by omega) (by omega)
      refine ⟨odd, last, ?_⟩
      calc n = 2 * (n / 2) := by omega
        _ = 2 * (odd * 2 ^ spareBits fuel (n / 2)) := by rw [← half]
        _ = odd * 2 ^ (spareBits fuel (n / 2) + 1) := by ring
    · rename_i odd
      exact ⟨n, by simpa using odd, by simp⟩

namespace Decimal

theorem bitLength_le_iff {n k : ℕ} : bitLength n ≤ k ↔ n < 2 ^ k := by
  unfold bitLength
  split
  · rename_i nothing
    simp [nothing]
  · rename_i something
    exact Nat.log2_lt something

theorem bitLength_mul_two_pow {n : ℕ} (something : n ≠ 0) (shift : ℕ) :
    bitLength (n * 2 ^ shift) = bitLength n + shift := by
  induction shift with
  | zero => simp
  | succ shift ih =>
    have product : n * 2 ^ shift ≠ 0 := Nat.mul_ne_zero something (by positivity)
    have double : n * 2 ^ (shift + 1) = 2 * (n * 2 ^ shift) := by ring
    rw [← Nat.add_assoc, ← ih, double]
    simp only [bitLength, if_neg product, if_neg (Nat.mul_ne_zero two_ne_zero product),
      Nat.log2_two_mul product]

end Decimal

namespace Binary.Layout

variable {layout : Layout} {q : ℚ}

/-- Of two ways to write a number, the one with the smaller exponent has the longer mantissa. -/
theorem mantissa_eq {a b : ℕ} {j k : ℤ} (order : k ≤ j) (same : (a : ℚ) * 2 ^ j = b * 2 ^ k) :
    b = a * 2 ^ (j - k).toNat := by
  have exponent : j = ((j - k).toNat : ℤ) + k := by omega
  rw [exponent, zpow_add₀ (by norm_num), zpow_natCast, ← mul_assoc] at same
  have product := mul_right_cancel₀ (zpow_ne_zero k (by norm_num)) same
  exact_mod_cast product.symm

/-- An odd integer times a power of two is a number of the format when it has few enough bits and
    neither its last bit nor its first lies outside. -/
theorem represents_odd_iff {odd : ℕ} {lowest : ℤ} (last : odd % 2 = 1)
    (order : layout.minExponent ≤ layout.maxExponent) :
    layout.Represents (odd * 2 ^ lowest) ↔ Decimal.bitLength odd ≤ layout.fractionBits + 1 ∧
      layout.minExponent ≤ lowest ∧
        lowest + Decimal.bitLength odd ≤ layout.maxExponent + (layout.fractionBits + 1) := by
  have something : odd ≠ 0 := by omega
  constructor
  · rintro ⟨m, k, short, low, high, same⟩
    have natural : (odd : ℚ) * 2 ^ lowest = m.natAbs * 2 ^ k := by
      have magnitude := congrArg abs same
      rwa [abs_mul, abs_mul, abs_zpow, abs_zpow, abs_two, Nat.abs_cast, ← Int.cast_abs,
        ← Nat.cast_natAbs] at magnitude
    have bits : Decimal.bitLength m.natAbs ≤ layout.fractionBits + 1 := by
      rw [Decimal.bitLength_le_iff]
      rw [Int.abs_eq_natAbs] at short
      exact_mod_cast short
    -- A larger exponent would make the odd integer even.
    have exponents : k ≤ lowest := by
      by_contra larger
      have even := mantissa_eq (by omega) natural.symm
      obtain ⟨places, positive⟩ : ∃ places, (k - lowest).toNat = places + 1 :=
        ⟨(k - lowest).toNat - 1, by omega⟩
      rw [positive, Nat.pow_succ, ← Nat.mul_assoc] at even
      omega
    rw [mantissa_eq exponents natural, Decimal.bitLength_mul_two_pow something] at bits
    omega
  · rintro ⟨bits, low, high⟩
    let k := min lowest layout.maxExponent
    refine ⟨odd * 2 ^ (lowest - k).toNat, k, ?_, by omega, by omega, ?_⟩
    · have short : odd * 2 ^ (lowest - k).toNat < 2 ^ (layout.fractionBits + 1) := by
        rw [← Decimal.bitLength_le_iff, Decimal.bitLength_mul_two_pow something]
        omega
      rw [abs_of_nonneg (by positivity)]
      exact_mod_cast short
    · have exponent : lowest = ((lowest - k).toNat : ℤ) + k := by omega
      push_cast
      rw [mul_assoc, ← zpow_natCast, ← zpow_add₀ (by norm_num), ← exponent]

theorem Represents.lt (represents : layout.Represents q) :
    |q| < 2 ^ (layout.maxExponent + (layout.fractionBits + 1)) := by
  obtain ⟨m, k, short, low, high, rfl⟩ := represents
  have natural : (|m| : ℚ) < 2 ^ (layout.fractionBits + 1) := by exact_mod_cast short
  rw [abs_mul, abs_of_pos (by positivity : (0 : ℚ) < 2 ^ k)]
  calc |(m : ℚ)| * 2 ^ k < 2 ^ (layout.fractionBits + 1) * 2 ^ k :=
        mul_lt_mul_of_pos_right natural (by positivity)
    _ ≤ 2 ^ (layout.fractionBits + 1) * 2 ^ layout.maxExponent :=
        mul_le_mul_of_nonneg_left (zpow_le_zpow_right₀ (by norm_num) high) (by positivity)
    _ = 2 ^ (layout.maxExponent + (layout.fractionBits + 1)) := by
        rw [zpow_add₀ (by norm_num), mul_comm]
        norm_cast

/-- A number of a format has no fives in its denominator. -/
theorem Represents.five_pow_dvd {digits scale : ℕ}
    (represents : layout.Represents (digits * 10 ^ (-(scale : ℤ)))) : 5 ^ scale ∣ digits := by
  obtain ⟨m, k, -, -, -, same⟩ := represents
  have product : (digits : ℚ) * 2 ^ (-k).toNat = m * 2 ^ k.toNat * 10 ^ scale := by
    have parts : k = (k.toNat : ℤ) - ((-k).toNat : ℤ) := by omega
    rw [parts, zpow_sub₀ (by norm_num), zpow_neg, zpow_natCast, zpow_natCast, zpow_natCast] at same
    field_simp at same
    linarith
  have integers : (digits : ℤ) * 2 ^ (-k).toNat = m * 2 ^ k.toNat * 10 ^ scale := by
    exact_mod_cast product
  have divides : (5 : ℤ) ^ scale ∣ digits * 2 ^ (-k).toNat := by
    rw [integers]
    exact (pow_dvd_pow_of_dvd (by decide) scale).mul_left _
  have natural : 5 ^ scale ∣ digits * 2 ^ (-k).toNat := by exact_mod_cast divides
  exact (Nat.Coprime.pow scale (-k).toNat (by decide)).dvd_of_dvd_mul_right natural

end Binary.Layout

namespace Decimal

theorem fitsSingle_iff {mantissa : ℕ} (something : mantissa ≠ 0) (exponent : ℤ) :
    fitsSingle mantissa exponent = true ↔ single.Represents (mantissa * 2 ^ exponent) := by
  obtain ⟨odd, last, product⟩ :=
    Finite.spareBits_spec something (bitLength_le_iff.mp (le_refl (bitLength mantissa)))
  unfold fitsSingle
  dsimp only
  generalize Finite.spareBits (bitLength mantissa) mantissa = twos at product
  have quotient : mantissa / 2 ^ twos = odd := by
    rw [product, Nat.mul_div_cancel _ (by positivity)]
  have moved : (mantissa : ℚ) * 2 ^ exponent = odd * 2 ^ (exponent + twos) := by
    rw [product, zpow_add₀ (by norm_num), zpow_natCast]
    push_cast
    ring
  rw [quotient, moved, Layout.represents_odd_iff last (by decide)]
  simp only [Bool.and_eq_true, decide_eq_true_eq, and_assoc]
  rfl

theorem ten_zpow_eq (k : ℤ) : (10 : ℚ) ^ k = 5 ^ k * 2 ^ k := by
  rw [← mul_zpow]
  norm_num

/-- A number with digits behind the point is a float when its digits have all the fives of the
    power of ten and what is left without them is one. -/
theorem represents_fraction_iff {digits scale : ℕ} :
    single.Represents (digits * 10 ^ (-(scale : ℤ))) ↔ digits % 5 ^ scale = 0 ∧
      single.Represents ((digits / 5 ^ scale : ℕ) * 2 ^ (-(scale : ℤ))) := by
  rw [← Nat.dvd_iff_mod_eq_zero]
  have moved : ∀ part : ℕ, ((part * 5 ^ scale : ℕ) : ℚ) * 10 ^ (-(scale : ℤ)) =
      part * 2 ^ (-(scale : ℤ)) := by
    intro part
    rw [ten_zpow_eq, zpow_neg, zpow_natCast]
    push_cast
    field_simp
  constructor
  · intro represents
    have divides := represents.five_pow_dvd
    refine ⟨divides, ?_⟩
    rwa [← moved, Nat.div_mul_cancel divides]
  · rintro ⟨divides, represents⟩
    rwa [← moved, Nat.div_mul_cancel divides] at represents

theorem represents_single_iff {q : ℚ} : single.Represents q ↔
    ∃ m k : ℤ, |m| < 2 ^ 24 ∧ -149 ≤ k ∧ k ≤ 104 ∧ q = m * 2 ^ k := by
  have bits : single.fractionBits + 1 = 24 := rfl
  have low : single.minExponent = -149 := rfl
  have high : single.maxExponent = 104 := by decide
  rw [Layout.Represents, bits, low, high]

theorem abs_toRat_eq (d : Decimal) :
    |d.toRat| = d.mantissa.natAbs * 10 ^ (-d.scale) := by
  rw [← toRat_abs]
  simp [Decimal.abs]

/-- Without trailing zeros, a float has no more places than its least exponent has bits, and no
    more zeros in front of the point than its first bit leaves room for. -/
theorem scale_le_of_represents {d : Decimal} (last : ¬ (10 : ℤ) ∣ d.mantissa)
    (represents : single.Represents d.toRat) : d.scale.natAbs ≤ singleScaleLimit := by
  have digit : ¬ 10 ∣ d.mantissa.natAbs := fun divides => last (Int.natCast_dvd.mpr divides)
  rcases lt_or_ge 0 d.scale with fraction | whole
  · obtain ⟨places, scale⟩ := Int.eq_ofNat_of_zero_le fraction.le
    rw [← Layout.represents_abs, abs_toRat_eq, scale, represents_fraction_iff] at represents
    obtain ⟨fives, represents⟩ := represents
    have odd : d.mantissa.natAbs / 5 ^ places % 2 = 1 := by
      by_contra even
      have two : 2 ∣ d.mantissa.natAbs / 5 ^ places := by omega
      have five : 5 ∣ 5 ^ places := dvd_pow_self 5 (by omega)
      have ten := Nat.mul_dvd_mul two five
      rw [Nat.div_mul_cancel (Nat.dvd_of_mod_eq_zero fives)] at ten
      exact digit ten
    obtain ⟨-, low, -⟩ := (Layout.represents_odd_iff odd (by decide)).mp represents
    have least : single.minExponent = -149 := rfl
    unfold singleScaleLimit
    omega
  · obtain ⟨zeros, scale⟩ := Int.eq_ofNat_of_zero_le (by omega : 0 ≤ -d.scale)
    have first : single.maxExponent + (single.fractionBits + 1) = ((128 : ℕ) : ℤ) := rfl
    have bound := represents.lt
    rw [abs_toRat_eq, scale, first, zpow_natCast, zpow_natCast] at bound
    have natural : d.mantissa.natAbs * 10 ^ zeros < 2 ^ 128 := by exact_mod_cast bound
    have positive : 0 < d.mantissa.natAbs :=
      Nat.pos_of_ne_zero fun nothing => digit (by simp [nothing])
    by_contra beyond
    unfold singleScaleLimit at beyond
    have large : 10 ^ 160 ≤ 10 ^ zeros := Nat.pow_le_pow_right (by decide) (by omega)
    have product := Nat.le_mul_of_pos_left (10 ^ zeros) positive
    have tiny : 2 ^ 128 < 10 ^ 160 := by decide +kernel
    omega

theorem exactInSingle_iff_represents (d : Decimal) :
    d.exactInSingle = true ↔ single.Represents d.toRat := by
  rcases eq_or_ne d.toRat 0 with nothing | something
  · rw [nothing, exactInSingle, normalize_of_zero nothing]
    exact ⟨fun _ => represents_single_iff.mpr ⟨0, 0, by simp⟩, fun _ => rfl⟩
  have last := normalize_last something
  rw [exactInSingle, ← toRat_normalize]
  dsimp only
  generalize d.normalize = reduced at last
  have digits : reduced.mantissa.natAbs ≠ 0 := fun nothing =>
    last (by simp [Int.natAbs_eq_zero.mp nothing])
  rw [if_neg digits]
  split
  · rename_i beyond
    refine ⟨fun impossible => Bool.noConfusion impossible, fun represents => ?_⟩
    exact absurd (scale_le_of_represents last represents) (by omega)
  rw [← Layout.represents_abs, abs_toRat_eq]
  split
  · rename_i fraction
    obtain ⟨places, scale⟩ := Int.eq_ofNat_of_zero_le fraction.le
    rw [scale, represents_fraction_iff, Int.natAbs_natCast, Bool.and_eq_true, beq_iff_eq]
    refine and_congr_right fun fives => fitsSingle_iff ?_ _
    intro nothing
    have product := Nat.div_mul_cancel (Nat.dvd_of_mod_eq_zero fives)
    rw [nothing, Nat.zero_mul] at product
    exact digits product.symm
  · rename_i whole
    obtain ⟨zeros, scale⟩ := Int.eq_ofNat_of_zero_le (by omega : 0 ≤ -reduced.scale)
    have count : reduced.scale.natAbs = zeros := by omega
    rw [count, scale, fitsSingle_iff (Nat.mul_ne_zero digits (by positivity))]
    rw [ten_zpow_eq, zpow_natCast, zpow_natCast]
    push_cast
    rw [mul_assoc]

/-- A decimal is taken for a float exactly when it is one: an integer of less than 25 bits times a
    power of two between the limits, which is the number of some bit pattern. The limit on the
    scale refuses none of them. -/
theorem exactInSingle_iff (d : Decimal) :
    (d.exactInSingle = true ↔
      ∃ m k : ℤ, |m| < 2 ^ 24 ∧ -149 ≤ k ∧ k ≤ 104 ∧ d.toRat = m * 2 ^ k) ∧
    (d.exactInSingle = true ↔
      ∃ bits < 2 ^ 32, ∃ number, unpack single bits = .finite number ∧ number.toRat = d.toRat) ∧
    (single.Represents d.toRat → d.normalize.scale.natAbs ≤ singleScaleLimit) := by
  refine ⟨by rw [exactInSingle_iff_represents, represents_single_iff], ?_, fun represents => ?_⟩
  · rw [exactInSingle_iff_represents]
    exact represents_iff_unpack (by decide)
  · rcases eq_or_ne d.toRat 0 with nothing | something
    · rw [normalize_of_zero nothing]
      decide
    · refine scale_le_of_represents (normalize_last something) ?_
      rwa [toRat_normalize]

/-- The least positive float, with a zero at its end. -/
def leastSingle : Decimal := ⟨10 * 5 ^ 149, 150⟩

theorem leastSingle_exact :
    single.Represents leastSingle.toRat ∧ leastSingle.exactInSingle = true ∧
      leastSingle.normalize.scale.natAbs ≤ singleScaleLimit := by
  have represents : single.Represents leastSingle.toRat := by
    refine represents_single_iff.mpr ⟨1, -149, by decide, by decide, by decide, ?_⟩
    norm_num [leastSingle]
  obtain ⟨exact, -, limit⟩ := exactInSingle_iff leastSingle
  exact ⟨represents, exact.mpr (represents_single_iff.mp represents), limit represents⟩

end Decimal

end Formulary
