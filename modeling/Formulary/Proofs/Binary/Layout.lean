import Mathlib.Algebra.Order.Field.Power
import Mathlib.Algebra.Order.Field.Rat
import Mathlib.Tactic.FieldSimp
import Mathlib.Tactic.Linarith
import Mathlib.Tactic.NormNum
import Mathlib.Tactic.Positivity
import Mathlib.Tactic.Ring
import Formulary.Binary.Basic

namespace Formulary.Binary

/-! The numbers of a binary format: the integers with few enough bits, times a power of two
    between two limits. Each of them has a bit pattern, and the patterns stand for no others. -/

namespace Finite

/-- The number of an unpacked bit pattern. -/
def toRat (number : Finite) : ℚ := number.signed number.mantissa * 2 ^ number.exponent

theorem natAbs_signed (number : Finite) (magnitude : ℕ) :
    (number.signed magnitude).natAbs = magnitude := by
  unfold signed
  split <;> simp

theorem toRat_eq (number : Finite) :
    number.toRat =
      (if number.negative then -1 else 1) * (number.mantissa * 2 ^ number.exponent) := by
  unfold toRat signed
  split
  · push_cast
    ring
  · push_cast
    ring

end Finite

namespace Layout

/-- Exponent of the last place of the largest numbers. -/
def maxExponent (layout : Layout) : ℤ := layout.minExponent + layout.specialExponent - 2

/-- Whether a number is one of the format. -/
def Represents (layout : Layout) (q : ℚ) : Prop :=
  ∃ m k : ℤ, |m| < 2 ^ (layout.fractionBits + 1) ∧ layout.minExponent ≤ k ∧
    k ≤ layout.maxExponent ∧ q = m * 2 ^ k

/-- The bit pattern of a sign, an exponent field and a fraction. -/
def pattern (layout : Layout) (negative : Bool) (field fraction : ℕ) : ℕ :=
  (if negative then 2 ^ (layout.fractionBits + layout.exponentBits) else 0) +
    field * 2 ^ layout.fractionBits + fraction

/-- The magnitude that an exponent field and a fraction stand for. -/
def magnitude (layout : Layout) (field fraction : ℕ) : ℚ :=
  if field = 0 then fraction * 2 ^ layout.minExponent
  else (2 ^ layout.fractionBits + fraction : ℕ) * 2 ^ (layout.minExponent + field - 1)

variable {layout : Layout} {q : ℚ} {field fraction : ℕ}

theorem Represents.neg (represents : layout.Represents q) : layout.Represents (-q) := by
  obtain ⟨m, k, short, low, high, rfl⟩ := represents
  refine ⟨-m, k, by rwa [abs_neg], low, high, ?_⟩
  push_cast
  ring

theorem represents_abs : layout.Represents |q| ↔ layout.Represents q := by
  rcases abs_choice q with same | opposite
  · rw [same]
  · rw [opposite]
    exact ⟨fun represents => neg_neg q ▸ represents.neg, Represents.neg⟩

theorem specialExponent_ge (wide : 2 ≤ layout.exponentBits) : 3 ≤ layout.specialExponent := by
  have power : 2 ^ 2 ≤ 2 ^ layout.exponentBits := Nat.pow_le_pow_right (by decide) wide
  unfold specialExponent
  omega

theorem pattern_eq (negative : Bool) (field fraction : ℕ) :
    layout.pattern negative field fraction = 2 ^ layout.fractionBits *
      (2 ^ layout.exponentBits * (if negative then 1 else 0) + field) + fraction := by
  rw [pattern, Nat.pow_add]
  split <;> ring

theorem pattern_lt (negative : Bool) (small : field < layout.specialExponent)
    (part : fraction < 2 ^ layout.fractionBits) :
    layout.pattern negative field fraction <
      2 ^ (layout.fractionBits + layout.exponentBits + 1) := by
  have room : field + 1 ≤ 2 ^ layout.exponentBits := by
    unfold specialExponent at small
    omega
  have upper : 2 ^ layout.exponentBits * (if negative then 1 else 0) + field + 1 ≤
      2 ^ layout.exponentBits * 2 := by
    split <;> omega
  calc layout.pattern negative field fraction
      < 2 ^ layout.fractionBits *
          (2 ^ layout.exponentBits * (if negative then 1 else 0) + field + 1) := by
        rw [pattern_eq, Nat.mul_succ]
        omega
    _ ≤ 2 ^ layout.fractionBits * (2 ^ layout.exponentBits * 2) := Nat.mul_le_mul_left _ upper
    _ = 2 ^ (layout.fractionBits + layout.exponentBits + 1) := by ring

end Layout

variable {layout : Layout}

theorem unpack_pattern (negative : Bool) {field fraction : ℕ}
    (small : field < layout.specialExponent) (part : fraction < 2 ^ layout.fractionBits) :
    ∃ number, unpack layout (layout.pattern negative field fraction) = .finite number ∧
      number.toRat = (if negative then -1 else 1) * layout.magnitude field fraction := by
  set upper := 2 ^ layout.exponentBits * (if negative then 1 else 0) + field with upper_eq
  have room : field < 2 ^ layout.exponentBits := small.trans_le (Nat.sub_le _ _)
  obtain ⟨rest, lowest⟩ := (Nat.div_mod_unique (Nat.zero_lt_of_lt part)).mpr
    ⟨(Nat.add_comm _ _).trans (Layout.pattern_eq negative field fraction).symm, part⟩
  obtain ⟨highest, middle⟩ := (Nat.div_mod_unique (Nat.zero_lt_of_lt room)).mpr
    ⟨(Nat.add_comm _ _).trans upper_eq.symm, room⟩
  have sign : ((if negative then 1 else 0) % 2 == 1) = negative := by cases negative <;> rfl
  rw [unpack, lowest, Nat.pow_add, ← Nat.div_div_eq_div_mul, rest, middle, highest, sign]
  simp only [beq_iff_eq, if_neg small.ne]
  unfold Layout.magnitude
  split
  · exact ⟨_, rfl, Finite.toRat_eq _⟩
  · exact ⟨_, rfl, Finite.toRat_eq _⟩

theorem represents_unpack (wide : 2 ≤ layout.exponentBits) {bits : ℕ} {number : Finite}
    (finite : unpack layout bits = .finite number) : layout.Represents number.toRat := by
  have special := layout.specialExponent_ge wide
  have part : bits % 2 ^ layout.fractionBits < 2 ^ layout.fractionBits :=
    Nat.mod_lt _ (by positivity)
  have small : bits / 2 ^ layout.fractionBits % 2 ^ layout.exponentBits < 2 ^ layout.exponentBits :=
    Nat.mod_lt _ (by positivity)
  suffices bounds : number.mantissa < 2 ^ (layout.fractionBits + 1) ∧
      layout.minExponent ≤ number.exponent ∧ number.exponent ≤ layout.maxExponent by
    refine ⟨_, _, ?_, bounds.2.1, bounds.2.2, rfl⟩
    rw [Int.abs_eq_natAbs, number.natAbs_signed]
    exact_mod_cast bounds.1
  unfold unpack at finite
  dsimp only at finite
  rw [pow_succ, Layout.maxExponent]
  split at finite
  · split at finite <;> cases finite
  rename_i regular
  have below : bits / 2 ^ layout.fractionBits % 2 ^ layout.exponentBits <
      layout.specialExponent := by
    have other := beq_iff_eq.not.mp regular
    unfold Layout.specialExponent at other ⊢
    omega
  split at finite
  · cases finite
    dsimp only
    omega
  · rename_i normal
    have positive := beq_iff_eq.not.mp normal
    cases finite
    dsimp only
    omega

/-- Packing moves the first bit of the mantissa to its place, or stops at the least exponent. -/
theorem shifted_spec {mantissa shift : ℕ} {exponent : ℤ} (something : mantissa ≠ 0)
    (short : mantissa < 2 ^ (layout.fractionBits + 1)) (low : layout.minExponent ≤ exponent)
    (shift_eq : min (layout.fractionBits - mantissa.log2) (exponent - layout.minExponent).toNat =
      shift) :
    mantissa * 2 ^ shift < 2 ^ (layout.fractionBits + 1) ∧
      layout.minExponent ≤ exponent - shift ∧
        (mantissa * 2 ^ shift < 2 ^ layout.fractionBits →
          exponent - shift = layout.minExponent) := by
  have first : mantissa.log2 ≤ layout.fractionBits :=
    Nat.lt_succ_iff.mp ((Nat.log2_lt something).mpr short)
  refine ⟨?_, by omega, fun subnormal => ?_⟩
  · calc mantissa * 2 ^ shift < 2 ^ (mantissa.log2 + 1) * 2 ^ shift :=
          Nat.mul_lt_mul_of_pos_right Nat.lt_log2_self (by positivity)
      _ = 2 ^ (mantissa.log2 + 1 + shift) := (Nat.pow_add _ _ _).symm
      _ ≤ 2 ^ (layout.fractionBits + 1) := Nat.pow_le_pow_right (by decide) (by omega)
  · by_contra higher
    have normal : 2 ^ layout.fractionBits ≤ mantissa * 2 ^ shift :=
      calc 2 ^ layout.fractionBits = 2 ^ mantissa.log2 * 2 ^ shift := by
            rw [← Nat.pow_add]
            congr 1
            omega
        _ ≤ mantissa * 2 ^ shift := Nat.mul_le_mul_right _ (Nat.log2_self_le something)
    omega

theorem pack_eq_pattern (negative : Bool) {mantissa : ℕ} {exponent : ℤ}
    (wide : 2 ≤ layout.exponentBits) (short : mantissa < 2 ^ (layout.fractionBits + 1))
    (low : layout.minExponent ≤ exponent) (high : exponent ≤ layout.maxExponent) :
    ∃ field < layout.specialExponent, ∃ fraction < 2 ^ layout.fractionBits,
      pack layout negative mantissa exponent = layout.pattern negative field fraction ∧
        layout.magnitude field fraction = mantissa * 2 ^ exponent := by
  have special := layout.specialExponent_ge wide
  unfold pack Layout.pattern Layout.magnitude
  dsimp only
  split
  · rename_i nothing
    exact ⟨0, by omega, 0, by positivity, by simp, by simp [beq_iff_eq.mp nothing]⟩
  rename_i something
  generalize shift_eq : min (layout.fractionBits - mantissa.log2)
    (exponent - layout.minExponent).toNat = shift
  obtain ⟨fits, above, subnormal⟩ := shifted_spec (beq_iff_eq.not.mp something) short low shift_eq
  have moved : ((mantissa * 2 ^ shift : ℕ) : ℚ) * 2 ^ (exponent - shift) =
      mantissa * 2 ^ exponent := by
    rw [zpow_sub₀ (by norm_num), zpow_natCast]
    push_cast
    field_simp
  split
  · rename_i small
    exact ⟨0, by omega, _, small, by simp, by rw [if_pos rfl, ← moved, subnormal small]⟩
  · rename_i large
    have field : (exponent - shift - layout.minExponent).toNat + 1 < layout.specialExponent := by
      unfold Layout.maxExponent at high
      omega
    have part : mantissa * 2 ^ shift - 2 ^ layout.fractionBits < 2 ^ layout.fractionBits := by
      rw [pow_succ] at fits
      omega
    have mantissa_eq : 2 ^ layout.fractionBits + (mantissa * 2 ^ shift - 2 ^ layout.fractionBits) =
        mantissa * 2 ^ shift := by omega
    have exponent_eq : layout.minExponent +
        (((exponent - shift - layout.minExponent).toNat + 1 : ℕ) : ℤ) - 1 = exponent - shift := by
      omega
    refine ⟨_, field, _, part, rfl, ?_⟩
    rw [if_neg (by omega), mantissa_eq, exponent_eq, moved]

/-- The numbers of a format are those of its bit patterns. -/
theorem represents_iff_unpack (wide : 2 ≤ layout.exponentBits) {q : ℚ} :
    layout.Represents q ↔ ∃ bits < 2 ^ (layout.fractionBits + layout.exponentBits + 1),
      ∃ number, unpack layout bits = .finite number ∧ number.toRat = q := by
  constructor
  · rintro ⟨m, k, short, low, high, rfl⟩
    have natural : m.natAbs < 2 ^ (layout.fractionBits + 1) := by
      rw [Int.abs_eq_natAbs] at short
      exact_mod_cast short
    obtain ⟨field, small, fraction, part, packed, same⟩ :=
      pack_eq_pattern (decide (m < 0)) wide natural low high
    obtain ⟨number, unpacked, value⟩ := unpack_pattern (decide (m < 0)) small part
    refine ⟨_, Layout.pattern_lt _ small part, number, unpacked, ?_⟩
    rw [value, same, ← mul_assoc, Nat.cast_natAbs]
    rcases lt_or_ge m 0 with below | above
    · rw [if_pos (by simpa using below), abs_of_neg below, Int.cast_neg, neg_one_mul, neg_neg]
    · rw [if_neg (by simpa using above), abs_of_nonneg above, one_mul]
  · rintro ⟨bits, -, number, unpacked, rfl⟩
    exact represents_unpack wide unpacked

end Formulary.Binary
