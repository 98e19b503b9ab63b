import Mathlib.Order.Bounds.Defs
import Formulary.Evaluation.Math
import Formulary.Proofs.Decimal.Order

namespace Formulary

/-! Integers next to a decimal. Floor, ceiling and rounding are computed by cutting off digits and
    correcting the result; whatever the sign and the scale of the decimal, they give the integers
    that are next to its number, written without places behind the point. -/

/-- No integer is nearer, and one that is as near is no farther from zero. -/
structure IsNearest (q : ℚ) (n : ℤ) : Prop where
  nearest : ∀ k : ℤ, |q - n| ≤ |q - k|
  away : ∀ k : ℤ, |q - k| = |q - n| → |k| ≤ |n|

namespace IsNearest

variable {q : ℚ} {m n : ℤ}

theorem of_nonneg (nonneg : 0 ≤ q) : IsNearest q ⌊q + 1 / 2⌋ := by
  have low := Int.floor_le (q + 1 / 2)
  have high := Int.lt_floor_add_one (q + 1 / 2)
  generalize ⌊q + 1 / 2⌋ = n at low high
  have near : |q - n| ≤ 1 / 2 := abs_le.mpr ⟨by linarith, by linarith⟩
  have below : ∀ k : ℤ, k < n → 1 / 2 ≤ |q - k| := by
    intro k less
    have step : (k : ℚ) + 1 ≤ n := by exact_mod_cast less
    exact le_abs.mpr (.inl (by linarith))
  have above : ∀ k : ℤ, n < k → 1 / 2 < |q - k| := by
    intro k greater
    have step : (n : ℚ) + 1 ≤ k := by exact_mod_cast greater
    exact lt_abs.mpr (.inr (by linarith))
  refine ⟨fun k => ?_, fun k tie => ?_⟩
  · rcases lt_trichotomy k n with less | rfl | greater
    · exact near.trans (below k less)
    · exact le_refl _
    · exact near.trans (above k greater).le
  · rcases lt_trichotomy k n with less | rfl | greater
    · -- The number lies halfway between two integers that are not negative.
      have close := (le_abs_self (q - k)).trans (tie.le.trans near)
      have positive : (-1 : ℚ) < k := by linarith
      have nonnegative : 0 ≤ k := by
        have : -1 < k := by exact_mod_cast positive
        omega
      rw [abs_of_nonneg nonnegative, abs_of_nonneg (nonnegative.trans less.le)]
      exact less.le
    · exact le_refl _
    · exact absurd (tie.le.trans near) (not_le.mpr (above k greater))

theorem neg (near : IsNearest q n) : IsNearest (-q) (-n) := by
  have mirrored : ∀ k : ℤ, |-q - k| = |q - (-k : ℤ)| := by
    intro k
    rw [← abs_neg, neg_sub, sub_neg_eq_add, Int.cast_neg, sub_neg_eq_add, add_comm]
  refine ⟨fun k => ?_, fun k tie => ?_⟩
  · rw [mirrored, mirrored, neg_neg]
    exact near.nearest (-k)
  · rw [mirrored, mirrored, neg_neg] at tie
    rw [abs_neg, ← abs_neg k]
    exact near.away (-k) tie

theorem intCast (n : ℤ) : IsNearest n n := by
  refine ⟨fun k => by simp, fun k tie => ?_⟩
  rw [sub_self, abs_zero, abs_eq_zero, sub_eq_zero, Int.cast_inj] at tie
  rw [tie]

theorem unique (left : IsNearest q m) (right : IsNearest q n) : m = n := by
  have tie : |q - m| = |q - n| := le_antisymm (left.nearest n) (right.nearest m)
  have same : |m| = |n| := le_antisymm (right.away m tie) (left.away n tie.symm)
  rcases abs_eq_abs.mp same with equal | rfl
  · exact equal
  · -- Opposite integers are equally near to zero only, and then zero is nearer.
    have zero : n = 0 := by
      push_cast at tie
      rcases abs_eq_abs.mp tie with equal | opposite
      · have twice : (n : ℚ) = 0 := by linarith
        exact_mod_cast twice
      · obtain rfl : q = 0 := by linarith
        have nearer := right.nearest 0
        simpa using nearer
    rw [zero, neg_zero]

end IsNearest

namespace Decimal

theorem eq_ofInt {d : Decimal} {n : ℤ} (whole : d.scale = 0) (number : d.toRat = n) :
    d = ofInt n := by
  obtain ⟨mantissa, scale⟩ := d
  obtain rfl : scale = 0 := whole
  rw [toRat_mk, neg_zero, zpow_zero, mul_one, Int.cast_inj] at number
  rw [number, ofInt]

theorem scale_floor (d : Decimal) : d.floor.scale = 0 := by
  have whole : d.truncate.scale = 0 := scale_rescale d 0
  unfold floor
  dsimp only
  split
  · rw [sub, addAligned, align, whole]
    rfl
  · exact whole

theorem floor_eq (d : Decimal) : d.floor = ofInt ⌊d.toRat⌋ :=
  eq_ofInt (scale_floor d) (toRat_floor d)

theorem ceil_eq (d : Decimal) : d.ceil = ofInt ⌈d.toRat⌉ :=
  eq_ofInt (scale_floor d.neg) (toRat_ceil d)

theorem round_isNearest (d : Decimal) : ∃ n : ℤ, d.round = ofInt n ∧ IsNearest d.toRat n := by
  unfold round
  split
  · rename_i negative
    have positive : 0 ≤ -d.toRat := (neg_pos.mpr (isNegative_iff.mp negative)).le
    refine ⟨-⌊-d.toRat + 1 / 2⌋, ?_, ?_⟩
    · rw [floor_eq, toRat_addAligned, toRat_neg, toRat_half]
      rfl
    · simpa using (IsNearest.of_nonneg positive).neg
  · rename_i notNegative
    have nonneg : 0 ≤ d.toRat := not_lt.mp (mt isNegative_iff.mpr notNegative)
    refine ⟨⌊d.toRat + 1 / 2⌋, ?_, IsNearest.of_nonneg nonneg⟩
    rw [floor_eq, toRat_add, toRat_half]

end Decimal

namespace MathFunction

theorem apply_floor (calculator : Calculator) (x : Decimal) :
    apply calculator .floor [.decimal x] = .ok (.decimal x.floor) := rfl

theorem apply_ceil (calculator : Calculator) (x : Decimal) :
    apply calculator .ceil [.decimal x] = .ok (.decimal x.ceil) := rfl

theorem apply_round (calculator : Calculator) (x : Decimal) :
    apply calculator .round [.decimal x] = .ok (.decimal x.round) := rfl

/-- The floor of a decimal is the greatest integer that is not above it, the ceiling is the least
    one that is not below it, and rounding gives the nearest one, halves away from zero. So the
    ceiling is opposite to the floor of the opposite decimal, rounding turns opposite decimals into
    opposite integers, and a decimal that denotes an integer keeps it. -/
theorem apply_rounds (calculator : Calculator) (x : Decimal) :
    ∃ low high near : ℤ,
      (apply calculator .floor [.decimal x] = .ok (.decimal (.ofInt low)) ∧
        IsGreatest {n : ℤ | (n : ℚ) ≤ x.toRat} low) ∧
      (apply calculator .ceil [.decimal x] = .ok (.decimal (.ofInt high)) ∧
        IsLeast {n : ℤ | x.toRat ≤ n} high) ∧
      (apply calculator .round [.decimal x] = .ok (.decimal (.ofInt near)) ∧
        IsNearest x.toRat near) ∧
      apply calculator .floor [.decimal x.neg] = .ok (.decimal (.ofInt (-high))) ∧
      apply calculator .round [.decimal x.neg] = .ok (.decimal (.ofInt (-near))) ∧
      ∀ n : ℤ, x.toRat = n → low = n ∧ high = n ∧ near = n := by
  obtain ⟨near, rounded, nearest⟩ := Decimal.round_isNearest x
  have greatest : IsGreatest {n : ℤ | (n : ℚ) ≤ x.toRat} ⌊x.toRat⌋ :=
    ⟨Int.floor_le x.toRat, fun _ below => Int.le_floor.mpr below⟩
  have least : IsLeast {n : ℤ | x.toRat ≤ n} ⌈x.toRat⌉ :=
    ⟨Int.le_ceil x.toRat, fun _ above => Int.ceil_le.mpr above⟩
  refine ⟨⌊x.toRat⌋, ⌈x.toRat⌉, near, ⟨?_, greatest⟩, ⟨?_, least⟩, ⟨?_, nearest⟩, ?_, ?_, ?_⟩
  · rw [apply_floor, Decimal.floor_eq]
  · rw [apply_ceil, Decimal.ceil_eq]
  · rw [apply_round, rounded]
  · rw [apply_floor, Decimal.floor_eq, Decimal.toRat_neg, Int.floor_neg]
  · obtain ⟨opposite, done, nearby⟩ := Decimal.round_isNearest x.neg
    rw [Decimal.toRat_neg] at nearby
    rw [apply_round, done, nearby.unique nearest.neg]
  · intro n number
    rw [number] at nearest ⊢
    exact ⟨Int.floor_intCast n, Int.ceil_intCast n, nearest.unique (.intCast n)⟩

/-- Three hundred, written without its zeros, keeps its number, and minus two and a half is rounded
    away from zero. -/
theorem hundreds_apply_rounds :
    (Decimal.mk 3 (-2)).toRat = (300 : ℤ) ∧
    apply .standard .round [.decimal ⟨3, -2⟩] = .ok (.decimal (.ofInt 300)) ∧
    apply .standard .round [.decimal ⟨-25, 1⟩] = .ok (.decimal (.ofInt (-3))) ∧
    IsNearest (-5 / 2) (-3) := by
  have number : (Decimal.mk 3 (-2)).toRat = (300 : ℤ) := by norm_num [Decimal.toRat]
  have half : (Decimal.mk (-25) 1).toRat = -5 / 2 := by norm_num [Decimal.toRat]
  obtain ⟨_, _, near, -, -, ⟨rounded, -⟩, -, -, keeps⟩ := apply_rounds .standard ⟨3, -2⟩
  obtain rfl : near = 300 := (keeps 300 number).2.2
  obtain ⟨_, _, tie, -, -, ⟨tied, nearest⟩, -⟩ := apply_rounds .standard ⟨-25, 1⟩
  obtain rfl : -3 = tie := by
    injection tied with same
    injection same with same
    exact congrArg Decimal.mantissa same
  exact ⟨number, rounded, tied, half ▸ nearest⟩

end MathFunction

end Formulary
