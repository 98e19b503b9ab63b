import Mathlib.Data.Nat.Log
import Mathlib.Tactic.Ring
import Formulary.Decimal.Digits

namespace Formulary.Digits

/-! The number of digits of a natural number, and its trailing zeros. -/

theorem lengthFrom_spec {n fuel start : Nat} (below : ∀ length < start, 10 ^ length ≤ n)
    (enough : n < 10 ^ (start + fuel)) :
    n < 10 ^ lengthFrom n fuel start ∧ ∀ length < lengthFrom n fuel start, 10 ^ length ≤ n := by
  induction fuel generalizing start with
  | zero => exact ⟨enough, below⟩
  | succ fuel ih =>
    unfold lengthFrom
    split
    · rename_i found
      exact ⟨found, below⟩
    · rename_i large
      refine ih (fun length bound => ?_) ?_
      · rcases Nat.lt_succ_iff_lt_or_eq.mp bound with bound | rfl
        · exact below length bound
        · exact Nat.not_lt.mp large
      · rwa [Nat.add_right_comm, Nat.add_assoc]

/-- A power of ten close to a power of two turns a binary length into a decimal one. -/
theorem pow_ten_le_pow_two {a b : Nat} (close : 10 ^ a ≤ 2 ^ b) (positive : b ≠ 0) (k : Nat) :
    10 ^ (k * a / b) ≤ 2 ^ k := by
  refine (Nat.pow_le_pow_iff_left positive).mp ?_
  calc (10 ^ (k * a / b)) ^ b
      = 10 ^ (k * a / b * b) := by rw [Nat.pow_mul]
    _ ≤ 10 ^ (k * a) := Nat.pow_le_pow_right (by decide) (Nat.div_mul_le_self _ _)
    _ = (10 ^ a) ^ k := by rw [← Nat.pow_mul, Nat.mul_comm]
    _ ≤ (2 ^ b) ^ k := Nat.pow_le_pow_left close _
    _ = (2 ^ k) ^ b := by rw [Nat.pow_right_comm]

theorem pow_start_le {n : Nat} (positive : n ≠ 0) : 10 ^ (n.log2 * 1233 / 4096) ≤ n :=
  (pow_ten_le_pow_two (by decide +kernel) (by decide) n.log2).trans (Nat.log2_self_le positive)

theorem length_eq (n : Nat) : length n = Nat.log 10 n + 1 := by
  rcases Nat.eq_zero_or_pos n with rfl | positive
  · decide
  · have nonzero : n ≠ 0 := Nat.ne_of_gt positive
    have below : ∀ length < n.log2 * 1233 / 4096 + 1, 10 ^ length ≤ n := fun length bound =>
      (Nat.pow_le_pow_right (by decide) (Nat.lt_succ_iff.mp bound)).trans (pow_start_le nonzero)
    have enough : n < 10 ^ (n.log2 * 1233 / 4096 + 1 + (n.log2 + 1)) :=
      calc n < 2 ^ (n.log2 + 1) := Nat.lt_log2_self
        _ ≤ 10 ^ (n.log2 + 1) := Nat.pow_le_pow_left (by decide) _
        _ ≤ 10 ^ (n.log2 * 1233 / 4096 + 1 + (n.log2 + 1)) :=
          Nat.pow_le_pow_right (by decide) (by omega)
    obtain ⟨above, first⟩ := lengthFrom_spec below enough
    have atLeast : Nat.log 10 n + 1 ≤ length n := by
      by_contra shorter
      have reached : 10 ^ length n ≤ n :=
        (Nat.pow_le_pow_right (by decide) (by omega)).trans (Nat.pow_log_le_self 10 nonzero)
      exact absurd above (Nat.not_lt.mpr reached)
    refine Nat.le_antisymm (Nat.not_lt.mp fun longer => ?_) atLeast
    exact absurd (Nat.lt_pow_succ_log_self (by decide) n) (Nat.not_lt.mpr (first _ longer))

theorem lt_pow_length (n : Nat) : n < 10 ^ length n := by
  rw [length_eq]
  exact Nat.lt_pow_succ_log_self (by decide) n

theorem dropZeros_spec {fuel n : Nat} (positive : n ≠ 0) (enough : n < 10 ^ fuel) :
    (dropZeros fuel n).1 * 10 ^ (dropZeros fuel n).2 = n ∧ (dropZeros fuel n).1 % 10 ≠ 0 := by
  induction fuel generalizing n with
  | zero => omega
  | succ fuel ih =>
    unfold dropZeros
    split
    · rename_i divisible
      have smaller : n / 10 ≠ 0 ∧ n / 10 < 10 ^ fuel := by
        rw [Nat.pow_succ] at enough
        omega
      obtain ⟨product, last⟩ := ih smaller.1 smaller.2
      refine ⟨?_, last⟩
      calc (dropZeros fuel (n / 10)).1 * 10 ^ ((dropZeros fuel (n / 10)).2 + 1)
          = (dropZeros fuel (n / 10)).1 * 10 ^ (dropZeros fuel (n / 10)).2 * 10 := by ring
        _ = n := by rw [product]; omega
    · rename_i last
      exact ⟨by simp, last⟩

theorem stripZeros_spec {n : Nat} (positive : n ≠ 0) :
    (stripZeros n).1 * 10 ^ (stripZeros n).2 = n ∧ (stripZeros n).1 % 10 ≠ 0 := by
  rw [stripZeros, if_neg positive]
  exact dropZeros_spec positive
    (Nat.lt_log2_self.trans_le (Nat.pow_le_pow_left (by decide) _))

end Formulary.Digits
