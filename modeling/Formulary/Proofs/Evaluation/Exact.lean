import Formulary.Proofs.Simplify.Integers

namespace Formulary

/-! Arithmetic on integers of one width is exact or refused. Each operator gives the integer that it
    gives without bounds, if that has the width, and else an error. Powers are computed by repeated
    squaring; no square on the way is refused where the power itself is not. -/

variable {w : Width}

/-- The integer that an operator gives for two integers, without bounds. -/
inductive Operator.Gives : Operator → ℤ → ℤ → ℤ → Prop
  | add (a b : ℤ) : Gives .add a b (a + b)
  | sub (a b : ℤ) : Gives .sub a b (a - b)
  | mul (a b : ℤ) : Gives .mul a b (a * b)
  /-- The quotient towards zero. -/
  | div (a : ℤ) {b : ℤ} (divisor : b ≠ 0) : Gives .div a b (a.tdiv b)
  | power (a : ℤ) (exponent : ℕ) : Gives .power a exponent (a ^ exponent)

/-- What is left of a dividend when a multiple of the divisor is taken away: less than the divisor,
    and with the sign of the dividend. -/
structure IsRemainder (dividend divisor rest : ℤ) : Prop where
  multiple : divisor ∣ dividend - rest
  less : rest.natAbs < divisor.natAbs
  sign : rest = 0 ∨ rest.sign = dividend.sign

theorem isRemainder_tmod (a : ℤ) {b : ℤ} (divisor : b ≠ 0) : IsRemainder a b (a.tmod b) where
  multiple := ⟨a.tdiv b, by rw [Int.tmod_def, sub_sub_cancel]⟩
  less := by
    rw [Int.natAbs_tmod]
    exact Nat.mod_lt _ (Int.natAbs_pos.mpr divisor)
  sign := by
    have sign := Int.sign_tmod a b
    split at sign
    · exact .inl (Int.sign_eq_zero_iff_zero.mp sign)
    · exact .inr sign

namespace Sized

variable {op : Operator} {a b result square z : Sized w} {n : ℤ}

/-- The error of a result that does not have the width. -/
def overflow (op : Operator) (a b : Sized w) : EvalError :=
  .fault (.overflow (a.text ++ " " ++ op.symbol ++ " " ++ b.text))

theorem ofInt?_eq_some_iff : ofInt? n = some z ↔ z.toInt = n := by
  refine ⟨fun fits => ?_, ofInt?_of_toInt⟩
  unfold ofInt? at fits
  split at fits
  · cases fits
    rfl
  · cases fits

/-! Repeated squaring gives nothing but the power. -/

theorem toInt_powerLoop {fuel exponent : ℕ} (enough : exponent < 2 ^ fuel)
    (done : powerLoop fuel result square exponent = some z) :
    z.toInt = result.toInt * square.toInt ^ exponent := by
  induction fuel generalizing exponent result square with
  | zero =>
    obtain rfl : exponent = 0 := by simpa using enough
    cases done
    simp
  | succ fuel ih =>
    rw [powerLoop_succ] at done
    obtain ⟨low, multiplied, done⟩ := Option.bind_eq_some_iff.mp done
    have digit : low.toInt = result.toInt * square.toInt ^ (exponent % 2) := by
      rcases Nat.mod_two_eq_zero_or_one exponent with even | odd
      · rw [even, if_neg (by decide)] at multiplied
        cases multiplied
        simp [even]
      · rw [odd, if_pos (by decide)] at multiplied
        rw [odd, pow_one, ofInt?_eq_some_iff.mp multiplied]
    rw [← Calculator.mul_pow_digits, ← digit]
    split at done
    · rename_i last
      cases done
      simp [beq_iff_eq.mp last]
    · obtain ⟨squared, twice, done⟩ := Option.bind_eq_some_iff.mp done
      have below : exponent / 2 < 2 ^ fuel := by
        rw [pow_succ] at enough
        omega
      rw [ih below done, ofInt?_eq_some_iff.mp twice]

theorem pow?_eq_some_iff {exponent : ℕ} :
    a.pow? exponent = some z ↔ z.toInt = a.toInt ^ exponent := by
  refine ⟨fun done => ?_, pow?_eq_some⟩
  rw [toInt_powerLoop Nat.lt_log2_self done]
  exact one_mul _

/-- The outcome is the integer, if it has the width, and an overflow if it has not. -/
def IsExact (op : Operator) (a b : Sized w) (n : ℤ) (outcome : Except EvalError (Sized w)) : Prop :=
  (w.Holds n ∧ ∃ z : Sized w, z.toInt = n ∧ outcome = .ok z) ∨
    (¬ w.Holds n ∧ outcome = .error (overflow op a b))

theorem checked_isExact {found : Option (Sized w)} (exact : ∀ z, found = some z ↔ z.toInt = n) :
    IsExact op a b n (checked op a b found) := by
  by_cases holds : w.Holds n
  · have fits : found = some ⟨n, holds⟩ := (exact _).mpr rfl
    exact .inl ⟨holds, ⟨n, holds⟩, rfl, by rw [fits]; rfl⟩
  · have refused : found = none := by
      refine Option.eq_none_iff_forall_ne_some.mpr fun z some_ => holds ?_
      rw [← (exact z).mp some_]
      exact z.holds
    exact .inr ⟨holds, by rw [refused]; rfl⟩

theorem arith_isExact (gives : op.Gives a.toInt b.toInt n) : IsExact op a b n (arith op a b) := by
  generalize left : a.toInt = x at gives
  generalize right : b.toInt = y at gives
  cases gives with
  | add | sub | mul =>
    rw [← left, ← right]
    exact checked_isExact fun z => ofInt?_eq_some_iff
  | div _ divisor =>
    rw [← right] at divisor
    rw [← left, ← right, arith, if_neg divisor]
    exact checked_isExact fun z => ofInt?_eq_some_iff
  | power _ exponent =>
    have natural : ¬ b.toInt < 0 := by omega
    rw [← left, arith, if_neg natural, right, Int.toNat_natCast]
    exact checked_isExact fun z => pow?_eq_some_iff

/-! Remainders, which are refused with the quotient. -/

theorem holds_tmod (a b : Sized w) : w.Holds (a.toInt.tmod b.toInt) := by
  have smaller : (a.toInt.tmod b.toInt).natAbs ≤ a.toInt.natAbs := by
    rw [Int.natAbs_tmod]
    exact Nat.mod_le _ _
  refine a.holds.of_between ?_
  rcases le_total 0 a.toInt with above | below
  · have sign := Int.tmod_nonneg b.toInt above
    exact .inl (by omega)
  · have sign := Int.tmod_nonneg b.toInt (neg_nonneg.mpr below)
    rw [Int.neg_tmod] at sign
    exact .inr (by omega)

theorem arith_rem_eq_ok (divisor : b.toInt ≠ 0)
    (other : ¬ (a.toInt = w.bottom ∧ b.toInt = -1)) :
    arith .rem a b = .ok ⟨a.toInt.tmod b.toInt, holds_tmod a b⟩ := by
  have quotient : w.Holds (a.toInt.tdiv b.toInt) := by
    by_contra wide
    exact other (of_not_holds_tdiv divisor wide)
  rw [arith, if_neg divisor, rem?, div?, ofInt?_eq_some quotient]
  exact congrArg (checked .rem a b) (ofInt?_eq_some (holds_tmod a b))

theorem arith_rem_eq_error (least : a.toInt = w.bottom) (opposite : b.toInt = -1) :
    arith .rem a b = .error (overflow .rem a b) := by
  have wide : ¬ w.Holds (a.toInt.tdiv b.toInt) := by
    have symmetric := w.top_eq
    rw [least, opposite, Int.tdiv_neg, Int.tdiv_one, Width.Holds]
    omega
  have refused : div? a b = none := dif_neg wide
  rw [arith, if_neg (by omega), rem?, refused]
  rfl

/-! Errors that say why there is no result. -/

theorem checked_ne_error {cause : Fault} (other : .fault cause ≠ overflow op a b)
    (found : Option (Sized w)) : checked op a b found ≠ .error (.fault cause) := by
  cases found with
  | some z => simp [checked]
  | none =>
    intro same
    exact other (Except.error.inj same).symm

theorem arith_divisionByZero_iff {op : Operator} (divides : op = .div ∨ op = .rem) :
    arith op a b = .error (.fault .divisionByZero) ↔ b.toInt = 0 := by
  have other : EvalError.fault .divisionByZero ≠ overflow op a b := by simp [overflow]
  by_cases nothing : b.toInt = 0
  · rcases divides with rfl | rfl <;> simp [arith, nothing]
  · rcases divides with rfl | rfl <;>
      simp [arith, nothing, checked_ne_error other]

theorem arith_domain_iff :
    (∃ detail, arith .power a b = .error (.fault (.domain detail))) ↔ b.toInt < 0 := by
  by_cases negative : b.toInt < 0
  · simp [arith, negative]
  · have other : ∀ detail, EvalError.fault (.domain detail) ≠ overflow .power a b := by
      simp [overflow]
    simp [arith, negative, fun detail => checked_ne_error (other detail)]

/-- Integer arithmetic is exact or refused: sums, differences, products, quotients and powers are
    what they are without bounds, or the error says that they do not have the width. Division by
    zero and powers of negative exponent have errors of their own, and only they have these. A
    remainder has the sign of the dividend; the least integer has none by minus one, though that
    would be zero. -/
theorem arith_exact (a b : Sized w) :
    (∀ op n, Operator.Gives op a.toInt b.toInt n → IsExact op a b n (arith op a b)) ∧
    (arith .div a b = .error (.fault .divisionByZero) ↔ b.toInt = 0) ∧
    (arith .rem a b = .error (.fault .divisionByZero) ↔ b.toInt = 0) ∧
    ((∃ detail, arith .power a b = .error (.fault (.domain detail))) ↔ b.toInt < 0) ∧
    (b.toInt ≠ 0 → ¬ (a.toInt = w.bottom ∧ b.toInt = -1) →
      ∃ z, IsRemainder a.toInt b.toInt z.toInt ∧ arith .rem a b = .ok z) ∧
    (a.toInt = w.bottom → b.toInt = -1 → arith .rem a b = .error (overflow .rem a b)) :=
  ⟨fun _ _ => arith_isExact, arith_divisionByZero_iff (.inl rfl),
    arith_divisionByZero_iff (.inr rfl), arith_domain_iff, fun divisor other =>
      ⟨_, isRemainder_tmod a.toInt divisor, arith_rem_eq_ok divisor other⟩, arith_rem_eq_error⟩

/-- The least integer of 32 bits is a power of minus two, and it has no remainder by minus one. -/
theorem leastInteger_arith_exact :
    (∃ base exponent power : Sized .w32, base.toInt = -2 ∧ exponent.toInt = 31 ∧
      power.toInt = Width.w32.bottom ∧ arith .power base exponent = .ok power) ∧
    (∃ least opposite : Sized .w32, least.toInt = Width.w32.bottom ∧ opposite.toInt = -1 ∧
      arith .rem least opposite = .error (overflow .rem least opposite)) ∧
    ∃ dividend divisor rest : Sized .w64, dividend.toInt = -7 ∧ divisor.toInt = 2 ∧
      IsRemainder (-7) 2 rest.toInt ∧ arith .rem dividend divisor = .ok rest := by
  let base : Sized .w32 := ⟨-2, by decide⟩
  let exponent : Sized .w32 := ⟨31, by decide⟩
  let least : Sized .w32 := ⟨Width.w32.bottom, by decide⟩
  let opposite : Sized .w32 := ⟨-1, by decide⟩
  let dividend : Sized .w64 := ⟨-7, by decide⟩
  let divisor : Sized .w64 := ⟨2, by decide⟩
  refine ⟨?_, ⟨least, opposite, rfl, rfl, (arith_exact least opposite).2.2.2.2.2 rfl rfl⟩, ?_⟩
  · rcases (arith_exact base exponent).1 .power _ (.power (-2) 31) with
      ⟨-, power, value, done⟩ | ⟨wide, -⟩
    · exact ⟨base, exponent, power, rfl, rfl, value, done⟩
    · exact absurd (by decide) wide
  · obtain ⟨rest, remainder, done⟩ :=
      (arith_exact dividend divisor).2.2.2.2.1 (by decide) (by decide)
    exact ⟨dividend, divisor, rest, rfl, rfl, remainder, done⟩

end Sized

end Formulary
