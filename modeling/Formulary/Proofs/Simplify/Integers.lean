import Mathlib.Algebra.Group.Nat.Even
import Formulary.Proofs.Semantics.Uniform
import Formulary.Proofs.Simplify.Fold

namespace Formulary

/-! Folded literals of formulas over integers of one width. A folded number needs no more room
    than its operands, so it is the integer that the program computes. There is one exception:
    the remainder of the least integer by minus one is folded to zero, while the program
    computes the quotient first and fails. -/

variable {w : Width}

theorem Width.bottom_neg (w : Width) : w.bottom < 0 := by cases w <;> decide

theorem Width.top_eq (w : Width) : w.top = -w.bottom - 1 := by cases w <;> decide

/-- Integers between zero and an integer of the width. -/
theorem Width.Holds.of_between {n z : ℤ} (holds : w.Holds z)
    (between : (0 ≤ n ∧ n ≤ z) ∨ (z ≤ n ∧ n ≤ 0)) : w.Holds n := by
  have negative := w.bottom_neg
  have symmetric := w.top_eq
  obtain ⟨low, high⟩ := holds
  constructor <;> omega

theorem Width.holds_zero (w : Width) : w.Holds 0 := by cases w <;> decide

namespace Sized

theorem eq_of_toInt {a b : Sized w} (same : a.toInt = b.toInt) : a = b := by
  cases a
  cases b
  cases same
  rfl

theorem ofInt?_of_toInt {n : ℤ} {z : Sized w} (same : z.toInt = n) : ofInt? n = some z := by
  subst same
  exact ofInt?_eq_some z.holds

/-! Repeated squaring. The factors on the way lie between zero and the power, except that a
    square may be opposite to it. -/

theorem bottom_ne_square (w : Width) (s : ℤ) : s * s ≠ -w.bottom := by
  intro square
  have power : IsSquare (2 ^ (w.bits - 1) : ℕ) := by
    refine ⟨s.natAbs, ?_⟩
    have natural : (s * s).natAbs = (-w.bottom).natAbs := by rw [square]
    rw [Int.natAbs_mul] at natural
    rw [natural]
    cases w <;> rfl
  revert power
  cases w <;> decide +kernel

theorem holds_square {s r z : ℤ} {n : ℕ} (holds : w.Holds z) (factor : r ≠ 0) (some_ : n ≠ 0)
    (product : z = r * (s * s) ^ n) : w.Holds (s * s) := by
  have nonnegative : 0 ≤ s * s := mul_self_nonneg s
  have grown : s * s ≤ (s * s) ^ n := by
    rcases eq_or_ne s 0 with rfl | other
    · simp [some_]
    · exact le_self_pow₀ (mul_self_pos.mpr other) some_
  have negative := w.bottom_neg
  have symmetric := w.top_eq
  have different := bottom_ne_square w s
  have least : s * s ≤ |z| := by
    rw [product, abs_mul, abs_of_nonneg (pow_nonneg nonnegative n)]
    exact grown.trans (le_mul_of_one_le_left (pow_nonneg nonnegative n) (Int.one_le_abs factor))
  obtain ⟨low, high⟩ := holds
  have bounded : |z| ≤ -w.bottom := abs_le.mpr ⟨by omega, by omega⟩
  constructor <;> omega

theorem powerLoop_succ (fuel exponent : ℕ) (result square : Sized w) :
    powerLoop (fuel + 1) result square exponent =
      (if exponent % 2 == 1 then mul? result square else some result).bind fun result =>
        if exponent / 2 == 0 then some result
        else (mul? square square).bind fun square =>
          powerLoop fuel result square (exponent / 2) := by
  rw [powerLoop]
  split <;> rfl

theorem powerLoop_eq_some {fuel exponent : ℕ} {result square z : Sized w}
    (enough : exponent < 2 ^ fuel) (power : z.toInt = result.toInt * square.toInt ^ exponent)
    (factors : result.toInt ≠ 0 ∨ square.toInt = 0) :
    powerLoop fuel result square exponent = some z := by
  induction fuel generalizing exponent result square with
  | zero =>
    obtain rfl : exponent = 0 := by simpa using enough
    have same : result = z := eq_of_toInt (by simpa using power.symm)
    rw [powerLoop, same]
  | succ fuel ih =>
    -- What is multiplied in now is the lowest binary digit of the exponent.
    let low := result.toInt * square.toInt ^ (exponent % 2)
    have split : z.toInt = low * (square.toInt * square.toInt) ^ (exponent / 2) := by
      rw [power, Calculator.mul_pow_digits]
    have holds : w.Holds low := by
      by_cases nothing : square.toInt = 0
      · rcases Nat.mod_two_eq_zero_or_one exponent with even | odd
        · simpa [low, even] using result.holds
        · simpa [low, odd, nothing] using w.holds_zero
      · have positive : 1 ≤ (square.toInt * square.toInt) ^ (exponent / 2) :=
          one_le_pow₀ (mul_self_pos.mpr nothing)
        refine z.holds.of_between ?_
        rw [split]
        rcases le_total 0 low with above | below
        · exact .inl ⟨above, le_mul_of_one_le_right above positive⟩
        · exact .inr ⟨by nlinarith, below⟩
    have step : (if exponent % 2 == 1 then mul? result square else some result) =
        some ⟨low, holds⟩ := by
      rcases Nat.mod_two_eq_zero_or_one exponent with even | odd
      · rw [even, if_neg (by decide)]
        exact congrArg some (eq_of_toInt (by simp [low, even]))
      · rw [odd, if_pos (by decide)]
        exact ofInt?_of_toInt (by simp [low, odd])
    rw [powerLoop_succ, step, Option.bind_some]
    by_cases last : exponent / 2 = 0
    · have same : (⟨low, holds⟩ : Sized w) = z := eq_of_toInt (by simp [split, last])
      rw [if_pos (by simp [last]), same]
    · have squareHolds : w.Holds (square.toInt * square.toInt) := by
        rcases factors with something | nothing
        · by_cases nothing : square.toInt = 0
          · simpa [nothing] using w.holds_zero
          · exact holds_square z.holds (mul_ne_zero something (pow_ne_zero _ nothing)) last split
        · simpa [nothing] using w.holds_zero
      have squared : mul? square square = some ⟨_, squareHolds⟩ := ofInt?_eq_some squareHolds
      have below : exponent / 2 < 2 ^ fuel := by
        rw [pow_succ] at enough
        omega
      rw [if_neg (by simpa using last), squared, Option.bind_some]
      refine ih below split ?_
      by_cases nothing : square.toInt = 0
      · exact .inr (by simp [nothing])
      · exact .inl (mul_ne_zero (factors.resolve_right nothing) (pow_ne_zero _ nothing))

theorem pow?_eq_some {a z : Sized w} {n : ℕ} (power : z.toInt = a.toInt ^ n) :
    a.pow? n = some z := by
  refine powerLoop_eq_some Nat.lt_log2_self ?_ (.inl one_ne_zero)
  rw [power]
  exact (one_mul _).symm

end Sized

/-! Literals. -/

namespace Decimal

variable {d result folded : Decimal} {operands : List Decimal}

/-- The integer of the width that a literal stands for. -/
def Fits.sized (fits : d.Fits w) : Sized w := ⟨d.toInt, fits.2⟩

theorem Fits.toRat_eq (fits : d.Fits w) : d.toRat = fits.sized.toInt := by
  have whole : (d.toInt : ℚ) = d.toRat := by rw [toInt_eq, integerPart_of_isIntegral fits.1]
  exact whole.symm

theorem Fits.sized_eq (fits : d.Fits w) {n : Sized w} (same : d.toRat = n.toInt) :
    fits.sized = n :=
  Sized.eq_of_toInt (by exact_mod_cast fits.toRat_eq.symm.trans same)

theorem fits_iff : d.Fits w ↔ ∃ n : Sized w, d.toRat = n.toInt := by
  constructor
  · exact fun fits => ⟨fits.sized, fits.toRat_eq⟩
  · rintro ⟨n, same⟩
    refine ⟨isIntegral_iff.mpr ⟨n.toInt, same⟩, ?_⟩
    rw [toInt_eq, same, integerPart_intCast]
    exact n.holds

/-- Place of a width among the ranges of integers. -/
def rangeOf : Width → Nat
  | .w32 => 0
  | .w64 => 1

theorem integerRange_le_iff : d.integerRange ≤ rangeOf w ↔ d.Fits w := by
  have wider : Width.w32.Holds d.toInt → Width.w64.Holds d.toInt := by
    have bottoms : Width.w64.bottom ≤ Width.w32.bottom := by decide
    have tops : Width.w32.top ≤ Width.w64.top := by decide
    exact fun ⟨low, high⟩ => ⟨bottoms.trans low, high.trans tops⟩
  unfold integerRange Fits
  cases integral : d.isIntegral with
  | false => cases w <;> simp [rangeOf]
  | true =>
    by_cases small : Width.w32.Holds d.toInt
    · cases w <;> simp [-toInt_eq, rangeOf, small, wider small]
    · by_cases large : Width.w64.Holds d.toInt
      · cases w <;> simp [-toInt_eq, rangeOf, small, large]
      · cases w <;> simp [-toInt_eq, rangeOf, small, large]

theorem foldl_max_le {ranges : List ℕ} {start bound : ℕ} (low : start ≤ bound)
    (all : ∀ range ∈ ranges, range ≤ bound) : ranges.foldl max start ≤ bound := by
  induction ranges generalizing start with
  | nil => exact low
  | cons first rest ih =>
    exact ih (max_le low (all first (by simp))) fun range member => all range (by simp [member])

/-- An integer that is accepted as the result of integers of the width is one itself. -/
theorem exactEverywhere?_fits (fits : ∀ d ∈ operands, d.Fits w) {n : ℤ} (whole : result.toRat = n)
    (exact : exactEverywhere? operands result = some folded) :
    ∃ z : Sized w, folded.toRat = z.toInt ∧ z.toInt = n := by
  obtain rfl := exactEverywhere?_eq exact
  have integral : folded.isIntegral = true := isIntegral_iff.mpr ⟨n, whole⟩
  have narrow : folded.integerRange ≤ (operands.map integerRange).foldl max 0 := by
    unfold exactEverywhere? at exact
    dsimp only at exact
    split at exact
    · cases exact
    split at exact
    · cases exact
    · rename_i wide
      simpa [integral] using wide
  have bounded : (operands.map integerRange).foldl max 0 ≤ rangeOf w := by
    refine foldl_max_le (Nat.zero_le _) fun range member => ?_
    obtain ⟨operand, listed, rfl⟩ := List.mem_map.mp member
    exact integerRange_le_iff.mpr (fits operand listed)
  obtain ⟨z, same⟩ := fits_iff.mp (integerRange_le_iff.mp (narrow.trans bounded))
  exact ⟨z, same, by exact_mod_cast same.symm.trans whole⟩

end Decimal

/-- The error of the least integer of the width divided by minus one, for its remainder. -/
def Width.remainderOverflow (w : Width) : EvalError :=
  .fault (.overflow (toString w.bottom ++ " % -1"))

namespace Sized

/-- A quotient that does not fit is that of the least integer by minus one. -/
theorem of_not_holds_tdiv {x y : Sized w} (divisor : y.toInt ≠ 0)
    (wide : ¬ w.Holds (x.toInt.tdiv y.toInt)) : x.toInt = w.bottom ∧ y.toInt = -1 := by
  have bottom : w.bottom ≤ -2 := by cases w <;> decide
  have symmetric := w.top_eq
  obtain ⟨low, high⟩ := x.holds
  by_cases opposite : y.toInt = -1
  · refine ⟨?_, opposite⟩
    rw [opposite, Int.tdiv_neg, Int.tdiv_one, Width.Holds] at wide
    omega
  · have quotient : (x.toInt.tdiv y.toInt).natAbs = x.toInt.natAbs / y.toInt.natAbs :=
      Int.natAbs_tdiv _ _
    refine absurd ?_ wide
    by_cases itself : y.toInt = 1
    · rw [itself, Int.tdiv_one]
      exact x.holds
    · have half : x.toInt.natAbs / y.toInt.natAbs ≤ x.toInt.natAbs / 2 :=
        Nat.div_le_div_left (by omega) (by decide)
      constructor <;> omega

theorem arith_rem {x y z : Sized w} (divisor : y.toInt ≠ 0)
    (remainder : z.toInt = x.toInt.tmod y.toInt) :
    arith .rem x y = .ok z ∨ arith .rem x y = .error w.remainderOverflow := by
  have fits : ofInt? (x.toInt.tmod y.toInt) = some z := ofInt?_of_toInt remainder
  simp only [arith, if_neg divisor, rem?, div?, fits]
  by_cases holds : w.Holds (x.toInt.tdiv y.toInt)
  · rw [ofInt?_eq_some holds]
    exact .inl rfl
  · obtain ⟨least, opposite⟩ := of_not_holds_tdiv divisor holds
    refine .inr ?_
    have refused : ofInt? (x.toInt.tdiv y.toInt) = (none : Option (Sized w)) := dif_neg holds
    rw [refused]
    simp only [Option.bind_eq_bind, Option.bind_none, checked, Width.remainderOverflow, text, least,
      opposite]
    rw [String.append_assoc, String.append_assoc, String.append_assoc]
    rfl

end Sized

namespace Calculator

variable {calculator : Calculator} {a b folded : Decimal} {x y : Sized w}

theorem fits_pair (left : a.toRat = x.toInt) (right : b.toRat = y.toInt) :
    ∀ d ∈ [a, b], d.Fits w := by
  intro d member
  rcases List.mem_pair.mp member with rfl | rfl
  · exact Decimal.fits_iff.mpr ⟨x, left⟩
  · exact Decimal.fits_iff.mpr ⟨y, right⟩

/-- Two folded integers give the integer that the operator gives. Remainders are apart. -/
theorem foldPair?_arith_ok {op : Operator}
    (estimates : op = .power → calculator.EstimatesLogarithm) (arithmetic : op.isArithmetic = true)
    (other : op ≠ .rem) (left : a.toRat = x.toInt) (right : b.toRat = y.toInt)
    (fold : calculator.foldPair? op a b = some folded) :
    ∃ z : Sized w, folded.toRat = z.toInt ∧ Sized.arith op x y = .ok z := by
  have fits := fits_pair left right
  cases op with
  | add =>
    have whole : (a.add b).toRat = ((x.toInt + y.toInt : ℤ) : ℚ) := by
      rw [Decimal.toRat_add, left, right, Int.cast_add]
    obtain ⟨z, same, sum⟩ := Decimal.exactEverywhere?_fits fits whole fold
    refine ⟨z, same, ?_⟩
    simp only [Sized.arith, Sized.add?, Sized.ofInt?_of_toInt sum, Sized.checked]
  | sub =>
    have whole : (a.sub b).toRat = ((x.toInt - y.toInt : ℤ) : ℚ) := by
      rw [Decimal.toRat_sub, left, right, Int.cast_sub]
    obtain ⟨z, same, difference⟩ := Decimal.exactEverywhere?_fits fits whole fold
    refine ⟨z, same, ?_⟩
    simp only [Sized.arith, Sized.sub?, Sized.ofInt?_of_toInt difference, Sized.checked]
  | mul =>
    have whole : (a.mul b).toRat = ((x.toInt * y.toInt : ℤ) : ℚ) := by
      rw [Decimal.toRat_mul, left, right, Int.cast_mul]
    obtain ⟨z, same, product⟩ := Decimal.exactEverywhere?_fits fits whole fold
    refine ⟨z, same, ?_⟩
    simp only [Sized.arith, Sized.mul?, Sized.ofInt?_of_toInt product, Sized.checked]
  | div =>
    obtain ⟨quotient, divided, exact⟩ := Option.bind_eq_some_iff.mp fold
    obtain ⟨_, n, done, -, whole, product⟩ := foldQuotient?_eq_some divided
    obtain ⟨z, same, equal⟩ := Decimal.exactEverywhere?_fits fits whole exact
    have divisor : y.toInt ≠ 0 := by
      intro nothing
      rw [Decimal.divide, Decimal.quotient_by_zero (by simp [right, nothing])] at done
      cases done
    have dividend : x.toInt = n * y.toInt := by
      rw [left, right] at product
      exact_mod_cast product.symm
    have ratio : x.toInt.tdiv y.toInt = n := by rw [dividend, Int.mul_tdiv_cancel _ divisor]
    refine ⟨z, same, ?_⟩
    simp only [Sized.arith, if_neg divisor, Sized.div?,
      Sized.ofInt?_of_toInt (equal.trans ratio.symm), Sized.checked]
  | power =>
    obtain ⟨power, raised, exact⟩ := Option.bind_eq_some_iff.mp fold
    obtain ⟨_, m, n, -, base, exponent, -, whole⟩ := foldPower?_eq_some (estimates rfl) raised
    obtain ⟨z, same, equal⟩ := Decimal.exactEverywhere?_fits fits whole exact
    obtain rfl : m = x.toInt := by exact_mod_cast base.symm.trans left
    have natural : y.toInt = n := by exact_mod_cast right.symm.trans exponent
    refine ⟨z, same, ?_⟩
    simp only [Sized.arith, natural, Int.toNat_natCast, Sized.pow?_eq_some equal, Sized.checked]
    exact if_neg (by omega)
  | rem => exact absurd rfl other
  | _ => cases arithmetic

/-- Two folded integers give the integer that the operator gives, or the operator fails on the
    remainder of the least integer by minus one. -/
theorem foldPair?_arith (estimates : calculator.EstimatesLogarithm) {op : Operator}
    (arithmetic : op.isArithmetic = true) (left : a.toRat = x.toInt) (right : b.toRat = y.toInt)
    (fold : calculator.foldPair? op a b = some folded) :
    ∃ z : Sized w, folded.toRat = z.toInt ∧
      (Sized.arith op x y = .ok z ∨ Sized.arith op x y = .error w.remainderOverflow) := by
  by_cases remainder : op = .rem
  · subst remainder
    simp only [foldPair?] at fold
    split at fold
    · rename_i integers
      simp only [Bool.and_eq_true, Bool.not_eq_true'] at integers
      have divisor : y.toInt ≠ 0 := by
        intro nothing
        rw [Decimal.isZero_iff.mpr (by simp [right, nothing])] at integers
        cases integers.2
      have whole : (a.rem b).toRat = ((x.toInt.tmod y.toInt : ℤ) : ℚ) := by
        rw [Decimal.toRat_rem, left, right, ← Decimal.tdiv_eq, Int.tmod_def]
        push_cast
        rfl
      obtain ⟨z, same, remainder⟩ :=
        Decimal.exactEverywhere?_fits (fits_pair left right) whole fold
      exact ⟨z, same, Sized.arith_rem divisor remainder⟩
    · cases fold
  · obtain ⟨z, same, done⟩ :=
      foldPair?_arith_ok (fun _ => estimates) arithmetic remainder left right fold
    exact ⟨z, same, .inl done⟩

/-- A folded pair of literals is what the operation gives when the program runs: in each width
    that holds both operands the folded number is an integer that the operation returns, and the
    operation on decimals returns its number. -/
theorem foldPair?_eq_arith {op : Operator} {c : Decimal}
    (among : op ∈ [Operator.add, .sub, .mul, .div, .power])
    (estimates : op = .power → calculator.EstimatesLogarithm)
    (fold : calculator.foldPair? op a b = some c) :
    (∀ (w : Width) (left : a.Fits w) (right : b.Fits w), ∃ fits : c.Fits w,
      Sized.arith op left.sized right.sized = .ok fits.sized) ∧
    ∃ value, calculator.arith op a b = .ok value ∧ value.equal c = true := by
  have exactly : ∀ op ∈ [Operator.add, .sub, .mul, .div, .power],
      op.isArithmetic = true ∧ op ≠ .rem := by decide
  obtain ⟨arithmetic, other⟩ := exactly op among
  constructor
  · intro w left right
    obtain ⟨z, same, done⟩ :=
      foldPair?_arith_ok estimates arithmetic other left.toRat_eq right.toRat_eq fold
    have fits := Decimal.fits_iff.mpr ⟨z, same⟩
    exact ⟨fits, by rw [done, fits.sized_eq same]⟩
  · obtain ⟨value, done, same⟩ := foldPair?_eq_some estimates arithmetic fold
    rw [arith_eq]
    exact ⟨value, done, Decimal.equal_iff.mpr same⟩

set_option maxRecDepth 4000 in
/-- The least integer of 32 bits as a power of minus two, which is written with a point. -/
theorem leastInteger_eq_arith :
    standard.foldPair? .power ⟨-20, 1⟩ (.ofInt 31) = some (.ofInt (-2147483648)) ∧
      Sized.arith .power (⟨-2, by decide⟩ : Sized .w32) ⟨31, by decide⟩ =
        .ok ⟨-2147483648, by decide⟩ ∧
      ∃ value, standard.arith .power ⟨-20, 1⟩ (.ofInt 31) = .ok value ∧
        value.equal (.ofInt (-2147483648)) = true := by
  have fold : standard.foldPair? .power ⟨-20, 1⟩ (.ofInt 31) = some (.ofInt (-2147483648)) := by
    rfl
  obtain ⟨integers, decimals⟩ := foldPair?_eq_arith (by decide)
    (fun _ precise => absurd precise (by decide)) fold
  obtain ⟨_, done⟩ := integers .w32 (by decide) (by decide)
  exact ⟨fold, done, decimals⟩

end Calculator

/-! Values. -/

theorem Value.arith_value (calculator : Calculator) (op : Operator) (x y : Sized w) :
    Value.arith calculator op x.value y.value = (Sized.arith op x y).map Sized.value := by
  cases w <;> rfl

theorem Value.ofDecimal_of_toRat {d : Decimal} {n : Sized w} (same : d.toRat = n.toInt) :
    Value.ofDecimal d w.type = .ok n.value := by
  have fits := Decimal.fits_iff.mpr ⟨n, same⟩
  have equal : (⟨d.toInt, fits.2⟩ : Sized w) = n := fits.sized_eq same
  rw [Value.ofDecimal_of_fits fits, equal]

theorem Expr.integerWith_literal {calculator : Calculator} {given : String → Value} {d : Decimal}
    {n : Sized w} (same : d.toRat = n.toInt) :
    (number d).integerWith calculator w given = .ok n.value := by
  rw [integerWith, Value.ofDecimal_of_toRat same]
  rfl

theorem Sized.toDecimal?_value (n : Sized w) : n.value.toDecimal? = some (.ofInt n.toInt) := by
  cases w <;> rfl

theorem Calculator.factorial_whole {calculator : Calculator} {d result : Decimal}
    (integral : d.isIntegral = true) (done : calculator.factorial d = .ok result) :
    ∃ n : ℤ, result.toRat = n := by
  unfold factorial at done
  rw [integral, if_neg (by decide)] at done
  split at done
  · cases done
  split at done
  · cases done
  · cases done
    exact ⟨_, Decimal.toRat_ofNat _⟩

theorem Calculator.foldUnary?_value {calculator : Calculator} (numeric : calculator.Numeric)
    {op : UnaryOperator} (arithmetic : op ≠ .not) {d folded : Decimal} {x : Sized w}
    (same : d.toRat = x.toInt) (fold : calculator.foldUnary? op d = some folded) :
    ∃ z : Sized w, folded.toRat = z.toInt ∧ ∀ given : String → Value,
      (Expr.unary op (.number d)).integerWith calculator w given = .ok z.value := by
  have fits : d.Fits w := Decimal.fits_iff.mpr ⟨x, same⟩
  cases op with
  | negate =>
    simp only [foldUnary?] at fold
    split at fold
    · rename_i narrow
      cases fold
      have bounded := narrow.trans (Decimal.integerRange_le_iff.mpr fits)
      obtain ⟨z, opposite⟩ := Decimal.fits_iff.mp (Decimal.integerRange_le_iff.mp bounded)
      have equal : z.toInt = -x.toInt := by
        rw [Decimal.toRat_neg, same] at opposite
        exact_mod_cast opposite.symm
      refine ⟨z, opposite, fun given => ?_⟩
      have negated : x.neg? = some z := Sized.ofInt?_of_toInt equal
      simp only [Expr.integerWith, Value.ofDecimal_of_toRat same]
      change x.value.negate = _
      cases w <;> simp only [Sized.value, Value.negate, Value.negateSized, negated]
    · cases fold
  | factorial =>
    simp only [foldUnary?] at fold
    split at fold
    · rename_i result computed
      split at fold
      · obtain ⟨n, whole⟩ := factorial_whole fits.1 computed
        obtain ⟨z, equal, -⟩ := Decimal.exactEverywhere?_fits (by simpa using fits) whole fold
        obtain rfl := Decimal.exactEverywhere?_eq fold
        have read : Decimal.Same d (.ofInt x.toInt) := by
          rw [Decimal.Same, Decimal.toRat_ofInt, same]
        obtain ⟨product, done, sameProduct⟩ := (factorial_congr numeric read).of_ok computed
        refine ⟨z, equal, fun given => ?_⟩
        simp only [Expr.integerWith, Value.ofDecimal_of_toRat same]
        change x.value.factorial calculator w.type = _
        rw [Value.factorial, Sized.toDecimal?_value]
        dsimp only
        rw [done]
        change EvalError.lift (Value.ofDecimal product w.type) = _
        rw [Value.ofDecimal_of_toRat (sameProduct.symm.trans equal)]
        rfl
      · cases fold
    · cases fold
  | not => exact absurd rfl arithmetic

/-! Formulas. -/

/-- Two outcomes are the same, or the first is the remainder of the least integer by minus
    one. -/
def Spares (w : Width) (left right : Except EvalError Value) : Prop :=
  left = right ∨ left = .error w.remainderOverflow

namespace Spares

theorem refl (outcome : Except EvalError Value) : Spares w outcome outcome := .inl rfl

theorem bind {left right : Except EvalError Value} {next next' : Value → Except EvalError Value}
    (first : Spares w left right) (continued : ∀ value, Spares w (next value) (next' value)) :
    Spares w (left >>= next) (right >>= next') := by
  rcases first with rfl | failed
  · cases left with
    | ok value => exact continued value
    | error error => exact .inl rfl
  · rw [failed]
    exact .inr rfl

theorem trans {left middle right : Except EvalError Value} (first : Spares w left middle)
    (second : Spares w middle right) : Spares w left right := by
  rcases first with rfl | failed
  · exact second
  · exact .inr failed

end Spares

namespace Expr

variable {calculator : Calculator} {inputs : Table Ty} {op : Operator} {operands : List Expr}

theorem integerWith_cons {given : String → Value} (first : Expr) (rest : List Expr) :
    (binary op (first :: rest)).integerWith calculator w given =
      first.integerWith calculator w given >>= fun value =>
        combineIntegers calculator w given op value rest := by
  rw [integerWith]

theorem integerWith_nary {given : String → Value} (op : Operator) (operands : List Expr) :
    (nary op operands).integerWith calculator w given =
      (binary op operands).integerWith calculator w given := by
  match operands with
  | [] => rfl
  | [operand] => exact (integerWith_single op operand).symm
  | _ :: _ :: _ => rfl

theorem Uniform.nary (arithmetic : op.isArithmetic = true) (nonempty : operands ≠ [])
    (uniform : UniformAll inputs w operands) : (nary op operands).Uniform inputs w := by
  match operands with
  | [] => exact absurd rfl nonempty
  | [operand] => exact uniform.1
  | _ :: _ :: _ => exact ⟨arithmetic, nonempty, uniform⟩

theorem foldFront_spares (estimates : calculator.EstimatesLogarithm)
    (arithmetic : op.isArithmetic = true) (held : Decimal) (operands : List Expr) {x : Sized w}
    (same : held.toRat = x.toInt) (uniform : UniformAll inputs w operands) :
    ∃ z : Sized w, (foldFront calculator op held operands).1.toRat = z.toInt ∧
      UniformAll inputs w (foldFront calculator op held operands).2 ∧
      ∀ given : String → Value,
        Spares w (combineIntegers calculator w given op x.value operands)
          (combineIntegers calculator w given op z.value
            (foldFront calculator op held operands).2) := by
  fun_induction foldFront calculator op held operands generalizing x with
  | case1 held value rest folded fold ih =>
    obtain ⟨y, literal⟩ := Decimal.fits_iff.mp uniform.1
    obtain ⟨z, foldedSame, outcome⟩ :=
      Calculator.foldPair?_arith estimates arithmetic same literal fold
    obtain ⟨last, lastSame, lastUniform, spares⟩ := ih foldedSame uniform.2
    refine ⟨last, lastSame, lastUniform, fun given => ?_⟩
    rw [combineIntegers, integerWith_literal literal]
    change Spares w (Value.arith calculator op x.value y.value >>= _) _
    rw [Value.arith_value]
    rcases outcome with done | failed
    · rw [done]
      exact spares given
    · rw [failed]
      exact .inr rfl
  | case2 held value rest none_ => exact ⟨x, same, uniform, fun _ => .refl _⟩
  | case3 held operands other => exact ⟨x, same, uniform, fun _ => .refl _⟩

theorem foldLeading_spares (estimates : calculator.EstimatesLogarithm)
    (arithmetic : op.isArithmetic = true) (nonempty : operands ≠ [])
    (uniform : UniformAll inputs w operands) :
    foldLeading calculator op operands ≠ [] ∧
      UniformAll inputs w (foldLeading calculator op operands) ∧
      ∀ given : String → Value,
        Spares w ((binary op operands).integerWith calculator w given)
          ((binary op (foldLeading calculator op operands)).integerWith calculator w given) := by
  fun_cases foldLeading calculator op operands with
  | case1 value rest held rest' result =>
    obtain ⟨x, literal⟩ := Decimal.fits_iff.mp uniform.1
    obtain ⟨z, same, front, spares⟩ :=
      foldFront_spares estimates arithmetic value rest literal uniform.2
    rw [result] at same front spares
    refine ⟨List.cons_ne_nil _ _, ⟨Decimal.fits_iff.mpr ⟨z, same⟩, front⟩, fun given => ?_⟩
    rw [integerWith_cons, integerWith_cons, integerWith_literal literal,
      integerWith_literal same]
    exact spares given
  | case2 => exact ⟨nonempty, uniform, fun _ => .refl _⟩

theorem foldOperand_spares (numeric : calculator.Numeric) {op : UnaryOperator}
    (arithmetic : op ≠ .not) {operand : Expr} (uniform : operand.Uniform inputs w) :
    (foldOperand calculator op operand).Uniform inputs w ∧
      ∀ given : String → Value,
        Spares w ((unary op operand).integerWith calculator w given)
          ((foldOperand calculator op operand).integerWith calculator w given) := by
  unfold foldOperand
  split
  · rename_i folded found
    obtain ⟨value, literal, fold⟩ := Option.bind_eq_some_iff.mp found
    obtain rfl : operand = number value := by
      cases operand <;> cases literal
      rfl
    obtain ⟨x, same⟩ := Decimal.fits_iff.mp uniform
    obtain ⟨z, foldedSame, outcome⟩ :=
      Calculator.foldUnary?_value numeric arithmetic same fold
    refine ⟨Decimal.fits_iff.mpr ⟨z, foldedSame⟩, fun given => .inl ?_⟩
    rw [outcome given, integerWith_literal foldedSame]
  · exact ⟨⟨arithmetic, uniform⟩, fun _ => .refl _⟩

variable {keptApart : List Operator}

mutual

theorem foldLiterals_spares (numeric : calculator.Numeric)
    (estimates : calculator.EstimatesLogarithm) (apart : ∀ op, chains keptApart op = false) :
    ∀ expr : Expr, expr.Uniform inputs w →
      (expr.foldLiterals calculator keptApart).Uniform inputs w ∧
        ∀ given : String → Value, Spares w (expr.integerWith calculator w given)
          ((expr.foldLiterals calculator keptApart).integerWith calculator w given)
  | number value, uniform => ⟨uniform, fun _ => .refl _⟩
  | var name, uniform => ⟨uniform, fun _ => .refl _⟩
  | unary op operand, uniform => by
    obtain ⟨inside, spares⟩ := foldLiterals_spares numeric estimates apart operand uniform.2
    obtain ⟨folded, outer⟩ := foldOperand_spares numeric uniform.1 inside
    rw [foldLiterals]
    refine ⟨folded, fun given => Spares.trans ?_ (outer given)⟩
    cases op with
    | negate =>
      simp only [integerWith]
      exact (spares given).bind fun _ => .refl _
    | factorial =>
      simp only [integerWith]
      exact (spares given).bind fun _ => .refl _
    | not => exact absurd rfl uniform.1
  | binary op (first :: rest), uniform => by
    obtain ⟨arithmetic, -, firstUniform, restUniform⟩ := uniform
    obtain ⟨head, headSpares⟩ := foldLiterals_spares numeric estimates apart first firstUniform
    obtain ⟨tail, tailSpares⟩ := foldLiteralsAll_spares numeric estimates apart rest restUniform
    obtain ⟨nonempty, leading, outer⟩ :=
      foldLeading_spares estimates arithmetic (List.cons_ne_nil _ _) ⟨head, tail⟩
    rw [foldLiterals, foldLiteralsAll, foldOperands, apart op, if_neg Bool.false_ne_true]
    refine ⟨.nary arithmetic nonempty leading, fun given => ?_⟩
    rw [integerWith_nary]
    refine Spares.trans ?_ (outer given)
    rw [integerWith_cons, integerWith_cons]
    exact (headSpares given).bind fun value => tailSpares given op value
  | binary _ [], uniform => absurd rfl uniform.2.1
  | text _, uniform | member _ _, uniform | call _ _ _, uniform | define _ _ _ _, uniform =>
    uniform.elim

theorem foldLiteralsAll_spares (numeric : calculator.Numeric)
    (estimates : calculator.EstimatesLogarithm) (apart : ∀ op, chains keptApart op = false) :
    ∀ exprs : List Expr, UniformAll inputs w exprs →
      UniformAll inputs w (foldLiteralsAll calculator keptApart exprs) ∧
        ∀ (given : String → Value) (op : Operator) (value : Value),
          Spares w (combineIntegers calculator w given op value exprs)
            (combineIntegers calculator w given op value
              (foldLiteralsAll calculator keptApart exprs))
  | [], _ => ⟨trivial, fun _ _ _ => .refl _⟩
  | expr :: rest, uniform => by
    obtain ⟨head, headSpares⟩ := foldLiterals_spares numeric estimates apart expr uniform.1
    obtain ⟨tail, tailSpares⟩ := foldLiteralsAll_spares numeric estimates apart rest uniform.2
    rw [foldLiteralsAll]
    refine ⟨⟨head, tail⟩, fun given op value => ?_⟩
    simp only [combineIntegers]
    refine (headSpares given).bind fun next => ?_
    exact Spares.bind (.refl _) fun combined => tailSpares given op combined

end

end Expr

end Formulary
