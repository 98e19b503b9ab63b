import Formulary.Proofs.Calculator.Power
import Formulary.Proofs.Semantics.Outcome
import Formulary.Proofs.Simplify.Chain

namespace Formulary

/-! Folded literals. A literal that takes the place of an operation is the number that the
    operation gives: quotients are folded when there is no remainder, powers when all their
    digits fit. In a chain the literals can be moved to the first of them. -/

open Decimal (Same)

theorem Decimal.exactEverywhere?_eq {operands : List Decimal} {result folded : Decimal}
    (exact : exactEverywhere? operands result = some folded) : folded = result := by
  unfold exactEverywhere? at exact
  dsimp only at exact
  split at exact
  · cases exact
  split at exact
  · cases exact
  split at exact
  · exact (Option.some.inj exact).symm
  · cases exact

namespace Calculator

variable {calculator : Calculator} {a b folded value : Decimal}

/-- A folded quotient is the integer by which the divisor is multiplied to give the dividend. -/
theorem foldQuotient?_eq_some (fold : calculator.foldQuotient? a b = some folded) :
    ∃ (quotient : Decimal) (n : ℤ), Decimal.divide a b calculator.digits = .ok quotient ∧
      quotient.toRat = n ∧ folded.toRat = n ∧ n * b.toRat = a.toRat := by
  unfold foldQuotient? at fold
  split at fold
  · rename_i quotient divided
    split at fold
    · rename_i exact
      rw [Bool.and_eq_true, Decimal.beq_iff, Decimal.toRat_mul] at exact
      obtain ⟨n, whole⟩ := Decimal.isIntegral_iff.mp exact.1
      cases fold
      refine ⟨quotient, n, divided, whole, ?_, whole ▸ exact.2⟩
      rw [Decimal.toRat_truncate, whole, Decimal.integerPart_intCast]
    · cases fold
  · cases fold

theorem foldPower?_eq_some (estimates : calculator.EstimatesLogarithm)
    (fold : calculator.foldPower? a b = some folded) :
    ∃ (power : Decimal) (m : ℤ) (n : ℕ), calculator.pow a b = .ok power ∧ a.toRat = m ∧
      b.toRat = n ∧ power.toRat = ((m ^ n : ℤ) : ℚ) ∧ folded.toRat = ((m ^ n : ℤ) : ℚ) := by
  unfold foldPower? at fold
  split at fold
  · cases fold
  rename_i integers
  simp only [Bool.or_eq_true, Bool.not_eq_true', not_or, Bool.not_eq_false, Bool.not_eq_true]
    at integers
  obtain ⟨⟨base, exponent⟩, sign⟩ := integers
  dsimp only at fold
  split at fold
  · cases fold
  rename_i small
  simp only [Bool.or_eq_true, decide_eq_true_eq, not_or, not_lt] at small
  obtain ⟨m, base_eq⟩ := Decimal.isIntegral_iff.mp base
  obtain ⟨k, exponent_eq⟩ := Decimal.isIntegral_iff.mp exponent
  have nonneg : 0 ≤ k := by
    have above : ¬ b.toRat < 0 := by
      rw [← Decimal.isNegative_iff, sign]
      exact Bool.false_ne_true
    rw [exponent_eq] at above
    exact_mod_cast not_lt.mp above
  have exponent_nat : b.toRat = (k.toNat : ℕ) := by
    rw [exponent_eq]
    exact_mod_cast (Int.toNat_of_nonneg nonneg).symm
  have room : Digits.length m.natAbs * k.toNat ≤ calculator.digits := by
    have fits := small.2
    rwa [Decimal.integerDigits, Decimal.toInt_eq, Decimal.toInt_eq, base_eq, exponent_eq,
      Decimal.integerPart_intCast, Decimal.integerPart_intCast] at fits
  obtain ⟨power, raised, rfl⟩ := Option.map_eq_some_iff.mp fold
  have done : calculator.pow a b = .ok power := by
    cases outcome : calculator.pow a b with
    | ok result =>
      rw [outcome] at raised
      rw [Option.some.inj raised]
    | error fault =>
      rw [outcome] at raised
      cases raised
  have whole := calculator.toRat_pow estimates base_eq exponent_nat room done
  refine ⟨power, m, k.toNat, done, base_eq, exponent_nat, whole, ?_⟩
  rw [Decimal.toRat_truncate, whole, Decimal.integerPart_intCast]

/-- Operands are folded only where the operator has a value, and to its number. -/
theorem foldPair?_eq_some {op : Operator} (estimates : op = .power → calculator.EstimatesLogarithm)
    (arithmetic : op.isArithmetic = true) (fold : calculator.foldPair? op a b = some folded) :
    ∃ value, op.combine calculator a b = .ok value ∧ Same value folded := by
  cases op with
  | add | sub | mul =>
    cases Decimal.exactEverywhere?_eq fold
    exact ⟨_, rfl, rfl⟩
  | div =>
    obtain ⟨_, divided, exact⟩ := Option.bind_eq_some_iff.mp fold
    cases Decimal.exactEverywhere?_eq exact
    obtain ⟨quotient, n, done, whole, same, -⟩ := foldQuotient?_eq_some divided
    exact ⟨quotient, EvalError.lift_eq_ok.mpr done, whole.trans same.symm⟩
  | rem =>
    simp only [foldPair?] at fold
    split at fold
    · rename_i integers
      simp only [Bool.and_eq_true, Bool.not_eq_true'] at integers
      cases Decimal.exactEverywhere?_eq fold
      exact ⟨_, if_neg (by simp [integers.2]), rfl⟩
    · cases fold
  | power =>
    obtain ⟨_, raised, exact⟩ := Option.bind_eq_some_iff.mp fold
    cases Decimal.exactEverywhere?_eq exact
    obtain ⟨power, m, n, done, -, -, whole, same⟩ := foldPower?_eq_some (estimates rfl) raised
    exact ⟨power, EvalError.lift_eq_ok.mpr done, whole.trans same.symm⟩
  | _ => cases arithmetic

theorem foldPair?_sound (estimates : calculator.EstimatesLogarithm) {op : Operator}
    (fold : calculator.foldPair? op a b = some folded)
    (done : op.combine calculator a b = .ok value) : Same value folded := by
  cases arithmetic : op.isArithmetic with
  | false => exact absurd done (Operator.combine_ne_ok arithmetic calculator a b value)
  | true =>
    obtain ⟨combined, done', same⟩ := foldPair?_eq_some (fun _ => estimates) arithmetic fold
    cases done.symm.trans done'
    exact same

end Calculator

variable {calculator : Calculator} {inputs : String → Option Decimal} {frame : Frame}
variable {enter : Definition → List Definition → List Decimal → Except EvalError Decimal}

/-! Literals of a chain. -/

namespace Operator.Chain

variable {op : Operator} {M : Type} [CommMonoid M] {chain : op.Chain M}

theorem embed_fold (estimates : calculator.EstimatesLogarithm) {a b folded : Decimal}
    (fold : calculator.foldPair? op a b = some folded) :
    chain.embed folded = chain.embed a * chain.embed b := by
  obtain ⟨combined, done, product⟩ := chain.combine calculator a b
  rw [← product, chain.embed_eq_iff]
  exact (Calculator.foldPair?_sound estimates fold done).symm

theorem total_foldInto (estimates : calculator.EstimatesLogarithm) (held : Decimal)
    (operands : List Expr) :
    chain.embed (Expr.foldInto calculator op held operands).1 *
        chain.total calculator inputs enter frame (Expr.foldInto calculator op held operands).2 =
      chain.embed held * chain.total calculator inputs enter frame operands := by
  fun_induction Expr.foldInto calculator op held operands with
  | case1 => rfl
  | case2 held value rest folded fold ih =>
    rw [ih, embed_fold estimates fold, total_cons, WithZero.coe_mul, mul_assoc]
    rfl
  | case3 held value rest fold held' rest' result ih =>
    rw [result] at ih
    rw [total_cons, total_cons, mul_left_comm, ih, mul_left_comm]
  | case4 held expr rest other held' rest' result ih =>
    rw [result] at ih
    rw [total_cons, total_cons, mul_left_comm, ih, mul_left_comm]

theorem total_foldAll (estimates : calculator.EstimatesLogarithm) (operands : List Expr) :
    chain.total calculator inputs enter frame (Expr.foldAll calculator op operands) =
      chain.total calculator inputs enter frame operands := by
  fun_induction Expr.foldAll calculator op operands with
  | case1 => rfl
  | case2 value rest held rest' result =>
    have moved : _ = chain.embed value * chain.total calculator inputs enter frame rest :=
      total_foldInto estimates value rest
    rw [result] at moved
    rw [total_cons, total_cons]
    exact moved
  | case3 expr rest other ih => rw [total_cons, total_cons, ih]

theorem foldAll_standsFor (chain : op.Chain M) (estimates : calculator.EstimatesLogarithm)
    (operands : List Expr) :
    StandsFor calculator Same inputs enter enter frame frame (.binary op operands)
      (.binary op (Expr.foldAll calculator op operands)) := by
  refine chain.gains_of_amount fun valued => ?_
  cases operands with
  | nil => exact absurd rfl valued
  | cons first rest =>
    have begins : Expr.foldAll calculator op (first :: rest) ≠ [] := by
      cases first <;> exact List.cons_ne_nil _ _
    rw [amount_binary begins, amount_binary (List.cons_ne_nil _ _), total_foldAll estimates]

end Operator.Chain

namespace Expr

theorem valueWith_nary (op : Operator) (operands : List Expr) :
    (nary op operands).valueWith calculator inputs enter frame =
      (binary op operands).valueWith calculator inputs enter frame := by
  match operands with
  | [] => rfl
  | [operand] => exact (valueWith_single op operand frame).symm
  | _ :: _ :: _ => rfl

theorem foldAll_standsFor (estimates : calculator.EstimatesLogarithm) {op : Operator}
    (associative : op.isAssociative = true) (operands : List Expr) :
    StandsFor calculator Same inputs enter enter frame frame (binary op operands)
      (binary op (foldAll calculator op operands)) := by
  obtain rfl | rfl | other := Operator.cases_of_isAssociative associative
  · exact Operator.Chain.sum.foldAll_standsFor estimates operands
  · exact Operator.Chain.product.foldAll_standsFor estimates operands
  · intro value done
    obtain ⟨operand, rfl⟩ := single_of_not_arithmetic other done
    have alone : foldAll calculator op [operand] = [operand] := by cases operand <;> rfl
    rw [alone]
    exact StandsFor.refl value done

theorem foldFront_sameOutcome (estimates : calculator.EstimatesLogarithm) {op : Operator}
    (arithmetic : op.isArithmetic = true) (held : Decimal) (operands : List Expr) :
    EvalError.Alike Same (combineWith calculator inputs enter op held operands frame)
      (combineWith calculator inputs enter op (foldFront calculator op held operands).1
        (foldFront calculator op held operands).2 frame) := by
  fun_induction foldFront calculator op held operands with
  | case1 held value rest folded fold ih =>
    obtain ⟨combined, done, same⟩ :=
      Calculator.foldPair?_eq_some (fun _ => estimates) arithmetic fold
    have others : SameOutcomes calculator inputs enter enter frame frame rest rest :=
      List.forall₂_same.mpr fun _ _ => .refl _
    have literal : combineWith calculator inputs enter op held (number value :: rest) frame =
        combineWith calculator inputs enter op combined rest frame := by
      simp only [combineWith, valueWith]
      change (op.combine calculator held value >>= _) = _
      rw [done]
      rfl
    rw [literal]
    exact (SameOutcome.combine others op same).trans ih
  | case2 => exact .refl _
  | case3 => exact .refl _

theorem foldLeading_sameOutcome (estimates : calculator.EstimatesLogarithm) {op : Operator}
    (arithmetic : op.isArithmetic = true) (operands : List Expr) :
    SameOutcome calculator inputs enter enter frame frame (binary op operands)
      (binary op (foldLeading calculator op operands)) := by
  fun_cases foldLeading calculator op operands with
  | case1 value rest held rest' result =>
    have front : EvalError.Alike Same
        (combineWith calculator inputs enter op value rest frame) _ :=
      foldFront_sameOutcome estimates arithmetic value rest
    rw [result] at front
    unfold SameOutcome
    simp only [valueWith]
    exact front
  | case2 => exact .refl _

theorem foldLeading_standsFor (estimates : calculator.EstimatesLogarithm) (op : Operator)
    (operands : List Expr) :
    StandsFor calculator Same inputs enter enter frame frame (binary op operands)
      (binary op (foldLeading calculator op operands)) := by
  cases arithmetic : op.isArithmetic with
  | true => exact (foldLeading_sameOutcome estimates arithmetic operands).improves
  | false =>
    intro value done
    obtain ⟨operand, rfl⟩ := single_of_not_arithmetic arithmetic done
    have alone : foldLeading calculator op [operand] = [operand] := by cases operand <;> rfl
    rw [alone]
    exact StandsFor.refl value done

theorem foldOperands_standsFor (estimates : calculator.EstimatesLogarithm)
    (keptApart : List Operator) (op : Operator) (operands : List Expr) :
    StandsFor calculator Same inputs enter enter frame frame (binary op operands)
      (foldOperands calculator keptApart op operands) := by
  rw [foldOperands, StandsFor, valueWith_nary]
  split
  · rename_i chained
    simp only [chains, Bool.and_eq_true] at chained
    exact foldAll_standsFor estimates chained.1 operands
  · exact foldLeading_standsFor estimates op operands

theorem foldOperand_sameOutcome {op : UnaryOperator} (arithmetic : op ≠ .not) (operand : Expr) :
    SameOutcome calculator inputs enter enter frame frame (unary op operand)
      (foldOperand calculator op operand) := by
  unfold foldOperand
  split
  · rename_i folded found
    obtain ⟨value, literal, fold⟩ := Option.bind_eq_some_iff.mp found
    obtain rfl : operand = number value := by
      cases operand <;> cases literal
      rfl
    unfold SameOutcome
    cases op with
    | negate =>
      simp only [Calculator.foldUnary?] at fold
      split at fold
      · cases fold
        rfl
      · cases fold
    | not => exact absurd rfl arithmetic
    | factorial =>
      simp only [Calculator.foldUnary?] at fold
      split at fold
      · rename_i result computed
        split at fold
        · cases Decimal.exactEverywhere?_eq fold
          simp only [valueWith]
          change EvalError.Alike Same (EvalError.lift (calculator.factorial value)) _
          rw [computed]
          rfl
        · cases fold
      · cases fold
  · exact .refl _

theorem foldOperand_standsFor (op : UnaryOperator) (operand : Expr) :
    StandsFor calculator Same inputs enter enter frame frame (unary op operand)
      (foldOperand calculator op operand) := by
  by_cases logical : op = .not
  · subst logical
    exact .of_error
  · exact (foldOperand_sameOutcome logical operand).improves

mutual

theorem foldLiterals_eq (calculator : Calculator) (keptApart : List Operator) :
    ∀ expr : Expr, expr.foldLiterals calculator keptApart =
      expr.rewrite (foldOperand calculator) (foldOperands calculator keptApart)
  | number _ | text _ | var _ => rfl
  | unary op operand => by
    rw [foldLiterals, rewrite, foldLiterals_eq calculator keptApart operand]
  | binary op operands => by
    rw [foldLiterals, rewrite, foldLiteralsAll_eq calculator keptApart operands]
  | member target name => by
    rw [foldLiterals, rewrite, foldLiterals_eq calculator keptApart target]
  | call name arguments primed => by
    rw [foldLiterals, rewrite, foldLiteralsAll_eq calculator keptApart arguments]
  | define name parameters body value => by
    rw [foldLiterals, rewrite, foldLiterals_eq calculator keptApart body,
      foldLiterals_eq calculator keptApart value]

theorem foldLiteralsAll_eq (calculator : Calculator) (keptApart : List Operator) :
    ∀ exprs : List Expr, foldLiteralsAll calculator keptApart exprs =
      rewriteAll (foldOperand calculator) (foldOperands calculator keptApart) exprs
  | [] => rfl
  | expr :: rest => by
    rw [foldLiteralsAll, rewriteAll, foldLiterals_eq calculator keptApart expr,
      foldLiteralsAll_eq calculator keptApart rest]

end

theorem foldLiterals_keepsValues (numeric : calculator.Numeric)
    (estimates : calculator.EstimatesLogarithm) (keptApart : List Operator) (depth : Nat) :
    KeepsValues calculator Same inputs (foldLiterals calculator keptApart) depth := by
  rw [funext (foldLiterals_eq calculator keptApart)]
  exact rewrite_keepsValues numeric.respects
    ⟨foldOperand_standsFor, foldOperands_standsFor estimates keptApart⟩ depth

end Expr

end Formulary
