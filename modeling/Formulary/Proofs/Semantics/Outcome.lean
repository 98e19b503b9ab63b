import Formulary.Proofs.Semantics.Refinement

namespace Formulary

/-! When two trees have the same outcome: both have the same number, or both fail with errors of
    one kind. Trees whose parts have the same outcomes do so too. -/

open Decimal (Same)

theorem EvalError.Alike.refl (outcome : Except EvalError Decimal) :
    EvalError.Alike Same outcome outcome := by
  cases outcome <;> rfl

theorem EvalError.Alike.trans {left middle right : Except EvalError Decimal}
    (first : EvalError.Alike Same left middle) (second : EvalError.Alike Same middle right) :
    EvalError.Alike Same left right :=
  Matches.trans first second (fun _ _ _ => Eq.trans) fun _ _ _ => Eq.trans

section

variable {calculator : Calculator} {inputs : String → Option Decimal}
variable {enter enter' : Definition → List Definition → List Decimal → Except EvalError Decimal}
variable {frame frame' : Frame} {expr expr' : Expr} {exprs exprs' : List Expr}

/-- Two trees have the same outcome in their frames. -/
abbrev SameOutcome (calculator : Calculator) (inputs : String → Option Decimal)
    (enter enter' : Definition → List Definition → List Decimal → Except EvalError Decimal)
    (frame frame' : Frame) (expr expr' : Expr) : Prop :=
  EvalError.Alike Same (expr.valueWith calculator inputs enter frame)
    (expr'.valueWith calculator inputs enter' frame')

abbrev SameOutcomes (calculator : Calculator) (inputs : String → Option Decimal)
    (enter enter' : Definition → List Definition → List Decimal → Except EvalError Decimal)
    (frame frame' : Frame) (exprs exprs' : List Expr) : Prop :=
  List.Forall₂ (SameOutcome calculator inputs enter enter' frame frame') exprs exprs'

namespace SameOutcome

theorem var (same : SameNames Same frame.parameters frame'.parameters) (name : String) :
    SameOutcome calculator inputs enter enter' frame frame' (.var name) (.var name) := by
  unfold SameOutcome
  simp only [Expr.valueWith]
  cases left : frame.parameters.lookup name with
  | none =>
    rw [SameNames.lookup_none same left]
    exact .refl _
  | some value =>
    obtain ⟨value', right, related⟩ := SameNames.lookup_some same left
    rw [right]
    exact related

theorem unary (numeric : calculator.Numeric) (op : UnaryOperator)
    (operand : SameOutcome calculator inputs enter enter' frame frame' expr expr') :
    SameOutcome calculator inputs enter enter' frame frame' (.unary op expr) (.unary op expr') := by
  unfold SameOutcome
  cases op with
  | negate =>
    simp only [Expr.valueWith]
    exact operand.bind fun _ _ related => related.neg
  | factorial =>
    simp only [Expr.valueWith]
    exact operand.bind fun _ _ related =>
      EvalError.Alike.lift (Calculator.factorial_congr numeric related)
  | not => rfl

theorem combine (operands : SameOutcomes calculator inputs enter enter' frame frame' exprs exprs')
    (op : Operator) {value value' : Decimal} (same : Same value value') :
    EvalError.Alike Same (Expr.combineWith calculator inputs enter op value exprs frame)
      (Expr.combineWith calculator inputs enter' op value' exprs' frame') := by
  induction operands generalizing value value' with
  | nil =>
    simp only [Expr.combineWith]
    exact same
  | cons first _ ih =>
    simp only [Expr.combineWith]
    refine first.bind fun next next' related => ?_
    refine Matches.bind ?_ fun combined combined' => ih
    rw [← calculator.arith_eq, ← calculator.arith_eq]
    exact calculator.arith_congr op same related

theorem binary (op : Operator)
    (operands : SameOutcomes calculator inputs enter enter' frame frame' exprs exprs') :
    SameOutcome calculator inputs enter enter' frame frame' (.binary op exprs)
      (.binary op exprs') := by
  unfold SameOutcome
  cases operands with
  | nil => rfl
  | cons first rest =>
    simp only [Expr.valueWith]
    exact first.bind fun _ _ related => combine rest op related

theorem values (arguments : SameOutcomes calculator inputs enter enter' frame frame' exprs exprs') :
    EvalError.Alike (List.Forall₂ Same) (Expr.valuesWith calculator inputs enter exprs frame)
      (Expr.valuesWith calculator inputs enter' exprs' frame') := by
  induction arguments with
  | nil =>
    simp only [Expr.valuesWith]
    exact .nil
  | cons first _ ih =>
    simp only [Expr.valuesWith]
    refine first.bind fun _ _ related => ?_
    exact ih.bind fun _ _ others => .cons related others

end SameOutcome

end

end Formulary
