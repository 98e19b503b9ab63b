import Mathlib.Algebra.BigOperators.Group.List.Basic
import Mathlib.Algebra.GroupWithZero.WithZero
import Formulary.Proofs.Simplify.Rewrite

namespace Formulary

/-! Sums and products as chains. Exact addition and exact multiplication make a commutative
    monoid of the numbers; with a zero for operands that have no value, the value of a chain is
    the product of its operands, in any grouping and any order. -/

open Decimal (Same)

/-- An operator that multiplies in a commutative monoid of numbers. -/
structure Operator.Chain (op : Operator) (M : Type) [CommMonoid M] where
  embed : Decimal → M
  embed_eq_iff : ∀ {a b}, embed a = embed b ↔ Same a b
  combine : ∀ (calculator : Calculator) (a b : Decimal),
    ∃ c, op.combine calculator a b = .ok c ∧ embed c = embed a * embed b

def Operator.Chain.sum : Operator.Chain .add (Multiplicative ℚ) where
  embed d := .ofAdd d.toRat
  embed_eq_iff := Multiplicative.ofAdd.injective.eq_iff
  combine := fun _ a b => ⟨a.add b, rfl, by rw [Decimal.toRat_add, ofAdd_add]⟩

def Operator.Chain.product : Operator.Chain .mul ℚ where
  embed := Decimal.toRat
  embed_eq_iff := Iff.rfl
  combine := fun _ a b => ⟨a.mul b, rfl, Decimal.toRat_mul a b⟩

namespace Operator.Chain

variable {op : Operator} {M : Type} [CommMonoid M] (chain : op.Chain M)

/-- A number in the monoid, or zero where there is none. -/
def amount : Except EvalError Decimal → WithZero M
  | .ok value => chain.embed value
  | .error _ => 0

theorem gains_of_amount {left right : Except EvalError Decimal}
    (same : chain.amount left ≠ 0 → chain.amount right = chain.amount left) :
    Gains Same left right := by
  rintro value rfl
  have amounts := same WithZero.coe_ne_zero
  cases right with
  | error _ => exact absurd amounts.symm WithZero.coe_ne_zero
  | ok value' => exact ⟨value', rfl, (chain.embed_eq_iff.mp (WithZero.coe_injective amounts)).symm⟩

/-- The product of the operands. -/
def total (calculator : Calculator) (inputs : String → Option Decimal)
    (enter : Definition → List Definition → List Decimal → Except EvalError Decimal)
    (frame : Frame) (operands : List Expr) : WithZero M :=
  (operands.map fun operand => chain.amount (operand.valueWith calculator inputs enter frame)).prod

variable {chain}
variable {calculator : Calculator} {inputs : String → Option Decimal} {frame : Frame}
variable {enter : Definition → List Definition → List Decimal → Except EvalError Decimal}

theorem amount_combineWith (value : Decimal) (operands : List Expr) :
    chain.amount (Expr.combineWith calculator inputs enter op value operands frame) =
      chain.embed value * chain.total calculator inputs enter frame operands := by
  induction operands generalizing value with
  | nil => simp [Expr.combineWith, amount, total]
  | cons operand rest ih =>
    simp only [Expr.combineWith]
    cases evaluated : operand.valueWith calculator inputs enter frame with
    | error error =>
      simp [total, evaluated, amount, bind, Except.bind]
    | ok next =>
      obtain ⟨combined, done, product⟩ := chain.combine calculator value next
      simp only [bind, Except.bind, done, ih, product]
      simp [total, evaluated, amount, mul_assoc]

theorem amount_binary {operands : List Expr} (nonempty : operands ≠ []) :
    chain.amount ((Expr.binary op operands).valueWith calculator inputs enter frame) =
      chain.total calculator inputs enter frame operands := by
  obtain ⟨first, rest, rfl⟩ := List.exists_cons_of_ne_nil nonempty
  simp only [Expr.valueWith]
  cases evaluated : first.valueWith calculator inputs enter frame with
  | error error => simp [total, evaluated, amount, bind, Except.bind]
  | ok value =>
    simp only [bind, Except.bind, amount_combineWith]
    simp [total, evaluated, amount]

theorem total_append (before after : List Expr) :
    chain.total calculator inputs enter frame (before ++ after) =
      chain.total calculator inputs enter frame before *
        chain.total calculator inputs enter frame after := by
  simp [total]

theorem total_cons (operand : Expr) (operands : List Expr) :
    chain.total calculator inputs enter frame (operand :: operands) =
      chain.amount (operand.valueWith calculator inputs enter frame) *
        chain.total calculator inputs enter frame operands := by
  simp [total]

theorem total_spliced {operand : Expr}
    (valued : chain.amount (operand.valueWith calculator inputs enter frame) ≠ 0) :
    operand.spliced op ≠ [] ∧ chain.total calculator inputs enter frame (operand.spliced op) =
      chain.amount (operand.valueWith calculator inputs enter frame) := by
  have alone : ∀ expr : Expr, [expr] ≠ [] ∧ chain.total calculator inputs enter frame [expr] =
      chain.amount (expr.valueWith calculator inputs enter frame) :=
    fun expr => ⟨List.cons_ne_nil _ _, by simp [total]⟩
  cases operand with
  | binary inner operands =>
    rw [Expr.spliced]
    split
    · rename_i same
      cases beq_iff_eq.mp same
      have nonempty : operands ≠ [] := by
        rintro rfl
        exact valued rfl
      exact ⟨nonempty, (amount_binary nonempty).symm⟩
    · exact alone _
  | _ => exact alone _

theorem total_flatMap_spliced (operands : List Expr)
    (valued : chain.total calculator inputs enter frame operands ≠ 0) :
    chain.total calculator inputs enter frame (operands.flatMap (Expr.spliced op)) =
      chain.total calculator inputs enter frame operands := by
  induction operands with
  | nil => rfl
  | cons operand rest ih =>
    rw [total_cons] at valued ⊢
    rw [List.flatMap_cons, total_append, (total_spliced (left_ne_zero_of_mul valued)).2,
      ih (right_ne_zero_of_mul valued)]

theorem flatMap_spliced_standsFor (chain : op.Chain M) (operands : List Expr) :
    StandsFor calculator Same inputs enter enter frame frame (.binary op operands)
      (.binary op (operands.flatMap (Expr.spliced op))) := by
  refine chain.gains_of_amount fun valued => ?_
  have nonempty : operands ≠ [] := by
    rintro rfl
    exact valued rfl
  rw [amount_binary nonempty] at valued ⊢
  obtain ⟨first, rest, rfl⟩ := List.exists_cons_of_ne_nil nonempty
  have begins : (first :: rest).flatMap (Expr.spliced op) ≠ [] := by
    rw [total_cons] at valued
    simp [(total_spliced (left_ne_zero_of_mul valued)).1]
  rw [amount_binary begins, total_flatMap_spliced _ valued]

end Operator.Chain

theorem Operator.cases_of_isAssociative {op : Operator} (associative : op.isAssociative = true) :
    op = .add ∨ op = .mul ∨ op.isArithmetic = false := by
  cases op with
  | add => exact .inl rfl
  | mul => exact .inr (.inl rfl)
  | and | or => exact .inr (.inr rfl)
  | _ => cases associative

namespace Expr

variable {calculator : Calculator} {inputs : String → Option Decimal} {frame : Frame}
variable {enter : Definition → List Definition → List Decimal → Except EvalError Decimal}

theorem spliced_standsFor (op : Operator) (operand : Expr) :
    StandsFor calculator Same inputs enter enter frame frame (binary op [operand])
      (binary op (operand.spliced op)) := by
  cases operand with
  | binary inner operands =>
    rw [spliced]
    split
    · rename_i same
      cases beq_iff_eq.mp same
      rw [StandsFor, valueWith_single]
      exact .refl
    · exact .refl
  | _ => exact .refl

/-- The operands of a chain can take the place of the chain in a chain of the same operator. -/
theorem flatMap_spliced_standsFor {op : Operator} (associative : op.isAssociative = true)
    (operands : List Expr) :
    StandsFor calculator Same inputs enter enter frame frame (binary op operands)
      (binary op (operands.flatMap (spliced op))) := by
  obtain rfl | rfl | other := Operator.cases_of_isAssociative associative
  · exact Operator.Chain.sum.flatMap_spliced_standsFor operands
  · exact Operator.Chain.product.flatMap_spliced_standsFor operands
  · intro value done
    obtain ⟨operand, rfl⟩ := single_of_not_arithmetic other done
    simpa using spliced_standsFor op operand value done

mutual

theorem flatten_eq (keptApart : List Operator) : ∀ expr : Expr, expr.flatten keptApart = expr.rewrite unary fun op operands =>
    binary op (if chains keptApart op then operands.flatMap (spliced op) else operands)
  | number _ | text _ | var _ => rfl
  | unary op operand => by rw [flatten, rewrite, flatten_eq keptApart operand]
  | binary op operands => by rw [flatten, rewrite, flattenAll_eq keptApart operands]
  | member target name => by rw [flatten, rewrite, flatten_eq keptApart target]
  | call name arguments primed => by rw [flatten, rewrite, flattenAll_eq keptApart arguments]
  | define name parameters body value => by
    rw [flatten, rewrite, flatten_eq keptApart body, flatten_eq keptApart value]

theorem flattenAll_eq (keptApart : List Operator) : ∀ exprs : List Expr,
    flattenAll keptApart exprs = rewriteAll unary (fun op operands =>
      binary op (if chains keptApart op then operands.flatMap (spliced op) else operands)) exprs
  | [] => rfl
  | expr :: rest => by rw [flattenAll, rewriteAll, flatten_eq keptApart expr, flattenAll_eq keptApart rest]

end

theorem flatten_keepsValues (numeric : calculator.Numeric) (keptApart : List Operator)
    (depth : Nat) : KeepsValues calculator Same inputs (flatten keptApart) depth := by
  rw [funext (flatten_eq keptApart)]
  refine rewrite_keepsValues numeric.respects ⟨fun _ _ => .refl, fun op operands => ?_⟩ depth
  split
  · rename_i chained
    have associative : op.isAssociative = true := by
      simp only [chains, Bool.and_eq_true] at chained
      exact chained.1
    exact flatMap_spliced_standsFor associative operands
  · exact .refl

end Expr

end Formulary
