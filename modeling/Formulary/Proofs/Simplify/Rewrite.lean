import Formulary.Proofs.Semantics.Refinement
import Formulary.Simplify.Fold

namespace Formulary

/-! Passes that rewrite operators from the bottom up. Such a pass keeps the value of every tree
    when each single rewriting does. -/

namespace Expr

mutual

/-- Rewrite the operators of a tree, the innermost first. -/
def rewrite (unaryOf : UnaryOperator → Expr → Expr) (binaryOf : Operator → List Expr → Expr) :
    Expr → Expr
  | number value => number value
  | text content => text content
  | var name => var name
  | unary op operand => unaryOf op (rewrite unaryOf binaryOf operand)
  | binary op operands => binaryOf op (rewriteAll unaryOf binaryOf operands)
  | member target name => member (rewrite unaryOf binaryOf target) name
  | call name arguments primed => call name (rewriteAll unaryOf binaryOf arguments) primed
  | define name parameters body value =>
    define name parameters (rewrite unaryOf binaryOf body) (rewrite unaryOf binaryOf value)

def rewriteAll (unaryOf : UnaryOperator → Expr → Expr) (binaryOf : Operator → List Expr → Expr) :
    List Expr → List Expr
  | [] => []
  | expr :: rest => rewrite unaryOf binaryOf expr :: rewriteAll unaryOf binaryOf rest

end

/-- Each rewriting of an operator stands for the operator. -/
structure RewritesSoundly (calculator : Calculator) (akin : Decimal → Decimal → Prop)
    (inputs : String → Option Decimal) (unaryOf : UnaryOperator → Expr → Expr)
    (binaryOf : Operator → List Expr → Expr) : Prop where
  unary : ∀ {enter frame} op operand,
    StandsFor calculator akin inputs enter enter frame frame (unary op operand) (unaryOf op operand)
  binary : ∀ {enter frame} op operands,
    StandsFor calculator akin inputs enter enter frame frame (binary op operands)
      (binaryOf op operands)

variable {calculator : Calculator} {akin : Decimal → Decimal → Prop}
variable {inputs : String → Option Decimal}
variable {unaryOf : UnaryOperator → Expr → Expr} {binaryOf : Operator → List Expr → Expr}

mutual

/-- The tree itself is treated by recursion, bodies of definitions by what is known about fewer
    nested calls. -/
theorem rewrite_step [IsPreorder Decimal akin] (respects : calculator.Respects akin)
    (sound : RewritesSoundly calculator akin inputs unaryOf binaryOf) {depth deep : Nat}
    (deeper : deep ≥ depth)
    (lower : ∀ k < depth, KeepsValues calculator akin inputs (rewrite unaryOf binaryOf) k) :
    ∀ (expr : Expr) (frame frame' : Frame),
      SameNames akin frame.parameters frame'.parameters →
      Carries calculator akin inputs depth expr.callees frame.definitions frame'.definitions →
        StandsWithin calculator akin inputs depth deep frame frame' expr
          (expr.rewrite unaryOf binaryOf)
  | number value, _, _, _, _ => .number value
  | text content, _, _, _, _ => .of_error
  | var name, _, _, same, _ => .var same name
  | unary op operand, frame, frame', same, carries =>
    (StandsFor.unary respects op (rewrite_step respects sound deeper lower operand frame frame'
      same carries)).trans (sound.unary op _)
  | binary op operands, frame, frame', same, carries => by
    rw [callees_binary] at carries
    have inside := rewriteAll_step respects sound deeper lower operands frame frame' same carries
    exact (StandsFor.binary respects op inside).trans (sound.binary op _)
  | member target name, _, _, _, _ => .of_error
  | call name arguments primed, frame, frame', same, carries => by
    rw [callees_call] at carries
    have inside := rewriteAll_step respects sound deeper lower arguments frame frame' same
      (carries.mono le_rfl (List.subset_cons_self _ _))
    exact .call inside (carries depth le_rfl deep deeper name (by simp) primed)
  | define name parameters body value, frame, frame', same, carries => by
    rw [callees_define] at carries
    have known : body.callees ⊆ name :: (body.callees ++ value.callees) :=
      fun _ member => by simp [member]
    have inside := carries.change parameters known lower
    exact .define (rewrite_step respects sound deeper lower value
      (frame.define ⟨name, parameters, body⟩) (frame'.define ⟨name, parameters, _⟩) same
      (inside.mono le_rfl fun _ member => by simp [member]))

theorem rewriteAll_step [IsPreorder Decimal akin] (respects : calculator.Respects akin)
    (sound : RewritesSoundly calculator akin inputs unaryOf binaryOf) {depth deep : Nat}
    (deeper : deep ≥ depth)
    (lower : ∀ k < depth, KeepsValues calculator akin inputs (rewrite unaryOf binaryOf) k) :
    ∀ (exprs : List Expr) (frame frame' : Frame),
      SameNames akin frame.parameters frame'.parameters →
      Carries calculator akin inputs depth (exprs.flatMap callees) frame.definitions
        frame'.definitions →
        StandFor calculator akin inputs (enterWithin calculator inputs depth)
          (enterWithin calculator inputs deep) frame frame' exprs
          (rewriteAll unaryOf binaryOf exprs)
  | [], _, _, _, _ => .nil
  | expr :: rest, frame, frame', same, carries => by
    rw [List.flatMap_cons] at carries
    exact .cons
      (rewrite_step respects sound deeper lower expr frame frame' same
        (carries.mono le_rfl (List.subset_append_left _ _)))
      (rewriteAll_step respects sound deeper lower rest frame frame' same
        (carries.mono le_rfl (List.subset_append_right _ _)))

end

theorem rewrite_keepsValues [IsPreorder Decimal akin] (respects : calculator.Respects akin)
    (sound : RewritesSoundly calculator akin inputs unaryOf binaryOf) (depth : Nat) :
    KeepsValues calculator akin inputs (rewrite unaryOf binaryOf) depth := by
  induction depth using Nat.strong_induction_on with
  | h depth lower => exact fun deep deeper => rewrite_step respects sound deeper lower

/-! Nothing rewritten: a tree keeps its value where the functions that it calls do. -/

mutual

theorem rewrite_unary_binary : ∀ expr : Expr, expr.rewrite unary binary = expr
  | number _ | text _ | var _ => rfl
  | unary op operand => by rw [rewrite, rewrite_unary_binary operand]
  | binary op operands => by rw [rewrite, rewriteAll_unary_binary operands]
  | member target name => by rw [rewrite, rewrite_unary_binary target]
  | call name arguments primed => by rw [rewrite, rewriteAll_unary_binary arguments]
  | define name parameters body value => by
    rw [rewrite, rewrite_unary_binary body, rewrite_unary_binary value]

theorem rewriteAll_unary_binary : ∀ exprs : List Expr, rewriteAll unary binary exprs = exprs
  | [] => rfl
  | expr :: rest => by rw [rewriteAll, rewrite_unary_binary expr, rewriteAll_unary_binary rest]

end

theorem id_keepsValues [IsPreorder Decimal akin] (respects : calculator.Respects akin)
    (depth : Nat) : KeepsValues calculator akin inputs id depth := by
  intro deep deeper expr frame frame' same carries
  have sound : RewritesSoundly calculator akin inputs unary binary :=
    ⟨fun _ _ => .refl, fun _ _ => .refl⟩
  have kept := rewrite_keepsValues respects sound depth deep deeper expr frame frame' same carries
  rwa [rewrite_unary_binary] at kept

end Expr

theorem Carries.of_visible {calculator : Calculator} {akin : Decimal → Decimal → Prop}
    [IsPreorder Decimal akin] {inputs : String → Option Decimal}
    (respects : calculator.Respects akin) (depth : Nat) {names : List String}
    {before after : List Definition}
    (same : ∀ name ∈ names, Definition.visible name before = Definition.visible name after) :
    Carries calculator akin inputs depth names before after := by
  induction depth using Nat.strong_induction_on generalizing names before after with
  | h depth ih =>
    intro k shallow deep deeper name member primed values values' related
    rw [Definition.applyNamed_congr (same name member)]
    cases seen : Definition.visible name after with
    | nil =>
      simp only [Definition.applyNamed, seen]
      split
      · exact respects.value _ related
      · exact .of_error
    | cons definition below =>
      rw [Definition.applyNamed_self seen, Definition.applyNamed_self seen, related.length_eq]
      split
      · cases k with
        | zero => exact .of_error
        | succ k =>
          obtain ⟨deep, rfl⟩ : ∃ less, deep = less + 1 := ⟨deep - 1, by omega⟩
          exact Expr.id_keepsValues respects k deep (by omega) definition.body _ _
            (SameNames.zip related) (ih k (by omega) fun _ _ => rfl)
      · exact .of_error

end Formulary
