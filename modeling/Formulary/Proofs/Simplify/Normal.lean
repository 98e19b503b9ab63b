import Mathlib.Logic.Function.Iterate
import Formulary.Proofs.Expr.Places
import Formulary.Proofs.Simplify.Scalar

namespace Formulary

/-! Where rewriting from the bottom up comes to rest. What the rewriting of a root establishes
    above parts that are done holds throughout the rewritten tree. A tree is left alone when the
    rewriting of every root in it changes nothing; and if that makes trees smaller wherever it
    changes them, no other tree is left alone, and each tree becomes one that is. -/

namespace Expr

/-- The tree with other parts in place of its own. -/
def mapParts (f : Expr → Expr) : Expr → Expr
  | number value => number value
  | text content => text content
  | var name => var name
  | unary op operand => unary op (f operand)
  | binary op operands => binary op (operands.map f)
  | member target name => member (f target) name
  | call name arguments primed => call name (arguments.map f) primed
  | define name parameters body value => define name parameters (f body) (f value)

/-- Rewrite an operation, and not its operands. -/
def rewriteRoot (unaryOf : UnaryOperator → Expr → Expr) (binaryOf : Operator → List Expr → Expr) :
    Expr → Expr
  | unary op operand => unaryOf op operand
  | binary op operands => binaryOf op operands
  | expr => expr

variable {unaryOf : UnaryOperator → Expr → Expr} {binaryOf : Operator → List Expr → Expr}

theorem rewrite_eq (expr : Expr) :
    expr.rewrite unaryOf binaryOf =
      (expr.mapParts (rewrite unaryOf binaryOf)).rewriteRoot unaryOf binaryOf := by
  cases expr <;> simp only [rewrite, rewriteAll_eq_map, mapParts, rewriteRoot]

@[simp] theorem children_mapParts (f : Expr → Expr) (expr : Expr) :
    (expr.mapParts f).children = expr.children.map f := by
  cases expr <;> rfl

theorem mapParts_eq_self {f : Expr → Expr} {expr : Expr}
    (same : ∀ child ∈ expr.children, f child = child) : expr.mapParts f = expr := by
  have all : expr.children.map f = expr.children :=
    (List.map_congr_left same).trans (List.map_id _)
  cases expr <;> simp_all [children, mapParts]

/-- What is known of every part of a tree can be used where that part is rewritten. -/
theorem forall_subtrees_rewrite {given holds : Expr → Prop}
    (kept : ∀ expr, given expr →
      (∀ child ∈ (expr.mapParts (rewrite unaryOf binaryOf)).children,
        ∀ part ∈ child.subtrees, holds part) →
      ∀ part ∈ ((expr.mapParts (rewrite unaryOf binaryOf)).rewriteRoot unaryOf binaryOf).subtrees,
        holds part)
    (expr : Expr) (all : ∀ part ∈ expr.subtrees, given part) :
    ∀ part ∈ (expr.rewrite unaryOf binaryOf).subtrees, holds part := by
  induction expr using parts_induction with
  | step expr ih =>
    obtain ⟨self, below⟩ := forall_subtrees.mp all
    rw [rewrite_eq]
    refine kept expr self ?_
    rw [children_mapParts]
    exact List.forall_mem_map.mpr fun child member => ih child member (below child member)

theorem rewrite_eq_self (expr : Expr)
    (all : ∀ part ∈ expr.subtrees, part.rewriteRoot unaryOf binaryOf = part) :
    expr.rewrite unaryOf binaryOf = expr := by
  induction expr using parts_induction with
  | step expr ih =>
    obtain ⟨self, below⟩ := forall_subtrees.mp all
    rw [rewrite_eq, mapParts_eq_self fun child member => ih child member (below child member)]
    exact self

theorem sizeAll_map_le {f : Expr → Expr} {exprs : List Expr}
    (le : ∀ expr ∈ exprs, (f expr).size ≤ expr.size) : sizeAll (exprs.map f) ≤ sizeAll exprs := by
  induction exprs with
  | nil => exact Nat.le_refl _
  | cons expr rest ih =>
    obtain ⟨first, others⟩ := List.forall_mem_cons.mp le
    exact Nat.add_le_add first (ih others)

theorem sizeAll_map_lt {f : Expr → Expr} {exprs : List Expr} {smaller : Expr}
    (le : ∀ expr ∈ exprs, (f expr).size ≤ expr.size) (member : smaller ∈ exprs)
    (lt : (f smaller).size < smaller.size) : sizeAll (exprs.map f) < sizeAll exprs := by
  induction exprs with
  | nil => cases member
  | cons expr rest ih =>
    obtain ⟨first, others⟩ := List.forall_mem_cons.mp le
    rcases List.mem_cons.mp member with rfl | later
    · exact Nat.add_lt_add_of_lt_of_le lt (sizeAll_map_le others)
    · exact Nat.add_lt_add_of_le_of_lt first (ih others later)

/-- Rewriting changes nothing at any root of a tree, or makes the tree smaller. -/
theorem rewrite_shrinks
    (shrinks : ∀ expr : Expr, expr.rewriteRoot unaryOf binaryOf = expr ∨
      (expr.rewriteRoot unaryOf binaryOf).size < expr.size) (expr : Expr) :
    (∀ part ∈ expr.subtrees, part.rewriteRoot unaryOf binaryOf = part) ∨
      (expr.rewrite unaryOf binaryOf).size < expr.size := by
  induction expr using parts_induction with
  | step expr ih =>
    have root : (expr.rewrite unaryOf binaryOf).size ≤
        1 + sizeAll (expr.children.map (rewrite unaryOf binaryOf)) := by
      rw [rewrite_eq, ← children_mapParts, ← size_eq]
      rcases shrinks (expr.mapParts (rewrite unaryOf binaryOf)) with same | smaller
      · rw [same]
      · exact smaller.le
    have le : ∀ child ∈ expr.children,
        (child.rewrite unaryOf binaryOf).size ≤ child.size := by
      intro child member
      rcases ih child member with left | smaller
      · rw [rewrite_eq_self child left]
      · exact smaller.le
    by_cases changed : ∃ child ∈ expr.children,
        (child.rewrite unaryOf binaryOf).size < child.size
    · obtain ⟨child, member, smaller⟩ := changed
      have fewer := sizeAll_map_lt le member smaller
      rw [size_eq expr]
      exact .inr (by omega)
    · have left : ∀ child ∈ expr.children, ∀ part ∈ child.subtrees,
          part.rewriteRoot unaryOf binaryOf = part := fun child member =>
        (ih child member).resolve_right fun smaller => changed ⟨child, member, smaller⟩
      have same := mapParts_eq_self fun child member => rewrite_eq_self child (left child member)
      rw [rewrite_eq, same]
      exact (shrinks expr).imp_left fun self => forall_subtrees.mpr ⟨self, left⟩

end Expr

/-- A function that makes things smaller wherever it changes them comes to rest. -/
theorem iterate_rests {α : Type} {f : α → α} {size : α → Nat}
    (shrinks : ∀ item, f item = item ∨ size (f item) < size item) {item : α} {runs : Nat}
    (enough : size item ≤ runs) : f (f^[runs] item) = f^[runs] item := by
  induction runs generalizing item with
  | zero =>
    rcases shrinks item with same | smaller
    · exact same
    · omega
  | succ runs ih =>
    rcases shrinks item with same | smaller
    · rw [Function.iterate_fixed same, same]
    · rw [Function.iterate_succ_apply]
      exact ih (by omega)

end Formulary
