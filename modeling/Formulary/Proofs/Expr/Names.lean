import Formulary.Expr.Scope

namespace Formulary.Expr

/-! Names in a tree, part by part. -/

theorem subtreesAll_eq (exprs : List Expr) : subtreesAll exprs = exprs.flatMap subtrees := by
  induction exprs with
  | nil => rfl
  | cons expr rest ih => rw [subtreesAll, ih, List.flatMap_cons]

@[simp] theorem callees_binary (op : Operator) (operands : List Expr) :
    (binary op operands).callees = operands.flatMap callees := by
  simp only [callees, subtrees, subtreesAll_eq, List.filterMap_cons, List.filterMap_flatMap]
  rfl

@[simp] theorem callees_call (name : String) (arguments : List Expr) (primed : Bool) :
    (call name arguments primed).callees = name :: arguments.flatMap callees := by
  simp only [callees, subtrees, subtreesAll_eq, List.filterMap_cons, List.filterMap_flatMap]
  rfl

@[simp] theorem callees_define (name : String) (parameters : List String) (body value : Expr) :
    (define name parameters body value).callees = body.callees ++ value.callees := by
  simp only [callees, subtrees, List.filterMap_cons, List.filterMap_append]

@[simp] theorem definitions_binary (op : Operator) (operands : List Expr) :
    (binary op operands).definitions = operands.flatMap definitions := by
  simp only [definitions, subtrees, subtreesAll_eq, List.filterMap_cons, List.filterMap_flatMap]
  rfl

@[simp] theorem definitions_call (name : String) (arguments : List Expr) (primed : Bool) :
    (call name arguments primed).definitions = arguments.flatMap definitions := by
  simp only [definitions, subtrees, subtreesAll_eq, List.filterMap_cons, List.filterMap_flatMap]
  rfl

@[simp] theorem definitions_define (name : String) (parameters : List String)
    (body value : Expr) :
    (define name parameters body value).definitions =
      name :: (body.definitions ++ value.definitions) := by
  simp only [definitions, subtrees, List.filterMap_cons, List.filterMap_append]

theorem countCalls_eq_zero {name : String} {expr : Expr} :
    expr.countCalls name = 0 ↔ name ∉ expr.callees := by
  unfold countCalls callees
  rw [List.countP_eq_zero, List.mem_filterMap]
  constructor
  · rintro none_ ⟨tree, listed, called⟩
    cases tree with
    | call callee arguments primed =>
      cases called
      exact none_ _ listed (by simp)
    | _ => cases called
  · intro uncalled tree listed called
    cases tree with
    | call callee arguments primed =>
      obtain rfl : callee = name := by simpa using called
      exact uncalled ⟨_, listed, rfl⟩
    | _ => cases called

end Formulary.Expr
