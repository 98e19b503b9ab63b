import Formulary.Proofs.Semantics.Fragment

namespace Formulary

/-! Formulas over decimals in which every call has a function and as many arguments as the
    function has parameters. They are compiled without failure. -/

namespace Definition

/-- Names with numbers of parameters. -/
def arities (definitions : List Definition) : List (String × Nat) :=
  definitions.map fun definition => (definition.name, definition.parameters.length)

theorem lookup_arities (name : String) (definitions : List Definition) :
    (arities definitions).lookup name =
      (visible name definitions).head?.map fun definition => definition.parameters.length := by
  induction definitions with
  | nil => rfl
  | cons definition rest ih =>
    rw [arities, List.map_cons, List.lookup_cons, visible]
    by_cases same : definition.name = name
    · simp [same]
    · have other : (name == definition.name) = false := by simpa using Ne.symm same
      have other' : (definition.name == name) = false := by simpa using same
      rw [other, other']
      exact ih

end Definition

namespace Expr

mutual

/-- Numbers, decimal inputs and parameters, arithmetic, and local definitions, where `arities`
    are the definitions that can be called. -/
def Complete (inputs : Table Ty) (parameters : List String) (arities : List (String × Nat)) :
    Expr → Prop
  | number _ => True
  | text _ => False
  | var name => name ∈ parameters ∨ inputs.get? name = some .decimal
  | unary op operand => op ≠ .not ∧ Complete inputs parameters arities operand
  | binary op operands => op.isArithmetic ∧ operands ≠ [] ∧
      CompleteAll inputs parameters arities operands
  | member _ _ => False
  | call name arguments primed =>
    (match arities.lookup name with
      | some arity => arguments.length = arity
      | none => primed = false ∧ MathFunction.Suits name arguments.length) ∧
    CompleteAll inputs parameters arities arguments
  | define name own body value =>
    Complete inputs own ((name, own.length) :: arities) body ∧
      Complete inputs parameters ((name, own.length) :: arities) value

def CompleteAll (inputs : Table Ty) (parameters : List String) (arities : List (String × Nat)) :
    List Expr → Prop
  | [] => True
  | expr :: rest => Complete inputs parameters arities expr ∧
      CompleteAll inputs parameters arities rest

end

theorem completeAll_iff {inputs : Table Ty} {parameters : List String}
    {arities : List (String × Nat)} {exprs : List Expr} :
    CompleteAll inputs parameters arities exprs ↔
      ∀ expr ∈ exprs, Complete inputs parameters arities expr := by
  induction exprs with
  | nil => simp [CompleteAll]
  | cons expr rest ih => simp [CompleteAll, ih]

end Expr

/-- Complete bodies, each with the definitions it sees. -/
def Definition.Complete (inputs : Table Ty) (definitions : List Definition) : Prop :=
  ∀ definition below, (definition :: below) <:+ definitions →
    definition.body.Complete inputs definition.parameters (arities (definition :: below))

theorem Definition.Complete.below {inputs : Table Ty} {definitions below : List Definition}
    (complete : Definition.Complete inputs definitions) (order : below <:+ definitions) :
    Definition.Complete inputs below :=
  fun definition rest inner => complete definition rest (inner.trans order)

theorem Definition.Complete.cons {inputs : Table Ty} {definitions : List Definition}
    {definition : Definition} (complete : Definition.Complete inputs definitions)
    (body : definition.body.Complete inputs definition.parameters
      (arities (definition :: definitions))) :
    Definition.Complete inputs (definition :: definitions) := by
  intro other below inner
  rcases List.suffix_cons_iff.mp inner with same | inner
  · cases same
    exact body
  · exact complete other below inner

theorem Fragment.complete (compiler : Compiler) :
    Fragment compiler False fun names definitions expr =>
      expr.Complete compiler.options.inputs names (Definition.arities definitions) ∧
        Definition.Complete compiler.options.inputs definitions where
  var admitted := admitted.1
  text admitted := admitted.1
  member admitted := admitted.1
  unary admitted := ⟨admitted.1.1, admitted.1.2, admitted.2⟩
  binary admitted := ⟨admitted.1.2.1, .inl admitted.1.1, fun operand member =>
    ⟨Expr.completeAll_iff.mp admitted.1.2.2 operand member, admitted.2⟩⟩
  arguments admitted argument member :=
    ⟨Expr.completeAll_iff.mp admitted.1.2 argument member, admitted.2⟩
  defined := by
    rintro names definitions name arguments primed definition below ⟨⟨called, -⟩, complete⟩ seen
    rw [Definition.lookup_arities, seen] at called
    have order := (Definition.visible_eq_cons seen).2
    exact ⟨fun wrong => wrong called, fun _ => ⟨complete _ _ order, complete.below order⟩⟩
  builtin := by
    rintro names definitions name arguments primed ⟨⟨called, -⟩, -⟩ hidden
    rw [Definition.lookup_arities, hidden] at called
    obtain ⟨primed, function, named, plain, arity⟩ := called
    exact ⟨primed, function, named ▸ function.ofName?_name, plain, fun wrong => wrong arity⟩
  define admitted := ⟨admitted.1.2, admitted.2.cons admitted.1.1⟩

end Formulary
