import Formulary.Compiler
import Formulary.Proofs.Expr.Names
import Formulary.Proofs.Semantics.Direct

namespace Formulary

/-! Formulas over decimals. -/

namespace Expr

mutual

/-- Numbers, decimal inputs and parameters, arithmetic, local definitions with their calls, and
    calls of functions that are `callable` with a number of arguments. The body of a definition
    sees its own parameters, itself and the definitions before it. -/
def Arithmetic (inputs : Table Ty) (callable : String → Nat → Prop)
    (parameters defined : List String) : Expr → Prop
  | number _ => True
  | text _ => False
  | var name => name ∈ parameters ∨ inputs.get? name = some .decimal
  | unary op operand => op ≠ .not ∧ Arithmetic inputs callable parameters defined operand
  | binary op operands => op.isArithmetic ∧ operands ≠ [] ∧
      ArithmeticAll inputs callable parameters defined operands
  | member _ _ => False
  | call name arguments primed =>
    (name ∈ defined ∨ primed = false ∧ callable name arguments.length) ∧
      ArithmeticAll inputs callable parameters defined arguments
  | define name own body value =>
    Arithmetic inputs callable own (name :: defined) body ∧
      Arithmetic inputs callable parameters (name :: defined) value

def ArithmeticAll (inputs : Table Ty) (callable : String → Nat → Prop)
    (parameters defined : List String) : List Expr → Prop
  | [] => True
  | expr :: rest => Arithmetic inputs callable parameters defined expr ∧
      ArithmeticAll inputs callable parameters defined rest

end

theorem arithmeticAll_iff {inputs : Table Ty} {callable : String → Nat → Prop}
    {parameters defined : List String} {exprs : List Expr} :
    ArithmeticAll inputs callable parameters defined exprs ↔
      ∀ expr ∈ exprs, Arithmetic inputs callable parameters defined expr := by
  induction exprs with
  | nil => simp [ArithmeticAll]
  | cons expr rest ih => simp [ArithmeticAll, ih]

end Expr

/-- A family of trees over decimals, by the parameters and definitions around them. Where a call
    has no function or the wrong number of arguments, lowering may fail. -/
structure Fragment (compiler : Compiler) (failure : Prop)
    (admits : List String → List Definition → Expr → Prop) : Prop where
  var : ∀ {names definitions name}, admits names definitions (.var name) →
    name ∈ names ∨ compiler.options.inputs.get? name = some .decimal
  text : ∀ {names definitions content}, ¬ admits names definitions (.text content)
  member : ∀ {names definitions target name}, ¬ admits names definitions (.member target name)
  unary : ∀ {names definitions op operand}, admits names definitions (.unary op operand) →
    op ≠ .not ∧ admits names definitions operand
  binary : ∀ {names definitions op operands}, admits names definitions (.binary op operands) →
    operands ≠ [] ∧ (op.isArithmetic ∨ operands.length = 1) ∧
      ∀ operand ∈ operands, admits names definitions operand
  arguments : ∀ {names definitions name arguments primed},
    admits names definitions (.call name arguments primed) →
      ∀ argument ∈ arguments, admits names definitions argument
  defined : ∀ {names definitions name arguments primed definition below},
    admits names definitions (.call name arguments primed) →
      Definition.visible name definitions = definition :: below →
        (arguments.length ≠ definition.parameters.length → failure) ∧
        (arguments.length = definition.parameters.length →
          admits definition.parameters (definition :: below) definition.body)
  builtin : ∀ {names definitions name arguments primed},
    admits names definitions (.call name arguments primed) →
      Definition.visible name definitions = [] →
        primed = false ∧ ∃ function : MathFunction,
          MathFunction.ofName? name = some function ∧ function.isTrigonometric = false ∧
            (arguments.length ≠ function.arity → failure)
  define : ∀ {names definitions name parameters body value},
    admits names definitions (.define name parameters body value) →
      admits names (⟨name, parameters, body⟩ :: definitions) value

namespace Definition

theorem visible_eq_nil {name : String} {definitions : List Definition} :
    visible name definitions = [] ↔ name ∉ definitions.map Definition.name := by
  induction definitions with
  | nil => simp [visible]
  | cons definition rest ih =>
    rw [visible]
    split
    · rename_i same
      have named : definition.name = name := by simpa using same
      simp [named]
    · rename_i different
      have other : ¬ name = definition.name := fun same => different (by simp [same])
      rw [ih, List.map_cons, List.mem_cons, not_or]
      exact (and_iff_right other).symm

/-- A name means the definition of that name, and those below it stay below it. -/
theorem visible_eq_cons {name : String} {definition : Definition}
    {definitions below : List Definition} (seen : visible name definitions = definition :: below) :
    definition.name = name ∧ (definition :: below) <:+ definitions := by
  induction definitions with
  | nil => cases seen
  | cons first rest ih =>
    rw [visible] at seen
    split at seen
    · rename_i same
      cases seen
      exact ⟨by simpa using same, List.suffix_refl _⟩
    · obtain ⟨named, below⟩ := ih seen
      exact ⟨named, below.trans (List.suffix_cons _ _)⟩

/-- Bodies over decimals, each with the definitions it sees. -/
def Arithmetic (inputs : Table Ty) (callable : String → Nat → Prop)
    (definitions : List Definition) : Prop :=
  ∀ definition below, (definition :: below) <:+ definitions →
    definition.body.Arithmetic inputs callable definition.parameters
      ((definition :: below).map Definition.name)

end Definition

/-- Functions that have a value on decimals, whatever the number of arguments. -/
def MathFunction.OnDecimals (name : String) : Prop :=
  ∃ function : MathFunction, function.name = name ∧ function.isTrigonometric = false

/-- Functions that have a value on decimals, with their numbers of arguments. -/
def MathFunction.Suits (name : String) (count : Nat) : Prop :=
  ∃ function : MathFunction, function.name = name ∧ function.isTrigonometric = false ∧
    count = function.arity

theorem MathFunction.ofName?_name (function : MathFunction) :
    ofName? function.name = some function := by
  cases function <;> rfl

namespace Fragment

/-- Formulas over decimals. Lowering fails where a call has the wrong number of arguments. -/
theorem arithmetic (compiler : Compiler) :
    Fragment compiler True fun names definitions expr =>
      expr.Arithmetic compiler.options.inputs (fun name _ => MathFunction.OnDecimals name) names
        (definitions.map Definition.name) ∧
      Definition.Arithmetic compiler.options.inputs (fun name _ => MathFunction.OnDecimals name)
        definitions where
  var admitted := admitted.1
  text admitted := admitted.1
  member admitted := admitted.1
  unary admitted := ⟨admitted.1.1, admitted.1.2, admitted.2⟩
  binary admitted := ⟨admitted.1.2.1, .inl admitted.1.1, fun operand member =>
    ⟨Expr.arithmeticAll_iff.mp admitted.1.2.2 operand member, admitted.2⟩⟩
  arguments admitted argument member :=
    ⟨Expr.arithmeticAll_iff.mp admitted.1.2 argument member, admitted.2⟩
  defined admitted seen := by
    have below := (Definition.visible_eq_cons seen).2
    exact ⟨fun _ => trivial, fun _ => ⟨admitted.2 _ _ below, fun definition rest inner =>
      admitted.2 definition rest (inner.trans below)⟩⟩
  builtin admitted hidden := by
    have unknown := Definition.visible_eq_nil.mp hidden
    obtain ⟨primed, function, named, plain⟩ := admitted.1.1.resolve_left unknown
    exact ⟨primed, function, named ▸ function.ofName?_name, plain, fun _ => trivial⟩
  define admitted := by
    refine ⟨admitted.1.2, fun definition below inner => ?_⟩
    rcases List.suffix_cons_iff.mp inner with same | inner
    · cases same
      exact admitted.1.1
    · exact admitted.2 definition below inner

/-- Formulas over decimals without definitions, where every call has the right number of
    arguments. -/
theorem plain (compiler : Compiler) :
    Fragment compiler False fun names definitions expr =>
      definitions = [] ∧ expr.definitions = [] ∧
        expr.Arithmetic compiler.options.inputs MathFunction.Suits names [] where
  var admitted := admitted.2.2
  text admitted := admitted.2.2
  member admitted := admitted.2.2
  unary admitted := ⟨admitted.2.2.1, admitted.1, admitted.2.1, admitted.2.2.2⟩
  binary admitted := by
    obtain ⟨top, undefined, arithmetic, nonempty, operands⟩ := admitted
    rw [Expr.definitions_binary] at undefined
    exact ⟨nonempty, .inl arithmetic, fun operand member =>
      ⟨top, List.flatMap_eq_nil_iff.mp undefined operand member,
        Expr.arithmeticAll_iff.mp operands operand member⟩⟩
  arguments admitted argument member := by
    obtain ⟨top, undefined, -, arguments⟩ := admitted
    rw [Expr.definitions_call] at undefined
    exact ⟨top, List.flatMap_eq_nil_iff.mp undefined argument member,
      Expr.arithmeticAll_iff.mp arguments argument member⟩
  defined admitted seen := by
    rw [admitted.1] at seen
    cases seen
  builtin admitted _ := by
    obtain ⟨primed, function, named, plain, arity⟩ :=
      admitted.2.2.1.resolve_left (List.not_mem_nil)
    exact ⟨primed, function, named ▸ function.ofName?_name, plain, fun wrong => wrong arity⟩
  define admitted := by
    have undefined := admitted.2.1
    rw [Expr.definitions_define] at undefined
    cases undefined

end Fragment

end Formulary
