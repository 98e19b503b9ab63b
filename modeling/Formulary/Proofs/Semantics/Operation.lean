import Formulary.Proofs.Lowering.Rendering
import Formulary.Proofs.Semantics.Layout

namespace Formulary

/-! Operators, functions and variables over decimals are lowered to nodes that mean them. -/

/-- Decimal nodes stand for the trees that they mean. -/
def Means.rendering (calculator : Calculator) (names : List String)
    (definitions : List Definition) : Rendering Layout where
  type := .decimal
  Admits _ := True
  Renders layout := Means calculator layout names definitions
  numeric := rfl
  ty := Means.ty
  later order means := means.later order
  negate := Means.negate
  factorial := Means.factorial
  arith op first rest := .arith op (.cons first rest)
  power := Means.power
  literalPower _ same := ⟨_, rfl, fun nonempty means => means.literalPower nonempty same⟩

theorem Means.All.ty {calculator : Calculator} {layout : Layout} {names : List String}
    {definitions : List Definition} {nodes : List Node} {exprs : List Expr}
    (means : All calculator layout names definitions nodes exprs) :
    nodes.map Node.ty = List.replicate exprs.length .decimal :=
  (rendering calculator names definitions).map_ty means

section

variable {compiler : Compiler} {layout : Layout} {failure : Prop}
variable {names : List String} {definitions : List Definition}

/-- The action gives a node that means the tree. -/
abbrev LowerM.Gives (compiler : Compiler) (layout : Layout) (failure : Prop)
    (names : List String) (definitions : List Definition) (action : LowerM Node) (expr : Expr) :
    Prop :=
  LowerM.Keeps (Layout.Describes compiler) layout action
    (fun last node => Means compiler.calculator last names definitions node expr) failure

theorem compileFunction_gives {number : Nat} {definition : Definition} {below : List Definition}
    {lowerBody : LowerM Node} (known : layout.closures[number]? = some (definition, below))
    (gives : LowerM.Gives compiler { layout with functions := layout.functions ++ [number] }
      failure definition.parameters (definition :: below) lowerBody definition.body) :
    LowerM.Keeps (Layout.Describes compiler) layout
      (LowerM.compileFunction ⟨number, List.replicate definition.parameters.length .decimal⟩
        definition.name .decimal lowerBody)
      (fun last index => last.closure? index = some (definition, below)) failure := by
  refine .compileFunction (fun last body => Means compiler.calculator last definition.parameters
    (definition :: below) body definition.body) (fun described => described.numbered)
    fun {before} described => ?_
  have order : layout ≤ { layout with functions := layout.functions ++ [number] } :=
    ⟨List.prefix_refl _, List.prefix_refl _, List.prefix_append _ _⟩
  refine ⟨{ layout with functions := layout.functions ++ [number] }, order,
    described.reserve known, gives, ?_, ?_⟩
  · intro last after body lastOrder lastDescribed means _
    have closure : last.closure? before.functions.bodies.length = some (definition, below) := by
      refine Layout.closure?_of_le lastOrder ?_
      simp [Layout.closure?, described.count, known]
    exact ⟨last, le_refl _, closure, lastDescribed.store closure means⟩
  · intro last after lastOrder lastDescribed
    have wider := le_trans order lastOrder
    exact ⟨⟨last.slots, last.closures, layout.functions⟩,
      ⟨wider.1, wider.2.1, List.prefix_refl _⟩, described.restore wider lastDescribed⟩

theorem freshDefinition_gives (closure : Definition × List Definition) :
    LowerM.Keeps (Layout.Describes compiler) layout LowerM.freshDefinition
      (fun last number => last.closures[number]? = some closure ∧
        last.functions = layout.functions ∧ number ∉ last.functions) failure := by
  refine .freshDefinition fun described => ?_
  rw [described.next]
  refine ⟨{ layout with closures := layout.closures ++ [closure] },
    ⟨List.prefix_refl _, List.prefix_append _ _, List.prefix_refl _⟩,
    described.addClosures [closure], by simp, rfl, fun member => ?_⟩
  exact absurd (described.known _ member) (lt_irrefl _)

theorem slotIndex_gives {name : String} (unbound : name ∉ names)
    (declared : compiler.options.inputs.get? name = some .decimal) :
    LowerM.Keeps (Layout.Describes compiler) layout (LowerM.slotIndex name .decimal)
      (fun last index => Means compiler.calculator last names definitions (.slot index .decimal)
        (.var name)) failure := by
  refine .slotIndex ?_ ?_
  · intro state index slot described listed named
    subst named
    rw [described.slots] at listed
    exact .slot listed unbound
  · intro state described _
    let slot : Slot := ⟨name, .decimal⟩
    let grown : Layout := { layout with slots := layout.slots ++ [slot] }
    have listed : grown.slots[state.slots.length]? = some slot := by simp [grown, described.slots]
    exact ⟨grown, ⟨List.prefix_append _ _, List.prefix_refl _, List.prefix_refl _⟩,
      described.addSlot declared, .slot listed unbound⟩

theorem lowerVariable_gives {scope : Scope} {name : String}
    (parameters : scope.parameters = Scope.decimals names)
    (bound : name ∈ names ∨ compiler.options.inputs.get? name = some .decimal) :
    LowerM.Gives compiler layout failure names definitions (compiler.lowerVariable scope name)
      (.var name) := by
  unfold Compiler.lowerVariable
  rw [parameters]
  split
  · rename_i found
    exact .pure (.parameter found)
  · rename_i missing
    have unbound := Scope.lookup_decimals_none missing
    have declared := bound.resolve_left unbound
    rw [declared]
    exact .bind (slotIndex_gives unbound declared) fun _ _ _ means => .pure means

/-! Operands: nothing has to be converted or lowered again. -/

/-- The operand stands for the tree, and lowering it from now on gives a node that means it. -/
def Operand.Gives (compiler : Compiler) (layout : Layout) (failure : Prop) (names : List String)
    (definitions : List Definition) (operand : Operand) (expr : Expr) : Prop :=
  ∀ last, layout ≤ last →
    LowerM.Gives compiler last failure names definitions (operand.lower (some .decimal)) expr

variable {operand : Operand} {operands : List Operand} {expr : Expr} {exprs : List Expr}

theorem lowerAll_gives
    (gives : List.Forall₂ (Operand.Gives compiler layout failure names definitions) operands
      exprs) :
    LowerM.Keeps (Layout.Describes compiler) layout (Operand.lowerAll (some .decimal) operands)
      (fun last nodes => Means.All compiler.calculator last names definitions nodes exprs)
      failure :=
  (Means.rendering compiler.calculator names definitions).lowerAll_lowers gives

theorem lowerUnary_gives (op : UnaryOperator) (arithmetic : op ≠ .not)
    (gives : operand.Gives compiler layout failure names definitions expr) :
    LowerM.Gives compiler layout failure names definitions
      (compiler.lowerUnary (some .decimal) op operand) (.unary op expr) :=
  (Means.rendering compiler.calculator names definitions).lowerUnary_lowers compiler op arithmetic
    gives

theorem lowerBinary_gives (strategies : compiler.strategies = PowerStrategy.defaults)
    (spanOf : Expr → Option Span) {op : Operator} (nonempty : exprs ≠ [])
    (arithmetic : op.isArithmetic ∨ exprs.length = 1)
    (gives : List.Forall₂ (fun operand expr => operand.expr = expr ∧
      operand.Gives compiler layout failure names definitions expr) operands exprs) :
    LowerM.Gives compiler layout failure names definitions
      (compiler.lowerBinary spanOf (some .decimal) op operands) (.binary op exprs) :=
  (Means.rendering compiler.calculator names definitions).lowerBinary_lowers strategies spanOf
    nonempty arithmetic (gives.imp fun _ _ both => ⟨both.1, trivial, both.2⟩)

theorem filter_defaults (function : MathFunction) :
    Builtin.defaults.filter (·.name == function.name) = [.math function] := by
  cases function <;> rfl

theorem lowerMath_gives {function : MathFunction} (catalog : Catalog) (nonempty : exprs ≠ [])
    (plain : function.isTrigonometric = false)
    (gives : List.Forall₂ (Operand.Gives compiler layout failure names definitions) operands
      exprs) :
    LowerM.Keeps (Layout.Describes compiler) layout
      (Builtin.lowerMath function catalog (some .decimal) operands)
      (fun last result => ∃ nodes, result = some (.native (.math function) .decimal nodes) ∧
        Means.All compiler.calculator last names definitions nodes exprs) failure := by
  have type : Builtin.functionType function (some .decimal) = .decimal := by
    rw [Builtin.functionType, plain]
    rfl
  let rendering := Means.rendering compiler.calculator names definitions
  obtain ⟨head, tail, rfl⟩ := List.exists_cons_of_ne_nil nonempty
  unfold Builtin.lowerMath
  rw [type]
  split
  · refine .bind (rendering.mapM_lowers (rendering.numeric_lowers catalog) gives layout
      (le_refl _)) fun last _ nodes all => ?_
    rw [unify_of_ty catalog operands (rendering.map_ty all)]
    exact .pure ⟨nodes, rfl, all⟩
  · refine .bind (rendering.mapM_lowers (rendering.lowerAs_lowers catalog) gives layout
      (le_refl _)) fun last _ nodes all => ?_
    exact .pure ⟨nodes, rfl, all⟩

theorem lowerBuiltin_gives {name : String} {function : MathFunction}
    (builtins : compiler.builtins = Builtin.defaults)
    (hidden : Definition.visible name definitions = [])
    (named : MathFunction.ofName? name = some function)
    (plain : function.isTrigonometric = false) (arity : exprs.length ≠ function.arity → failure)
    (gives : List.Forall₂ (Operand.Gives compiler layout failure names definitions) operands
      exprs) :
    LowerM.Gives compiler layout failure names definitions
      (Builtin.lowerCall compiler.builtins compiler.catalog (some .decimal) name operands)
      (.call name exprs false) := by
  obtain rfl : function.name = name := by simpa using List.find?_some named
  unfold Builtin.lowerCall
  rw [builtins, filter_defaults, gives.length_eq]
  by_cases suits : exprs.length = function.arity
  · have accepted : [Builtin.math function].find? (·.accepts exprs.length) =
        some (.math function) := by
      simp [Builtin.accepts, Builtin.arity, suits]
    have nonempty : exprs ≠ [] := by
      rintro rfl
      cases function <;> cases suits
    simp only [accepted]
    refine .bind (lowerMath_gives compiler.catalog nonempty plain gives) fun last _ result all => ?_
    obtain ⟨nodes, rfl, means⟩ := all
    exact .pure (.native means hidden named)
  · have refused : [Builtin.math function].find? (·.accepts exprs.length) = none := by
      simp [Builtin.accepts, Builtin.arity, suits]
    simp only [refused]
    exact .throw (arity suits)

end

end Formulary
