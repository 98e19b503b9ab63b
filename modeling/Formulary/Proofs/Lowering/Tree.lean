import Formulary.Lowering.Compile
import Formulary.Proofs.Lowering.Operation

namespace Formulary

variable {compiler : Compiler} {linkage : Linkage} {parameters : List Ty}

/-! Trees are lowered to nodes by the rules of `Built`, and so are guarded trees. -/

/-- The parameters that a scope knows are those of the function around it. -/
def Scope.Within (scope : Scope) (parameters : List Ty) : Prop :=
  ∀ ⦃name index type⦄, scope.parameters.lookup name = some (index, type) →
    parameters[index]? = some type

theorem Scope.Within.outermost {hint : Option Ty} : Scope.Within { hint } parameters := by
  intro name index type found
  cases found

theorem Scope.Within.withHint {scope : Scope} (within : scope.Within parameters)
    (hint : Option Ty) : (scope.withHint hint).Within parameters := within

theorem Scope.Within.inside {hint : Option Ty} {names : List String} {types : List Ty}
    {definitions : List (Nat × Definition)} :
    Scope.Within
      { hint
        parameters := (names.zip types.zipIdx).reverse.map
          fun (name, type, index) => (name, index, type)
        definitions } types := by
  intro name index type found
  obtain ⟨before, after, equal, -⟩ := List.lookup_eq_some_iff.mp found
  have member : (name, index, type) ∈ before ++ (name, index, type) :: after := by simp
  rw [← equal] at member
  obtain ⟨⟨other, kind, position⟩, listed, same⟩ := List.mem_map.mp member
  cases same
  exact List.mem_zipIdx_iff_getElem?.mp (List.of_mem_zip (List.mem_reverse.mp listed)).2

theorem isNumeric_naturalValue (number : Decimal) : (naturalValue number).ty.isNumeric := by
  unfold naturalValue
  split
  · split <;> rfl
  · rfl

theorem isNumeric_constantType (hint : Option Ty) :
    ((hint.filter fun type => type.isFloat || type = .decimal).getD .float64).isNumeric = true := by
  cases kept : hint.filter fun type => type.isFloat || type = .decimal with
  | none => rfl
  | some type =>
    have suits := (Option.filter_eq_some_iff.mp kept).2
    cases type <;> simp_all [Ty.isNumeric, Ty.isFloat]

theorem Linkage.Describes.modifyDefinitions {state : LowerState} {next : Nat}
    (described : linkage.Describes compiler state) :
    linkage.Describes compiler
      (state.withFunctions { state.functions with nextDefinition := next }) :=
  ⟨described.slots, described.functions, described.numbered, described.names, described.inputs,
    described.bodies⟩

theorem Linkage.Describes.addSlot {state : LowerState} {name : String} {type : Ty}
    (described : linkage.Describes compiler state)
    (declared : compiler.options.inputs.get? name = some type)
    (fresh : ∀ slot ∈ linkage.slots, slot.name ≠ name) :
    Linkage.Describes compiler ⟨linkage.slots ++ [⟨name, type⟩], linkage.functions⟩
      { state with slots := state.slots ++ [⟨name, type⟩] } := by
  have order : linkage ≤ ⟨linkage.slots ++ [⟨name, type⟩], linkage.functions⟩ :=
    ⟨List.prefix_append _ _, List.prefix_refl _⟩
  refine ⟨by rw [described.slots], described.functions, described.numbered, ?_, ?_, ?_⟩
  · have separate : name ∉ linkage.slots.map Slot.name := by
      intro member
      obtain ⟨slot, listed, same⟩ := List.mem_map.mp member
      exact fresh slot listed same
    simpa [List.nodup_append] using ⟨described.names, fun slot listed => fresh slot listed⟩
  · intro slot member
    rcases List.mem_append.mp member with member | member
    · exact described.inputs slot member
    · cases List.mem_singleton.mp member
      exact declared
  · intro index function found
    obtain ⟨signature, built, fits⟩ := described.bodies found
    exact ⟨signature, built.later order, fits⟩

theorem slotIndex_keeps {name : String} {type : Ty} {failure : Prop}
    (declared : compiler.options.inputs.get? name = some type) :
    LowerM.Keeps (Linkage.Describes compiler) linkage (LowerM.slotIndex name type)
      (fun later index => later.slots[index]? = some ⟨name, type⟩) failure := by
  refine .slotIndex ?_ ?_
  · intro state index slot described listed named
    subst named
    rw [described.slots] at listed
    have known := described.inputs slot (List.mem_of_getElem? listed)
    obtain rfl : slot.type = type := Option.some.inj (known.symm.trans declared)
    exact listed
  · intro state described fresh
    rw [described.slots] at fresh
    refine ⟨⟨linkage.slots ++ [⟨name, type⟩], linkage.functions⟩,
      ⟨List.prefix_append _ _, List.prefix_refl _⟩, described.addSlot declared fresh, ?_⟩
    rw [described.slots]
    simp

theorem slotIndex_builds {name : String} {type : Ty}
    (declared : compiler.options.inputs.get? name = some type) :
    LowerM.Builds compiler linkage (LowerM.slotIndex name type)
      fun later index => Built compiler later parameters (.slot index type) :=
  (slotIndex_keeps declared).weaken (fun _ _ _ found => .slot found) id

namespace Compiler

theorem lowerVariable_builds {scope : Scope} (within : scope.Within parameters) (name : String) :
    LowerM.Builds compiler linkage (compiler.lowerVariable scope name)
      fun later node => Built compiler later parameters node := by
  unfold lowerVariable
  split
  · rename_i found
    exact .pure (.parameter (within found))
  · split
    · rename_i declared
      exact .bind (slotIndex_builds declared) fun _ _ _ built => .pure built
    · split
      · exact .throw trivial
      · dsimp only
        split
        · rename_i exact
          exact .pure (.embedded (isNumeric_constantType scope.hint) exact)
        · exact .throw trivial

theorem lowerMember_builds {target : Operand} (builds : target.Builds compiler parameters)
    (name : String) :
    LowerM.Builds compiler linkage (compiler.lowerMember name target)
      fun later node => Built compiler later parameters node := by
  refine .bind (builds linkage none) fun later _ node built => ?_
  split
  · rename_i declared
    exact .pure (.member built declared)
  · exact .throw trivial

/-- Lowering the body of a function builds a node over its parameters. -/
def Enters (compiler : Compiler) (enter : Expr → Scope → Ty → LowerM Node) : Prop :=
  ∀ ⦃linkage parameters expr scope type⦄, scope.Within parameters →
    LowerM.Builds compiler linkage (enter expr scope type) (Brought compiler parameters type)

end Compiler

theorem Linkage.Describes.reserve {state : LowerState}
    (described : linkage.Describes compiler state) (signature : Signature) (type : Ty) :
    Linkage.Describes compiler ⟨linkage.slots, linkage.functions ++ [(signature.types, type)]⟩
      (state.withFunctions (state.functions.reserve signature type)) := by
  have order : linkage ≤ ⟨linkage.slots, linkage.functions ++ [(signature.types, type)]⟩ :=
    ⟨List.prefix_refl _, List.prefix_append _ _⟩
  refine ⟨described.slots, by simp [described.functions], described.numbered.reserve _ _,
    described.names, described.inputs, ?_⟩
  intro index function found
  have earlier : state.functions.bodies[index]? = some (some function) := by
    rw [FunctionTable.reserve, List.getElem?_append] at found
    split at found
    · exact found
    · simp [List.getElem?_singleton] at found
  obtain ⟨declared, built, fits⟩ := described.bodies earlier
  exact ⟨getElem?_of_initial order.2 declared, built.later order, fits⟩

theorem Linkage.Describes.store {state : LowerState} {index : Nat} {function : Function}
    (described : linkage.Describes compiler state)
    (declared : linkage.functions[index]? = some (function.parameters, function.returnType))
    (brought : Brought compiler function.parameters function.returnType linkage function.body) :
    linkage.Describes compiler (state.withFunctions (state.functions.store index function)) := by
  refine ⟨described.slots, described.functions, described.numbered.store _ _, described.names,
    described.inputs, ?_⟩
  intro position other found
  rw [FunctionTable.store, List.getElem?_set] at found
  split at found
  · rename_i same
    split at found
    · cases found
      exact ⟨same ▸ declared, brought⟩
    · cases found
  · exact described.bodies found

theorem compileFunction_builds {signature : Signature} {name : String} {type : Ty}
    {lowerBody : LowerM Node}
    (builds : ∀ linkage, LowerM.Builds compiler linkage lowerBody
      (Brought compiler signature.types type)) :
    LowerM.Builds compiler linkage (LowerM.compileFunction signature name type lowerBody)
      fun later index => later.functions[index]? = some (signature.types, type) := by
  refine .compileFunction (Brought compiler signature.types type)
    (fun described => described.numbered) fun {before} described => ?_
  refine ⟨⟨linkage.slots, linkage.functions ++ [(signature.types, type)]⟩,
    ⟨List.prefix_refl _, List.prefix_append _ _⟩, described.reserve signature type,
    builds _, ?_, ?_⟩
  · intro later after body order laterDescribed brought _
    have declared : later.functions[before.functions.bodies.length]? =
        some (signature.types, type) := by
      refine getElem?_of_initial order.2 ?_
      rw [← described.numbered.length_signatures, described.functions]
      simp
    exact ⟨later, le_refl _, declared, laterDescribed.store declared brought⟩
  · intro later after order laterDescribed
    have slots : linkage ≤ ⟨later.slots, linkage.functions⟩ :=
      ⟨order.1, List.prefix_refl _⟩
    refine ⟨⟨later.slots, linkage.functions⟩, slots, laterDescribed.slots, described.functions,
      described.numbered, laterDescribed.names, laterDescribed.inputs, ?_⟩
    intro index function found
    obtain ⟨declared, built, fits⟩ := described.bodies found
    exact ⟨declared, built.later slots, fits⟩

namespace Compiler

theorem lowerCall_builds {enter : Expr → Scope → Ty → LowerM Node} (enters : compiler.Enters enter)
    {operands : List Operand} (builds : ∀ operand ∈ operands, operand.Builds compiler parameters)
    (scope : Scope) (name : String) :
    LowerM.Builds compiler linkage (compiler.lowerCall enter scope name operands)
      fun later node => Built compiler later parameters node := by
  unfold lowerCall
  split
  · exact .throw trivial
  · dsimp only
    split
    · exact .throw_bind trivial
    · refine .bind (lowerAll_builds builds _) fun later _ arguments built => ?_
      refine .bind .get fun last order state described => ?_
      have built : ∀ argument ∈ arguments, Built compiler last parameters argument :=
        fun argument member => (built.2 argument member).later order
      split
      · rename_i index type found
        have declared := described.numbered.lookup_signature found
        rw [described.functions] at declared
        exact .pure (.call declared built)
      · refine .bind (compileFunction_builds fun _ => enters Scope.Within.inside)
          fun final finalOrder index declared => ?_
        exact .pure (.call declared fun argument member =>
          (built argument member).later finalOrder)

theorem freshDefinition_builds :
    LowerM.Builds compiler linkage LowerM.freshDefinition fun _ _ => True :=
  .freshDefinition fun described =>
    ⟨linkage, le_refl _, described.modifyDefinitions, trivial⟩

mutual

theorem lowerWith_builds (regular : compiler.Regular) (spanOf : Expr → Option Span)
    {enter : Expr → Scope → Ty → LowerM Node} (enters : compiler.Enters enter)
    {linkage : Linkage} {parameters : List Ty} :
    ∀ (expr : Expr) {scope : Scope}, scope.Within parameters →
      LowerM.Builds compiler linkage (compiler.lowerWith spanOf enter expr scope)
        fun later node => Built compiler later parameters node
  | .number value, scope, _ => .pure (.literal scope.hint value)
  | .text content, _, _ => .pure (.text content)
  | .var name, _, within => .locating (lowerVariable_builds within name)
  | .unary op operand, scope, within =>
    .locating (lowerUnary_builds (fun _ hint => lowerWith_builds regular spanOf enters operand
      (within.withHint hint)) scope.hint op)
  | .binary op operands, scope, within =>
    .locating (lowerBinary_builds regular
      (operandsWith_builds regular spanOf enters operands within) spanOf scope.hint op)
  | .member target name, _, within =>
    .locating (lowerMember_builds (fun _ hint => lowerWith_builds regular spanOf enters target
      (within.withHint hint)) name)
  | .call name arguments primed, scope, within => by
    have builds := operandsWith_builds regular spanOf enters arguments within
    refine .locating ?_
    split
    · exact lowerCall_builds enters builds scope name
    · exact Builtin.lowerCall_builds regular builds scope.hint name
  | .define name defined body value, scope, within =>
    .locating (.bind freshDefinition_builds fun _ _ _ _ =>
      lowerWith_builds regular spanOf enters value within)

theorem operandsWith_builds (regular : compiler.Regular) (spanOf : Expr → Option Span)
    {enter : Expr → Scope → Ty → LowerM Node} (enters : compiler.Enters enter)
    {parameters : List Ty} :
    ∀ (exprs : List Expr) {scope : Scope}, scope.Within parameters →
      ∀ operand ∈ compiler.operandsWith spanOf enter exprs scope,
        operand.Builds compiler parameters
  | [], _, _ => fun _ member => nomatch member
  | expr :: rest, _, within => by
    intro operand member
    rcases List.mem_cons.mp member with same | member
    · subst same
      exact fun _ hint => lowerWith_builds regular spanOf enters expr (within.withHint hint)
    · exact operandsWith_builds regular spanOf enters rest within operand member

end

theorem lowerWithin_enters (regular : compiler.Regular) (spanOf : Expr → Option Span)
    (depth : Nat) : compiler.Enters (compiler.lowerWithin spanOf depth) := by
  induction depth with
  | zero =>
    intro linkage parameters expr scope type _
    exact .throw trivial
  | succ depth ih =>
    intro linkage parameters expr scope type within
    exact .bind (lowerWith_builds regular spanOf ih expr within) fun _ _ _ built =>
      .locating (coerce_builds built type)

theorem lowerTo_builds (regular : compiler.Regular) (spanOf : Expr → Option Span) (type : Ty)
    (expr : Expr) :
    LowerM.Builds compiler linkage (compiler.lowerTo spanOf type expr)
      (Brought compiler parameters type) :=
  lowerWithin_enters regular spanOf _ Scope.Within.outermost

theorem guarded_builds (regular : compiler.Regular) (spanOf : Expr → Option Span)
    (restrictions : List Expr) {body : Node} (built : Built compiler linkage parameters body) :
    LowerM.Builds compiler linkage (compiler.guarded spanOf restrictions body)
      fun later node => Built compiler later parameters node ∧ node.ty = body.ty := by
  unfold guarded
  generalize restrictions.reverse = remaining
  induction remaining generalizing linkage body with
  | nil => exact .pure ⟨built, rfl⟩
  | cons restriction rest ih =>
    have one : LowerM.Builds compiler linkage
        (do
          let condition ← compiler.lowerTo spanOf .bool restriction
          return .guard restriction.display condition body)
        fun later node => Built compiler later parameters node ∧ node.ty = body.ty :=
      .bind (lowerTo_builds regular spanOf .bool restriction) fun _ order _ truth =>
        .pure ⟨.guard truth.1 truth.2 (built.later order), rfl⟩
    rw [List.foldlM_cons]
    refine .bind one fun later _ guard guardBuilt => ?_
    exact .weaken (ih guardBuilt.1)
      (fun _ _ _ result => ⟨result.1, result.2.trans guardBuilt.2⟩) id

theorem lowerGuarded_builds (regular : compiler.Regular) (spanOf : Expr → Option Span)
    (restrictions : List Expr) (expr : Expr) :
    LowerM.Builds compiler linkage (compiler.lowerGuarded spanOf restrictions expr)
      fun later node => Built compiler later [] node ∧
        ∃ body, node.ty = body.ty ∧
          compiler.catalog.Fits body compiler.options.expectReturn := by
  have lowered : LowerM.Builds compiler linkage
      (compiler.lowerTo spanOf compiler.options.expectReturn expr)
      (Brought compiler [] compiler.options.expectReturn) := lowerTo_builds regular spanOf _ expr
  refine .bind lowered fun later _ body brought => ?_
  exact .weaken (guarded_builds regular spanOf restrictions brought.1)
    (fun _ _ _ result => ⟨result.1, body, result.2, brought.2⟩) id

end Compiler

theorem Linkage.Describes.initial : Linkage.Describes compiler ⟨[], []⟩ {} where
  slots := rfl
  functions := rfl
  numbered := rfl
  names := List.nodup_nil
  inputs := fun _ member => nomatch member
  bodies := fun found => nomatch found

theorem Linkage.Describes.function {state : LowerState} {functions : List Function} {index : Nat}
    {parameters : List Ty} {type : Ty} (described : linkage.Describes compiler state)
    (bodies : state.functions.bodies = functions.map some)
    (declared : linkage.functions[index]? = some (parameters, type)) :
    ∃ function : Function, functions[index]? = some function ∧
      function.parameters = parameters ∧ function.returnType = type ∧
      Brought compiler function.parameters function.returnType linkage function.body := by
  have bound : index < functions.length := by
    have size := (List.getElem?_eq_some_iff.mp declared).1
    rwa [← described.functions, described.numbered.length_signatures, bodies,
      List.length_map] at size
  have found : functions[index]? = some functions[index] := List.getElem?_eq_getElem bound
  obtain ⟨known, brought⟩ := described.bodies (by rw [bodies, List.getElem?_map, found]; rfl)
  rw [declared] at known
  cases known
  exact ⟨_, found, rfl, rfl, brought⟩

theorem Compiler.lowerGuarded_finishes (compiler : Compiler) (regular : compiler.Regular)
    {spanOf : Expr → Option Span} {restrictions : List Expr} {expr : Expr} {root : Node}
    {state : LowerState}
    (lowered : compiler.lowerGuarded spanOf restrictions expr {} = (.ok root, state)) :
    ∃ (linkage : Linkage) (functions : List Function), linkage.Describes compiler state ∧
      state.functions.bodies = functions.map some ∧ Built compiler linkage [] root ∧
      ∃ body, root.ty = body.ty ∧
        compiler.catalog.Fits body compiler.options.expectReturn := by
  obtain ⟨extends_, linkage, -, described, built⟩ :=
    lowerGuarded_builds regular spanOf restrictions expr .initial lowered
  obtain ⟨functions, bodies⟩ := extends_.bodies
  exact ⟨linkage, functions, described, by simpa using bodies, built⟩

/-- A program has the node that lowering gives, and what lowering has collected for it. -/
theorem Compiler.compileWith_eq_ok_iff {spanOf : Expr → Option Span} {source : Option String}
    {expr : Expr} {program : Program} :
    compiler.compileWith spanOf source expr = .ok program ↔
      ∃ state, compiler.lowerGuarded spanOf (compiler.simplified expr).2
          (compiler.simplified expr).1 {} = (.ok program.root, state) ∧
        state.functions.finish = .ok program.functions ∧ program.slots = state.slots ∧
        program.source = source ∧
        program.restrictions = (compiler.simplified expr).2.map Expr.display ∧
        program.custom = [] ∧ program.compilerVersion = Program.currentVersion := by
  unfold compileWith
  dsimp only
  constructor
  · intro compiled
    split at compiled
    · cases compiled
    · rename_i root state lowered
      cases finished : state.functions.finish with
      | error error =>
        rw [finished] at compiled
        cases compiled
      | ok functions =>
        rw [finished] at compiled
        cases compiled
        exact ⟨state, lowered, finished, rfl, rfl, rfl, rfl, rfl⟩
  · rintro ⟨state, lowered, finished, slots, rfl, listed, plain, version⟩
    rw [lowered]
    dsimp only
    rw [finished, ← slots, ← listed, ← plain, ← version]
    rfl

/-- The parts of a compiled program are built by the rules. -/
theorem Compiler.compileWith_built (compiler : Compiler) (regular : compiler.Regular)
    {spanOf : Expr → Option Span} {source : Option String} {expr : Expr} {program : Program}
    (compiled : compiler.compileWith spanOf source expr = .ok program) :
    ∃ (linkage : Linkage) (state : LowerState), linkage.Describes compiler state ∧
      program.slots = state.slots ∧ state.functions.bodies = program.functions.map some ∧
      Built compiler linkage [] program.root ∧
      ∃ body, program.root.ty = body.ty ∧
        compiler.catalog.Fits body compiler.options.expectReturn := by
  obtain ⟨state, lowered, finished, slots, -⟩ := compileWith_eq_ok_iff.mp compiled
  obtain ⟨linkage, functions, described, bodies, built⟩ :=
    compiler.lowerGuarded_finishes regular lowered
  rw [FunctionTable.finish_eq bodies] at finished
  cases finished
  exact ⟨linkage, state, described, slots, bodies, built⟩

end Formulary
