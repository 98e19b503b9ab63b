import Formulary.Proofs.Semantics.Fragment
import Formulary.Proofs.Semantics.Operation

namespace Formulary

/-! Trees of a fragment are compiled to programs that have their values. -/

namespace Compiler

variable {compiler : Compiler} {failure : Prop}
variable {admits : List String → List Definition → Expr → Prop}

/-- Bodies of a fragment are lowered to nodes that mean them, as long as the calls that can still
    be compiled are fewer than the bound. -/
def EntersFragment (compiler : Compiler) (failure : Prop)
    (admits : List String → List Definition → Expr → Prop)
    (enter : Expr → Scope → Ty → LowerM Node) (bound : Nat) : Prop :=
  ∀ ⦃layout names expr scope⦄, admits names (scope.definitions.map Prod.snd) expr →
    scope.parameters = Scope.decimals names → layout.Knows scope.definitions →
    (failure ∨ layout.pending scope.definitions + expr.definitions.length < bound) →
      LowerM.Gives compiler layout failure names (scope.definitions.map Prod.snd)
        (enter expr scope .decimal) expr

theorem lowerCall_gives {enter : Expr → Scope → Ty → LowerM Node} {bound : Nat}
    (fragment : Fragment compiler failure admits)
    (enters : compiler.EntersFragment failure admits enter bound) {layout : Layout}
    {names : List String} {scope : Scope} {name : String} {primed : Bool} {number : Nat}
    {definition : Definition} {below : List (Nat × Definition)} {operands : List Operand}
    {exprs : List Expr} (hint : scope.hint = some .decimal)
    (admitted : admits names (scope.definitions.map Prod.snd) (.call name exprs primed))
    (knows : layout.Knows scope.definitions)
    (seen : Scope.visible name scope.definitions = (number, definition) :: below)
    (enough : failure ∨ layout.pending scope.definitions ≤ bound)
    (gives : List.Forall₂ (Operand.Gives compiler layout failure names
      (scope.definitions.map Prod.snd)) operands exprs) :
    LowerM.Gives compiler layout failure names (scope.definitions.map Prod.snd)
      (compiler.lowerCall enter scope name operands) (.call name exprs primed) := by
  obtain ⟨sameNames, visibleKnows, fewer⟩ := knows.visible name
  rw [seen, List.map_cons] at sameNames
  rw [seen] at visibleKnows fewer
  obtain ⟨wrong, right⟩ := fragment.defined admitted sameNames
  unfold lowerCall
  rw [seen, hint, gives.length_eq]
  dsimp only
  split
  · rename_i arity
    exact .throw_bind (wrong arity)
  · rename_i arity
    have arity := not_not.mp arity
    refine .bind (lowerAll_gives gives) fun middle middleOrder arguments all => ?_
    refine .bind .get fun last order state described => ?_
    have closure := getElem?_of_initial (le_trans middleOrder order).2.1 visibleKnows.1
    rw [all.ty, arity]
    split
    · rename_i index type found
      obtain ⟨rfl, listed⟩ := described.memo found
      exact .pure (.call (all.later order) sameNames arity
        (Option.bind_eq_some_iff.mpr ⟨number, listed, closure⟩))
    · rename_i missing
      have uncompiled : number ∉ last.functions := by
        intro member
        have compiled := described.compiled member closure
        rw [missing] at compiled
        cases compiled
      have reserved : layout ≤ { last with functions := last.functions ++ [number] } :=
        le_trans (le_trans middleOrder order)
          ⟨List.prefix_refl _, List.prefix_refl _, List.prefix_append _ _⟩
      have fewerInside : failure ∨
          Layout.pending { last with functions := last.functions ++ [number] }
            ((number, definition) :: below) + definition.body.definitions.length < bound := by
        refine enough.imp_right fun enough => ?_
        have smaller := Layout.pending_le_of_le reserved below
        have new : number ∉ layout.functions := fun member =>
          uncompiled ((le_trans middleOrder order).2.2.subset member)
        rw [Layout.pending_cons, if_neg new] at fewer
        rw [Layout.pending_cons, if_pos (by simp)]
        omega
      refine .bind (compileFunction_gives closure ?_) fun final finalOrder index known => ?_
      · exact enters (right arity) rfl (visibleKnows.later reserved) fewerInside
      exact .pure (.call (all.later (le_trans order finalOrder)) sameNames arity known)

/-- The functions and the ways to lower a power that every compiler starts with. -/
structure Default (compiler : Compiler) : Prop where
  builtins : compiler.builtins = Builtin.defaults
  strategies : compiler.strategies = PowerStrategy.defaults

mutual

theorem lowerWith_gives (default : compiler.Default) (spanOf : Expr → Option Span)
    (fragment : Fragment compiler failure admits) {enter : Expr → Scope → Ty → LowerM Node}
    {bound : Nat} (enters : compiler.EntersFragment failure admits enter bound) :
    ∀ (expr : Expr) (scope : Scope) {layout : Layout} {names : List String},
      admits names (scope.definitions.map Prod.snd) expr → scope.hint = some .decimal →
      scope.parameters = Scope.decimals names → layout.Knows scope.definitions →
      (failure ∨ layout.pending scope.definitions + expr.definitions.length ≤ bound) →
        LowerM.Gives compiler layout failure names (scope.definitions.map Prod.snd)
          (compiler.lowerWith spanOf enter expr scope) expr
  | .number value, scope, _, _, _, hint, _, _, _ => by
    have literal : literalValue scope.hint value = .decimal value := by
      rw [hint]
      rfl
    rw [lowerWith, literal]
    exact .pure (.number value)
  | .text _, _, _, _, admitted, _, _, _, _ => absurd admitted fragment.text
  | .var name, _, _, _, admitted, _, parameters, _, _ =>
    .locating (lowerVariable_gives parameters (fragment.var admitted))
  | .unary op operand, scope, _, _, admitted, hint, parameters, knows, enough => by
    obtain ⟨arithmetic, inside⟩ := fragment.unary admitted
    rw [lowerWith, hint]
    refine .locating (lowerUnary_gives op arithmetic fun last order => ?_)
    exact lowerWith_gives default spanOf fragment enters operand (scope.withHint (some .decimal)) inside rfl parameters
      (knows.later order) (enough.imp_right fun enough =>
        le_trans (Nat.add_le_add_right (Layout.pending_le_of_le order _) _) enough)
  | .binary op operands, scope, _, _, admitted, hint, parameters, knows, enough => by
    obtain ⟨nonempty, arithmetic, inside⟩ := fragment.binary admitted
    rw [lowerWith, hint]
    rw [Expr.definitions_binary] at enough
    refine .locating (lowerBinary_gives default.strategies spanOf nonempty arithmetic ?_)
    exact operandsWith_gives default spanOf fragment enters operands scope inside parameters knows
      enough
  | .member _ _, _, _, _, admitted, _, _, _, _ => absurd admitted fragment.member
  | .call name arguments primed, scope, _, _, admitted, hint, parameters, knows, enough => by
    have gives := operandsWith_gives default spanOf fragment enters arguments scope
      (fragment.arguments admitted) parameters knows
      (by rwa [Expr.definitions_call] at enough)
    have plainGives := List.Forall₂.imp (fun _ _ both => both.2) gives
    have sameNames := (knows.visible name).1
    rw [lowerWith, hint]
    refine .locating ?_
    cases seen : Scope.visible name scope.definitions with
    | nil =>
      rw [seen] at sameNames
      obtain ⟨rfl, function, named, plain, arity⟩ := fragment.builtin admitted sameNames
      rw [if_neg (by simp [Scope.defines, seen])]
      exact lowerBuiltin_gives default.builtins sameNames named plain arity plainGives
    | cons entry below =>
      rw [if_pos (by simp [Scope.defines, seen])]
      exact lowerCall_gives fragment enters hint admitted knows seen
        (enough.imp_right fun enough => le_trans (Nat.le_add_right _ _) enough) plainGives
  | .define name parameters body value, scope, _, _, admitted, hint, listed, knows, enough => by
    let definition : Definition := ⟨name, parameters, body⟩
    refine .locating (.bind (freshDefinition_gives
      (definition, scope.definitions.map Prod.snd)) ?_)
    rintro last order number ⟨known, same, new⟩
    have fewer : failure ∨ last.pending ((number, definition) :: scope.definitions) +
        value.definitions.length ≤ bound := by
      refine enough.imp_right fun enough => ?_
      have smaller := Layout.pending_le_of_le order scope.definitions
      rw [Expr.definitions_define, List.length_cons, List.length_append] at enough
      rw [Layout.pending_cons, if_neg new]
      dsimp only [definition]
      omega
    have inside := lowerWith_gives default spanOf fragment enters value
      { scope with definitions := (number, definition) :: scope.definitions }
      (fragment.define admitted) hint listed ⟨known, knows.later order⟩ fewer
    exact .weaken inside (fun _ _ _ means => means.define) id

theorem operandsWith_gives (default : compiler.Default) (spanOf : Expr → Option Span)
    (fragment : Fragment compiler failure admits) {enter : Expr → Scope → Ty → LowerM Node}
    {bound : Nat} (enters : compiler.EntersFragment failure admits enter bound) :
    ∀ (exprs : List Expr) (scope : Scope) {layout : Layout} {names : List String},
      (∀ expr ∈ exprs, admits names (scope.definitions.map Prod.snd) expr) →
      scope.parameters = Scope.decimals names → layout.Knows scope.definitions →
      (failure ∨
        layout.pending scope.definitions + (exprs.flatMap Expr.definitions).length ≤ bound) →
        List.Forall₂ (fun operand expr => operand.expr = expr ∧
          operand.Gives compiler layout failure names (scope.definitions.map Prod.snd) expr)
          (compiler.operandsWith spanOf enter exprs scope) exprs
  | [], _, _, _, _, _, _, _ => .nil
  | expr :: rest, scope, _, _, admitted, parameters, knows, enough => by
    have both : (List.flatMap Expr.definitions (expr :: rest)).length =
        expr.definitions.length + (rest.flatMap Expr.definitions).length := by
      rw [List.flatMap_cons, List.length_append]
    refine .cons ⟨rfl, fun last order => ?_⟩ ?_
    · refine lowerWith_gives default spanOf fragment enters expr
        (scope.withHint (some .decimal)) (admitted expr (by simp)) rfl parameters
        (knows.later order) (enough.imp_right fun enough => ?_)
      have smaller := Layout.pending_le_of_le order scope.definitions
      change last.pending scope.definitions + _ ≤ bound
      omega
    · exact operandsWith_gives default spanOf fragment enters rest scope
        (fun other member => admitted other (by simp [member])) parameters knows
        (enough.imp_right fun enough => by omega)

end

theorem lowerWithin_gives (default : compiler.Default) (spanOf : Expr → Option Span)
    (fragment : Fragment compiler failure admits) (depth : Nat) :
    compiler.EntersFragment failure admits (compiler.lowerWithin spanOf depth) depth := by
  induction depth with
  | zero =>
    intro layout names expr scope _ _ _ enough
    exact .throw (enough.resolve_right (Nat.not_lt_zero _))
  | succ depth ih =>
    intro layout names expr scope admitted parameters knows enough
    have inside := lowerWith_gives default spanOf fragment ih expr
      (scope.withHint (some .decimal)) admitted rfl parameters knows
      (enough.imp_right Nat.le_of_lt_succ)
    refine .bind inside fun last _ node means => ?_
    rw [coerce_of_ty means.ty]
    exact .locating (.pure means)

theorem length_definitions_lt_nestingBound (compiler : Compiler) (expr : Expr) :
    expr.definitions.length < compiler.nestingBound expr := by
  have types : 0 < compiler.typesInPlay.length := by
    simp [typesInPlay]
  have base : 1 < compiler.typesInPlay.length ^ maxParameters expr + 1 :=
    Nat.lt_add_of_pos_left (Nat.pow_pos types)
  exact Nat.lt_pow_self base

theorem lowerTo_gives (default : compiler.Default) (spanOf : Expr → Option Span)
    (fragment : Fragment compiler failure admits) {expr : Expr} (admitted : admits [] [] expr)
    (layout : Layout) :
    LowerM.Gives compiler layout failure [] [] (compiler.lowerTo spanOf .decimal expr) expr := by
  refine lowerWithin_gives default spanOf fragment _ admitted rfl trivial (.inr ?_)
  have bound := compiler.length_definitions_lt_nestingBound expr
  simpa [Layout.pending] using bound

end Compiler

/-! Programs: functions that are called by number agree with definitions that are called by
    name, call by call. -/

/-- The decimal inputs of a formula, by name. -/
def Options.decimals (options : Options) (given : String → Decimal) (name : String) :
    Option Decimal :=
  if options.inputs.get? name = some .decimal then some (given name) else none

/-- The program has the value of the tree for all decimal inputs, however deep calls may nest. -/
structure Program.Computes (compiler : Compiler) (program : Program) (expr : Expr) : Prop where
  slots : ∀ slot ∈ program.slots,
    slot.type = .decimal ∧ compiler.options.inputs.get? slot.name = some .decimal
  agrees : ∀ (machine : Machine), machine.calculator = compiler.calculator →
    ∀ given : String → Decimal,
      Agrees (machine.evaluate program (program.slots.map fun slot => .decimal (given slot.name)))
        (expr.valueWithin compiler.calculator (compiler.options.decimals given)
          machine.maxCallDepth ⟨[], []⟩)

section

variable {compiler : Compiler} {layout : Layout} {state : LowerState}

theorem Layout.Describes.call_agrees (described : layout.Describes compiler state)
    (program : Program) (bodies : state.functions.bodies = program.functions.map some) {machine : Machine}
    (same : machine.calculator = compiler.calculator) {slots : List Value}
    {inputs : String → Option Decimal}
    (input : ∀ ⦃index : Nat⦄ ⦃slot : Slot⦄, layout.slots[index]? = some slot →
      ∃ d, inputs slot.name = some d ∧ slots[index]? = some (.decimal d)) (depth : Nat) :
    ∀ ⦃index definition below⦄, layout.closure? index = some (definition, below) →
      ∀ values : List Decimal, values.length = definition.parameters.length →
        Agrees (machine.call program slots depth index (values.map .decimal))
          (Expr.enterWithin compiler.calculator inputs depth definition below values) := by
  have present : ∀ {index definition below}, layout.closure? index = some (definition, below) →
      ∃ function, program.functions[index]? = some function := by
    intro index definition below closure
    obtain ⟨number, listed, -⟩ := Option.bind_eq_some_iff.mp closure
    have bound := (List.getElem?_eq_some_iff.mp listed).1
    rw [← described.count, bodies, List.length_map] at bound
    exact ⟨_, List.getElem?_eq_getElem bound⟩
  induction depth with
  | zero =>
    intro index definition below closure values _
    obtain ⟨function, found⟩ := present closure
    simp only [Machine.call, found]
    rfl
  | succ depth ih =>
    intro index definition below closure values sized
    obtain ⟨function, found⟩ := present closure
    have stored : state.functions.bodies[index]? = some (some function) := by
      rw [bodies, List.getElem?_map, found]
      rfl
    let host : layout.Host :=
      ⟨slots, machine.call program slots depth, inputs,
        Expr.enterWithin compiler.calculator inputs depth, input, ih⟩
    simp only [Machine.call, found, same]
    exact (described.bodies stored closure).agrees host values sized

/-- What lowering keeps holds of the program that is compiled. -/
theorem Compiler.compileWith_keeps {W : Type} [Preorder W] {describes : W → LowerState → Prop}
    {world : W} {result : W → Node → Prop} {failure : Prop} {spanOf : Expr → Option Span}
    {expr tree : Expr} {restrictions : List Expr}
    (simplified : compiler.simplified expr = (tree, restrictions)) (initial : describes world {})
    (keeps : LowerM.Keeps describes world (compiler.lowerGuarded spanOf restrictions tree) result
      failure) (source : Option String) :
    Settles (fun program => ∃ later state, describes later state ∧ program.slots = state.slots ∧
        state.functions.bodies = program.functions.map some ∧ result later program.root)
      (fun _ => failure) (compiler.compileWith spanOf source expr) := by
  unfold compileWith
  rw [simplified]
  dsimp only
  cases lowered : compiler.lowerGuarded spanOf restrictions tree {} with
  | mk outcome state =>
    obtain ⟨extends_, later, -, described, holds⟩ := keeps initial lowered
    cases outcome with
    | error error => exact holds
    | ok root =>
      obtain ⟨functions, bodies⟩ := extends_.bodies
      have bodies : state.functions.bodies = functions.map some := by simpa using bodies
      dsimp only
      rw [FunctionTable.finish_eq bodies]
      exact ⟨later, state, described, rfl, bodies, holds⟩

/-- A tree of a fragment is compiled to a program with its value, or compilation may fail. -/
theorem Compiler.compileWith_computes {failure : Prop}
    {admits : List String → List Definition → Expr → Prop} {expr tree : Expr}
    (default : compiler.Default) (returns : compiler.options.expectReturn = .decimal)
    (fragment : Fragment compiler failure admits) (simplified : compiler.simplified expr = (tree, []))
    (admitted : admits [] [] tree) (spanOf : Expr → Option Span) (source : Option String) :
    Settles (fun program => program.Computes compiler tree) (fun _ => failure)
      (compiler.compileWith spanOf source expr) := by
  have gives : LowerM.Gives compiler ⟨[], [], []⟩ failure [] []
      (compiler.lowerGuarded spanOf [] tree) tree := by
    unfold lowerGuarded
    rw [returns]
    exact .bind (lowerTo_gives default spanOf fragment admitted _) fun _ _ _ means => .pure means
  refine (compileWith_keeps simplified .initial gives source).weaken ?_ fun _ => id
  rintro program ⟨layout, state, described, slotsKept, bodies, means⟩
  refine ⟨slotsKept ▸ described.slots ▸ described.inputs, fun machine same given => ?_⟩
  let inputs := compiler.options.decimals given
  let slots := program.slots.map fun slot => Value.decimal (given slot.name)
  have input : ∀ ⦃index : Nat⦄ ⦃slot : Slot⦄, layout.slots[index]? = some slot →
      ∃ d, inputs slot.name = some d ∧ slots[index]? = some (.decimal d) := by
    intro index slot found
    have declared := (described.inputs slot (List.mem_of_getElem? found)).2
    refine ⟨given slot.name, if_pos declared, ?_⟩
    rw [List.getElem?_map, slotsKept, described.slots, found]
    rfl
  have calls := described.call_agrees program bodies same input machine.maxCallDepth
  have agrees := means.agrees ⟨slots, _, inputs, _, input, calls⟩ [] rfl
  unfold Machine.evaluate
  rw [if_neg (by simp), same]
  exact agrees

end

end Formulary
