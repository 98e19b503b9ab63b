import Mathlib.Algebra.BigOperators.Group.List.Basic
import Mathlib.Algebra.Group.Action.Defs
import Mathlib.Data.Finset.Card
import Mathlib.Data.Finset.Filter
import Mathlib.Data.List.Sections
import Mathlib.Tactic.Ring
import Formulary.Proofs.Conversion.Search
import Formulary.Proofs.Expr.Names
import Formulary.Proofs.Lowering.Agreement
import Formulary.Proofs.Lowering.Tree

namespace Formulary

variable {compiler : Compiler} {state later : LowerState} {limit budget : Nat}

/-! Lowering ends. A body is entered only for argument types that its definition did not meet
    before, and there are finitely many of those. The definitions inside a body are new each time
    it is entered, so they start again with all argument types: therefore the argument types that
    a definition can still meet count the more, the more definitions its body holds. -/

theorem length_sections_replicate {α : Type} (items : List α) (count : Nat) :
    ((List.replicate count items).sections).length = items.length ^ count := by
  induction count with
  | zero => rfl
  | succ count ih =>
    rw [List.replicate_succ, List.sections, List.length_flatMap]
    simp only [List.length_map, List.map_const', List.sum_replicate, ih, smul_eq_mul, pow_succ]

/-- Lists of argument types that a definition can still meet. -/
def LowerState.unmet (types : List Ty) (state : LowerState) (number arity : Nat) :
    Finset (List Ty) :=
  (List.replicate arity types).sections.toFinset.filter fun arguments =>
    ∀ entry ∈ state.functions.memo, entry.1 ≠ ⟨number, arguments⟩

theorem LowerState.card_unmet_le (types : List Ty) (state : LowerState) (number arity : Nat) :
    (state.unmet types number arity).card ≤ types.length ^ arity :=
  calc (state.unmet types number arity).card
      ≤ (List.replicate arity types).sections.toFinset.card := Finset.card_filter_le _ _
    _ ≤ (List.replicate arity types).sections.length := List.toFinset_card_le _
    _ = types.length ^ arity := length_sections_replicate types arity

theorem LowerState.unmet_subset (types : List Ty) (number arity : Nat)
    (grown : state.functions.memo ⊆ later.functions.memo) :
    later.unmet types number arity ⊆ state.unmet types number arity :=
  Finset.monotone_filter_right _ fun _ _ unmet entry member => unmet entry (grown member)

/-- A signature that is reserved was not met before and is met now. -/
theorem LowerState.card_unmet_reserve {types arguments : List Ty} {number : Nat}
    (known : ∀ argument ∈ arguments, argument ∈ types)
    (new : state.functions.lookup ⟨number, arguments⟩ = none) (type : Ty) :
    ((state.withFunctions (state.functions.reserve ⟨number, arguments⟩ type)).unmet types number
      arguments.length).card < (state.unmet types number arguments.length).card := by
  have listed : arguments ∈ (List.replicate arguments.length types).sections := by
    refine List.mem_sections.mpr (List.forall₂_iff_get.mpr ⟨by simp, fun index bound _ => ?_⟩)
    simpa using known _ (List.get_mem arguments ⟨index, bound⟩)
  refine Finset.card_lt_card ((Finset.ssubset_iff_of_subset (unmet_subset _ _ _
    (List.subset_cons_self _ _))).mpr ⟨arguments, ?_, ?_⟩)
  · rw [unmet, Finset.mem_filter, List.mem_toFinset]
    refine ⟨listed, fun entry member same => ?_⟩
    have other := List.lookup_eq_none_iff.mp new entry member
    simp [same] at other
  · rw [unmet, Finset.mem_filter]
    intro met
    exact met.2 _ (List.mem_cons_self) rfl

namespace Compiler

/-- More than the lists of argument types of a definition with at most `limit` parameters. -/
def base (compiler : Compiler) (limit : Nat) : Nat := compiler.typesInPlay.length ^ limit + 1

/-- Bound on nested bodies of the definitions that can be called. -/
def load (compiler : Compiler) (limit : Nat) (state : LowerState)
    (definitions : List (Nat × Definition)) : Nat :=
  (definitions.map fun entry =>
    (state.unmet compiler.typesInPlay entry.1 entry.2.parameters.length).card *
      compiler.base limit ^ entry.2.body.definitions.length).sum

/-- Bound on nested bodies below a tree. -/
def nesting (compiler : Compiler) (limit : Nat) (state : LowerState)
    (definitions : List (Nat × Definition)) (expr : Expr) : Nat :=
  compiler.base limit ^ expr.definitions.length + compiler.load limit state definitions

theorem load_cons (limit : Nat) (state : LowerState) (number : Nat) (definition : Definition)
    (below : List (Nat × Definition)) :
    compiler.load limit state ((number, definition) :: below) =
      (state.unmet compiler.typesInPlay number definition.parameters.length).card *
        compiler.base limit ^ definition.body.definitions.length +
          compiler.load limit state below := by
  rw [load, List.map_cons, List.sum_cons]
  rfl

theorem load_mono (compiler : Compiler) (limit : Nat)
    (grown : state.functions.memo ⊆ later.functions.memo)
    (definitions : List (Nat × Definition)) :
    compiler.load limit later definitions ≤ compiler.load limit state definitions := by
  induction definitions with
  | nil => exact Nat.le_refl _
  | cons entry below ih =>
    obtain ⟨number, definition⟩ := entry
    have fewer := Finset.card_le_card (LowerState.unmet_subset compiler.typesInPlay number
      definition.parameters.length grown)
    rw [load_cons, load_cons]
    exact Nat.add_le_add (Nat.mul_le_mul_right _ fewer) ih

theorem load_visible (name : String) (definitions : List (Nat × Definition)) :
    compiler.load limit state (Scope.visible name definitions) ≤
      compiler.load limit state definitions := by
  induction definitions with
  | nil => exact Nat.le_refl _
  | cons entry below ih =>
    rw [Scope.visible]
    split
    · exact Nat.le_refl _
    · rw [load_cons]
      exact Nat.le_trans ih (Nat.le_add_left _ _)

/-- A call at new argument types leaves room for the body. -/
theorem nesting_reserve {number : Nat} {definition : Definition} {below : List (Nat × Definition)}
    {arguments : List Ty} {type : Ty} (known : ∀ argument ∈ arguments,
      argument ∈ compiler.typesInPlay)
    (arity : arguments.length = definition.parameters.length)
    (new : state.functions.lookup ⟨number, arguments⟩ = none) :
    compiler.nesting limit
        (state.withFunctions (state.functions.reserve ⟨number, arguments⟩ type))
        ((number, definition) :: below) definition.body ≤
      compiler.load limit state ((number, definition) :: below) := by
  have fewer := LowerState.card_unmet_reserve known new type
  rw [arity] at fewer
  have others : compiler.load limit
      (state.withFunctions (state.functions.reserve ⟨number, arguments⟩ type)) below ≤
        compiler.load limit state below :=
    load_mono compiler limit (List.subset_cons_self _ _) below
  rw [nesting, load_cons, load_cons, ← Nat.add_assoc]
  refine Nat.add_le_add ?_ others
  rw [Nat.add_comm, ← Nat.succ_mul]
  exact Nat.mul_le_mul_right _ fewer

/-- The definitions of a tree are known below it one after the other. -/
theorem nesting_define {number : Nat} {name : String} {parameters : List String}
    (narrow : parameters.length ≤ limit) (body value : Expr)
    (definitions : List (Nat × Definition)) :
    compiler.nesting limit state ((number, ⟨name, parameters, body⟩) :: definitions) value ≤
      compiler.nesting limit state definitions (.define name parameters body value) := by
  have types : 0 < compiler.typesInPlay.length := by simp [typesInPlay]
  have few : (state.unmet compiler.typesInPlay number parameters.length).card ≤
      compiler.typesInPlay.length ^ limit :=
    (LowerState.card_unmet_le _ _ _ _).trans (Nat.pow_le_pow_right types narrow)
  have positive : ∀ count, 1 ≤ compiler.base limit ^ count :=
    fun count => Nat.one_le_pow _ _ (Nat.succ_pos _)
  rw [nesting, nesting, load_cons, ← Nat.add_assoc, Expr.definitions_define, List.length_cons,
    List.length_append]
  refine Nat.add_le_add_right ?_ _
  calc compiler.base limit ^ value.definitions.length +
        (state.unmet compiler.typesInPlay number parameters.length).card *
          compiler.base limit ^ body.definitions.length
      ≤ compiler.base limit ^ body.definitions.length *
            compiler.base limit ^ value.definitions.length +
          compiler.typesInPlay.length ^ limit * compiler.base limit ^ body.definitions.length *
            compiler.base limit ^ value.definitions.length :=
        Nat.add_le_add (Nat.le_mul_of_pos_left _ (positive _))
          ((Nat.mul_le_mul_right _ few).trans (Nat.le_mul_of_pos_right _ (positive _)))
    _ = compiler.base limit ^ (body.definitions.length + value.definitions.length + 1) := by
        rw [pow_succ, pow_add]
        simp only [base]
        ring

end Compiler

/-- No definition in the tree has more than `limit` parameters. -/
def Expr.Narrow (limit : Nat) (expr : Expr) : Prop :=
  ∀ ⦃name parameters body value⦄, .define name parameters body value ∈ expr.subtrees →
    parameters.length ≤ limit

theorem Expr.Narrow.maxParameters (expr : Expr) : expr.Narrow (Compiler.maxParameters expr) := by
  intro name parameters body value member
  have greatest : ∀ (counts : List Nat) (start : Nat), start ≤ counts.foldl max start ∧
      ∀ count ∈ counts, count ≤ counts.foldl max start := by
    intro counts
    induction counts with
    | nil => exact fun start => ⟨Nat.le_refl _, fun _ member => nomatch member⟩
    | cons first rest ih =>
      intro start
      obtain ⟨above, others⟩ := ih (max start first)
      rw [List.foldl_cons]
      refine ⟨by omega, fun count member => ?_⟩
      rcases List.mem_cons.mp member with same | member
      · omega
      · exact others count member
  exact (greatest _ 0).2 _ (List.mem_map.mpr ⟨_, member, rfl⟩)

/-- What a scope offers is of types in play and has few parameters. -/
structure Scope.Bounded (compiler : Compiler) (limit : Nat) (scope : Scope) : Prop where
  hints : compiler.Hints scope.hint
  parameters : ∀ entry ∈ scope.parameters, entry.2.2 ∈ compiler.typesInPlay
  definitions : ∀ entry ∈ scope.definitions,
    entry.2.parameters.length ≤ limit ∧ entry.2.body.Narrow limit

theorem Scope.Bounded.withHint {scope : Scope} (bounded : scope.Bounded compiler limit)
    {hint : Option Ty} (hints : compiler.Hints hint) :
    (scope.withHint hint).Bounded compiler limit :=
  ⟨hints, bounded.parameters, bounded.definitions⟩

theorem Scope.Bounded.inside {type : Ty} {types : List Ty} {definitions : List (Nat × Definition)}
    (names : List String) (known : type ∈ compiler.typesInPlay)
    (arguments : ∀ type ∈ types, type ∈ compiler.typesInPlay)
    (narrow : ∀ entry ∈ definitions,
      entry.2.parameters.length ≤ limit ∧ entry.2.body.Narrow limit) :
    Scope.Bounded compiler limit
      { hint := some type
        parameters := (names.zip types.zipIdx).reverse.map
          fun (name, type, index) => (name, index, type)
        definitions } where
  hints := .some known
  parameters := by
    intro entry member
    obtain ⟨⟨name, type, index⟩, listed, rfl⟩ := List.mem_map.mp member
    have indexed := (List.of_mem_zip (List.mem_reverse.mp listed)).2
    exact arguments type (List.mem_of_getElem? (List.mem_zipIdx_iff_getElem?.mp indexed))
  definitions := narrow

theorem Scope.mem_of_visible {name : String} {definitions : List (Nat × Definition)}
    {entry : Nat × Definition} (member : entry ∈ Scope.visible name definitions) :
    entry ∈ definitions := by
  induction definitions with
  | nil => exact member
  | cons first below ih =>
    rw [Scope.visible] at member
    split at member
    · exact member
    · exact List.mem_cons_of_mem _ (ih member)

theorem Expr.sublist_subtreesAll {expr : Expr} {exprs : List Expr} (member : expr ∈ exprs) :
    expr.subtrees.Sublist (subtreesAll exprs) := by
  rw [subtreesAll_eq, List.flatMap_def]
  exact List.sublist_flatten_of_mem (List.mem_map_of_mem member)

namespace Compiler

/-- Below the tree no more than `budget` bodies are nested. -/
structure Affords (compiler : Compiler) (limit budget : Nat) (state : LowerState) (scope : Scope)
    (expr : Expr) : Prop where
  narrow : expr.Narrow limit
  bounded : scope.Bounded compiler limit
  enough : compiler.nesting limit state scope.definitions expr ≤ budget

theorem Affords.part {scope : Scope} {whole part : Expr} {hint : Option Ty}
    (affords : compiler.Affords limit budget state scope whole)
    (below : part.subtrees.Sublist whole.subtrees) (order : state.Extends later)
    (hints : compiler.Hints hint) :
    compiler.Affords limit budget later (scope.withHint hint) part where
  narrow := fun _ _ _ _ member => affords.narrow (below.subset member)
  bounded := affords.bounded.withHint hints
  enough := by
    have fewer : part.definitions.length ≤ whole.definitions.length :=
      (below.filterMap _).length_le
    exact (Nat.add_le_add (Nat.pow_le_pow_right (Nat.succ_pos _) fewer)
      (load_mono compiler limit order.memo.subset scope.definitions)).trans affords.enough

/-- Bodies are entered alike wherever the bound on nested bodies is kept. -/
def EntersAlike (compiler : Compiler) (limit budget : Nat)
    (left right : Expr → Scope → Ty → LowerM Node) : Prop :=
  ∀ ⦃expr scope type state⦄, compiler.Affords limit budget state scope expr →
    type ∈ compiler.typesInPlay →
      LowerM.Settles compiler.typesInPlay state (left expr scope type) (right expr scope type)
        fun _ => True

section

variable {scope : Scope} {lefts rights : List Operand}
variable {left right : Expr → Scope → Ty → LowerM Node}

theorem slotIndex_settles {types : List Ty} (name : String) (type : Ty) :
    LowerM.Settles types state (LowerM.slotIndex name type) (LowerM.slotIndex name type)
      fun _ => True := by
  refine .get_bind fun _ => ?_
  dsimp only
  split
  · exact .pure trivial
  · intro sound
    exact ⟨_, _, rfl, rfl, .input state _, ⟨sound.numbered, sound.returns⟩, trivial⟩

theorem freshDefinition_settles {types : List Ty} :
    LowerM.Settles types state LowerM.freshDefinition LowerM.freshDefinition fun _ => True := by
  intro sound
  exact ⟨_, _, rfl, rfl, .definition state, ⟨sound.numbered, sound.returns⟩, trivial⟩

theorem lowerVariable_settles (bounded : scope.Bounded compiler limit) (name : String) :
    LowerM.Settles compiler.typesInPlay state (compiler.lowerVariable scope name)
      (compiler.lowerVariable scope name) (compiler.InPlay scope.hint) := by
  rw [lowerVariable]
  split
  · rename_i index type found
    have known := bounded.parameters _ (mem_of_lookup_eq_some found)
    exact .pure (Compound.inPlay ⟨known, nofun⟩)
  · split
    · rename_i declared
      refine .bind (slotIndex_settles _ _) fun _ _ index _ => ?_
      exact .pure (Compound.inPlay ⟨inPlay_input declared, nofun⟩)
    · split
      · exact .throw nofun
      · have numeric := isNumeric_constantType scope.hint
        dsimp only
        split
        · rename_i value exact
          have type := Value.ty_ofDecimal exact
          rw [← type] at numeric
          refine .pure ⟨inPlay_of_isNumeric numeric, fun truth same => ?_⟩
          cases same
          cases numeric
        · exact .throw nofun

theorem literal_inPlay (hint : Option Ty) (value : Decimal) :
    compiler.InPlay hint (.constant (literalValue hint value)) := by
  have natural : compiler.InPlay hint (.constant (naturalValue value)) := by
    have numeric := isNumeric_naturalValue value
    refine ⟨inPlay_of_isNumeric numeric, fun truth same => ?_⟩
    rw [Node.constant.inj same] at numeric
    cases numeric
  unfold literalValue
  split
  · rename_i type kept
    obtain ⟨wanted, suits⟩ := Option.filter_eq_some_iff.mp kept
    cases embedded : Value.ofDecimal value type with
    | error _ => exact natural
    | ok literal =>
      have same : literal.ty = type := Value.ty_ofDecimal embedded
      refine ⟨?_, fun truth equal => ?_⟩
      · change literal.ty ∈ compiler.typesInPlay
        rw [same]
        rcases Bool.or_eq_true_iff.mp suits with truth | numeric
        · rw [of_decide_eq_true truth]
          exact inPlay_bool
        · exact inPlay_of_isNumeric numeric
      · have truth : literal = .bool truth := Node.constant.inj equal
        rw [wanted, ← same, truth]
        rfl
  · exact natural

theorem lowerMember_settles {target target' : Operand}
    (agree : Operand.Agree compiler state target target') (hint : Option Ty) (name : String) :
    LowerM.Settles compiler.typesInPlay state (compiler.lowerMember name target)
      (compiler.lowerMember name target') (compiler.InPlay hint) := by
  refine .bind (agree.lower state (.refl state) none .none) fun _ _ node _ => ?_
  split
  · rename_i declared
    exact .pure (Compound.inPlay ⟨inPlay_member declared, nofun⟩)
  · exact .throw nofun

/-- A call enters a body only at argument types that were not met before. -/
theorem lowerCall_settles (alike : compiler.EntersAlike limit budget left right)
    (bounded : scope.Bounded compiler limit)
    (agree : Operand.AllAgree compiler state lefts rights)
    (enough : compiler.load limit state scope.definitions ≤ budget) (name : String) :
    LowerM.Settles compiler.typesInPlay state (compiler.lowerCall left scope name lefts)
      (compiler.lowerCall right scope name rights) (compiler.InPlay scope.hint) := by
  rw [lowerCall, lowerCall, ← agree.length_eq]
  split
  · exact .throw nofun
  · rename_i number definition below visible
    dsimp only
    split
    · exact .throw_bind nofun
    · rename_i arity
      refine .bind (Operand.lowerAll_settles agree (.numericHint _))
        fun later order arguments inPlay => ?_
      refine .get_bind fun sound => ?_
      split
      · rename_i found
        have known := sound.returns _ (FunctionTable.mem_of_lookup found)
        exact .pure (Compound.inPlay ⟨known, nofun⟩)
      · rename_i new
        have types : ∀ type ∈ arguments.map Node.ty, type ∈ compiler.typesInPlay := by
          intro type member
          obtain ⟨node, listed, rfl⟩ := List.mem_map.mp member
          exact (inPlay.2 node listed).known
        have size : (arguments.map Node.ty).length = definition.parameters.length := by
          rw [List.length_map, inPlay.1]
          exact not_not.mp arity
        have listed : ∀ entry ∈ (number, definition) :: below, entry ∈ scope.definitions :=
          fun entry member => Scope.mem_of_visible (visible.symm ▸ member)
        have returns := bounded.hints.getD compiler.inPlay_expectReturn
        have room : compiler.nesting limit (later.withFunctions
            (later.functions.reserve ⟨number, arguments.map Node.ty⟩
              (scope.hint.getD compiler.options.expectReturn)))
            ((number, definition) :: below) definition.body ≤ budget :=
          calc _ ≤ compiler.load limit later ((number, definition) :: below) :=
                nesting_reserve types size new
            _ ≤ compiler.load limit state ((number, definition) :: below) :=
                load_mono compiler limit order.memo.subset _
            _ ≤ compiler.load limit state scope.definitions := visible ▸ load_visible name _
            _ ≤ budget := enough
        have inside := Scope.Bounded.inside definition.parameters returns types
          fun entry member => bounded.definitions entry (listed entry member)
        have narrow := (bounded.definitions _ (listed _ List.mem_cons_self)).2
        refine .bind (.compileFunction returns (alike ⟨narrow, inside, room⟩ returns))
          fun _ _ index _ => ?_
        exact .pure (Compound.inPlay ⟨returns, nofun⟩)

mutual

theorem lowerWith_settles (regular : compiler.Regular) (spanOf : Expr → Option Span)
    (alike : compiler.EntersAlike limit budget left right) :
    ∀ (expr : Expr) {scope : Scope} {state : LowerState},
      compiler.Affords limit (budget + 1) state scope expr →
        LowerM.Settles compiler.typesInPlay state (compiler.lowerWith spanOf left expr scope)
          (compiler.lowerWith spanOf right expr scope) (compiler.InPlay scope.hint)
  | .number value, scope, _, _ => .pure (literal_inPlay scope.hint value)
  | .text content, _, _, _ => .pure ⟨inPlay_text, nofun⟩
  | .var name, _, _, affords => .locating _ _ (lowerVariable_settles affords.bounded name)
  | .unary op operand, scope, state, affords => by
    have agree : Operand.Agree compiler state
        ⟨operand, spanOf operand, fun hint =>
          compiler.lowerWith spanOf left operand (scope.withHint hint)⟩
        ⟨operand, spanOf operand, fun hint =>
          compiler.lowerWith spanOf right operand (scope.withHint hint)⟩ :=
      ⟨rfl, rfl, fun _ order _ hints => lowerWith_settles regular spanOf alike operand
        (affords.part (List.sublist_cons_self _ _) order hints)⟩
    exact .locating _ _ (lowerUnary_settles agree scope.hint op)
  | .binary op operands, _, _, affords => by
    have agree := operandsWith_agree regular spanOf alike operands fun expr member =>
      affords.part ((Expr.sublist_subtreesAll member).cons _) (.refl _) affords.bounded.hints
    exact .locating _ _ (lowerBinary_settles regular agree spanOf affords.bounded.hints op)
  | .member target name, scope, state, affords => by
    have agree : Operand.Agree compiler state
        ⟨target, spanOf target, fun hint =>
          compiler.lowerWith spanOf left target (scope.withHint hint)⟩
        ⟨target, spanOf target, fun hint =>
          compiler.lowerWith spanOf right target (scope.withHint hint)⟩ :=
      ⟨rfl, rfl, fun _ order _ hints => lowerWith_settles regular spanOf alike target
        (affords.part (List.sublist_cons_self _ _) order hints)⟩
    exact .locating _ _ (lowerMember_settles agree scope.hint name)
  | .call name arguments primed, scope, state, affords => by
    have agree := operandsWith_agree regular spanOf alike arguments fun expr member =>
      affords.part ((Expr.sublist_subtreesAll member).cons _) (.refl _) affords.bounded.hints
    refine .locating _ _ ?_
    dsimp only
    split
    · -- The tree itself counts for one body at least, so its callees have room for the rest.
      have one : 1 ≤ compiler.base limit ^ (Expr.call name arguments primed).definitions.length :=
        Nat.one_le_pow _ _ (Nat.succ_pos _)
      have enough := affords.enough
      rw [nesting] at enough
      exact lowerCall_settles alike affords.bounded agree (by omega) name
    · exact Builtin.lowerCall_settles regular agree affords.bounded.hints name
  | .define name parameters body value, scope, state, affords => by
    have few : parameters.length ≤ limit := affords.narrow List.mem_cons_self
    have narrow : body.Narrow limit := fun _ _ _ _ member =>
      affords.narrow (List.mem_cons_of_mem _ (List.mem_append_left _ member))
    refine .locating _ _ (.bind freshDefinition_settles fun later order number _ => ?_)
    have bounded : Scope.Bounded compiler limit { scope with
        definitions := (number, ⟨name, parameters, body⟩) :: scope.definitions } := by
      refine ⟨affords.bounded.hints, affords.bounded.parameters, fun entry member => ?_⟩
      rcases List.mem_cons.mp member with rfl | member
      · exact ⟨few, narrow⟩
      · exact affords.bounded.definitions entry member
    have enough : compiler.nesting limit later
        ((number, ⟨name, parameters, body⟩) :: scope.definitions) value ≤ budget + 1 :=
      (nesting_define few body value scope.definitions).trans
        (affords.part (List.Sublist.refl _) order affords.bounded.hints).enough
    exact lowerWith_settles regular spanOf alike value ⟨fun _ _ _ _ member =>
      affords.narrow (List.mem_cons_of_mem _ (List.mem_append_right _ member)), bounded, enough⟩

theorem operandsWith_agree (regular : compiler.Regular) (spanOf : Expr → Option Span)
    (alike : compiler.EntersAlike limit budget left right) :
    ∀ (exprs : List Expr) {scope : Scope} {state : LowerState},
      (∀ expr ∈ exprs, compiler.Affords limit (budget + 1) state scope expr) →
        Operand.AllAgree compiler state (compiler.operandsWith spanOf left exprs scope)
          (compiler.operandsWith spanOf right exprs scope)
  | [], _, _, _ => .nil
  | expr :: rest, _, _, affords =>
    .cons ⟨rfl, rfl, fun _ order _ hints => lowerWith_settles regular spanOf alike expr
        ((affords expr List.mem_cons_self).part (List.Sublist.refl _) order hints)⟩
      (operandsWith_agree regular spanOf alike rest fun other member =>
        affords other (List.mem_cons_of_mem _ member))

end

end

/-- Lowering with a bound on nested bodies, where `beyond` stands for bodies nested deeper. -/
def lowerFrom (compiler : Compiler) (spanOf : Expr → Option Span)
    (beyond : Expr → Scope → Ty → LowerM Node) : Nat → Expr → Scope → Ty → LowerM Node
  | 0 => beyond
  | depth + 1 => fun expr scope type => do
    let node ← compiler.lowerWith spanOf (compiler.lowerFrom spanOf beyond depth) expr
      (scope.withHint (some type))
    LowerM.locating expr (spanOf expr) (compiler.catalog.coerce node type)

theorem lowerWithin_eq_lowerFrom (spanOf : Expr → Option Span) (depth : Nat) :
    compiler.lowerWithin spanOf depth =
      compiler.lowerFrom spanOf (fun _ _ _ => throw .unfinished) depth := by
  induction depth with
  | zero => rfl
  | succ depth ih =>
    funext expr scope type
    rw [lowerWithin, lowerFrom, ih]

/-- Where both bounds suffice, neither they nor what lies beyond them matters. -/
theorem lowerFrom_entersAlike (regular : compiler.Regular) (spanOf : Expr → Option Span)
    (beyond beyond' : Expr → Scope → Ty → LowerM Node) {depth depth' : Nat}
    (enough : budget ≤ depth) (enough' : budget ≤ depth') :
    compiler.EntersAlike limit budget (compiler.lowerFrom spanOf beyond depth)
      (compiler.lowerFrom spanOf beyond' depth') := by
  induction budget generalizing depth depth' with
  | zero =>
    intro expr scope type state affords _
    have one : 1 ≤ compiler.base limit ^ expr.definitions.length :=
      Nat.one_le_pow _ _ (Nat.succ_pos _)
    have none := affords.enough
    rw [nesting] at none
    omega
  | succ budget ih =>
    intro expr scope type state affords known
    obtain ⟨depth, rfl⟩ := Nat.exists_eq_succ_of_ne_zero (Nat.ne_zero_of_lt enough)
    obtain ⟨depth', rfl⟩ := Nat.exists_eq_succ_of_ne_zero (Nat.ne_zero_of_lt enough')
    have inner := ih (Nat.le_of_succ_le_succ enough) (Nat.le_of_succ_le_succ enough')
    have hinted := affords.part (List.Sublist.refl _) (.refl state) (.some known)
    rw [lowerFrom, lowerFrom]
    refine .bind (lowerWith_settles regular spanOf inner expr hinted) fun _ _ node _ => ?_
    exact .locating _ _ (Catalog.coerce_settles node type)

theorem lowerTo_settles (regular : compiler.Regular) (spanOf : Expr → Option Span)
    (beyond : Expr → Scope → Ty → LowerM Node) {type : Ty} (known : type ∈ compiler.typesInPlay)
    (expr : Expr) {depth : Nat} (enough : compiler.nestingBound expr ≤ depth) :
    LowerM.Settles compiler.typesInPlay state (compiler.lowerTo spanOf type expr)
      (compiler.lowerFrom spanOf beyond depth expr { hint := some type } type) fun _ => True := by
  have bounded : Scope.Bounded compiler (maxParameters expr) { hint := some type } :=
    ⟨.some known, nofun, nofun⟩
  rw [lowerTo, lowerWithin_eq_lowerFrom]
  exact lowerFrom_entersAlike regular spanOf _ beyond (Nat.le_refl _) enough
    ⟨Expr.Narrow.maxParameters expr, bounded, Nat.le_refl _⟩ known

theorem guarded_settles (regular : compiler.Regular) (spanOf : Expr → Option Span)
    (restrictions : List Expr) (body : Node) :
    LowerM.Settles compiler.typesInPlay state (compiler.guarded spanOf restrictions body)
      (compiler.guarded spanOf restrictions body) fun _ => True := by
  rw [guarded]
  generalize restrictions.reverse = remaining
  induction remaining generalizing state body with
  | nil => exact .pure trivial
  | cons restriction rest ih =>
    rw [List.foldlM_cons]
    have condition : LowerM.Settles compiler.typesInPlay state
        (compiler.lowerTo spanOf .bool restriction) (compiler.lowerTo spanOf .bool restriction)
        fun _ => True :=
      (lowerTo_settles regular spanOf (fun _ _ _ => throw .unfinished) inPlay_bool restriction
        (Nat.le_refl _)).left
    have one : LowerM.Settles compiler.typesInPlay state
        (do
          let condition ← compiler.lowerTo spanOf .bool restriction
          return Node.guard restriction.display condition body)
        (do
          let condition ← compiler.lowerTo spanOf .bool restriction
          return Node.guard restriction.display condition body) fun _ => True :=
      .bind condition fun _ _ _ _ => .pure trivial
    exact .bind one fun _ _ node _ => ih node

/-- A program is never refused because of the bound on nested bodies. -/
theorem compileWith_finishes (regular : compiler.Regular) {spanOf : Expr → Option Span}
    {source : Option String} {expr : Expr} {error : CompileError}
    (failed : compiler.compileWith spanOf source expr = .error error) :
    error.cause ≠ .unfinished := by
  have lowered : LowerM.Settles compiler.typesInPlay {}
      (compiler.lowerGuarded spanOf (compiler.simplified expr).2 (compiler.simplified expr).1)
      (compiler.lowerGuarded spanOf (compiler.simplified expr).2 (compiler.simplified expr).1)
      fun _ => True :=
    .bind (lowerTo_settles regular spanOf (fun _ _ _ => throw .unfinished) inPlay_expectReturn
      (compiler.simplified expr).1 (Nat.le_refl _)).left fun _ _ node _ =>
        guarded_settles regular spanOf _ node
  obtain ⟨outcome, after, run, -, -, -, ended⟩ := lowered (.initial _)
  rw [compileWith] at failed
  dsimp only at failed
  rw [run] at failed
  cases outcome with
  | error cause =>
    cases failed
    exact ended
  | ok root =>
    obtain ⟨-, functions, -, bodies, -⟩ := compiler.lowerGuarded_finishes regular run
    dsimp only at failed
    rw [FunctionTable.finish_eq bodies] at failed
    cases failed

end Compiler

/-- Lowering ends. Bodies nested deeper than the bound are never entered, whatever might be done
    there, so lowering without a bound has the same outcome and leaves the same state; and the
    search for conversions, which lowering relies on, is not cut short either. A failure is one of
    the formula, in lowering as in compiling. -/
theorem Compiler.lowerTo_terminates (compiler : Compiler) (regular : compiler.Regular)
    (spanOf : Expr → Option Span) {type : Ty} (known : type ∈ compiler.typesInPlay) (expr : Expr)
    {state : LowerState} (sound : state.Sound compiler.typesInPlay) :
    (∀ beyond depth, compiler.nestingBound expr ≤ depth →
      compiler.lowerFrom spanOf beyond depth expr { hint := some type } type state =
        compiler.lowerTo spanOf type expr state) ∧
    (∀ source target depth, compiler.catalog.searchDepth ≤ depth →
      compiler.catalog.searchWithin depth [] source target =
        compiler.catalog.path? source target) ∧
    (∃ outcome after, compiler.lowerTo spanOf type expr state = (outcome, after) ∧
      after.Sound compiler.typesInPlay ∧
      ∀ error, outcome = .error error → error.cause ≠ .unfinished) ∧
    ∀ source error, compiler.compileWith spanOf source expr = .error error →
      error.cause ≠ .unfinished := by
  refine ⟨fun beyond depth enough => ?_, fun source target depth enough =>
    Catalog.searchWithin_eq_path? source target enough, ?_, fun source error failed =>
    compileWith_finishes regular failed⟩
  · obtain ⟨outcome, after, bounded, unbounded, -⟩ :=
      lowerTo_settles regular spanOf beyond known expr enough sound
    rw [unbounded, bounded]
  · obtain ⟨outcome, after, run, -, -, afterSound, ended⟩ :=
      lowerTo_settles regular spanOf (fun _ _ _ => throw .unfinished) known expr (Nat.le_refl _)
        sound
    refine ⟨outcome, after, run, afterSound, fun error failed => ?_⟩
    subst failed
    exact ended

/-- A function that calls itself with a text, whatever it was called with. -/
def recursionAtText : Expr :=
  .define "f" ["x"] (.call "f" [.text "again"] true) (.call "f" [.number (Decimal.ofInt 1)] true)

/-- Two bodies are lowered, one for the number and one for the text. -/
theorem recursionAtText_terminates :
    ({} : Compiler).Regular ∧ .decimal ∈ ({} : Compiler).typesInPlay ∧
    LowerState.Sound ({} : Compiler).typesInPlay {} ∧
    ∀ beyond depth, ({} : Compiler).nestingBound recursionAtText ≤ depth →
      (({} : Compiler).lowerFrom (fun _ => none) beyond depth recursionAtText
        { hint := some .decimal } .decimal {}).2.functions.bodies.length = 2 := by
  have regular : ({} : Compiler).Regular := ⟨by decide, by decide⟩
  have known : .decimal ∈ ({} : Compiler).typesInPlay := Compiler.inPlay_of_isNumeric rfl
  have sound := LowerState.Sound.initial ({} : Compiler).typesInPlay
  refine ⟨regular, known, sound, fun beyond depth enough => ?_⟩
  rw [(Compiler.lowerTo_terminates {} regular (fun _ => none) known recursionAtText sound).1 beyond
    depth enough]
  rfl

end Formulary
