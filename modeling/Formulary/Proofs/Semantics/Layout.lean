import Formulary.Lowering.Compile
import Formulary.Proofs.Expr.Names
import Formulary.Proofs.Semantics.Meaning

namespace Formulary

/-! What lowering over decimals has collected at any moment, and how each change of it is
    described. -/

namespace Layout

/-- The definitions of a scope are known under their numbers. -/
def Knows (layout : Layout) : List (Nat × Definition) → Prop
  | [] => True
  | (number, definition) :: below =>
    layout.closures[number]? = some (definition, below.map Prod.snd) ∧ layout.Knows below

theorem Knows.later {layout last : Layout} {definitions : List (Nat × Definition)}
    (knows : layout.Knows definitions) (order : layout ≤ last) : last.Knows definitions := by
  induction definitions with
  | nil => trivial
  | cons entry below ih => exact ⟨getElem?_of_initial order.2.1 knows.1, ih knows.2⟩

/-- Bound on the functions that calls in a scope can still add: those of its definitions that
    have not been compiled, and those defined in their bodies. -/
def pending (layout : Layout) (definitions : List (Nat × Definition)) : Nat :=
  (definitions.map fun entry =>
    if entry.1 ∈ layout.functions then 0 else entry.2.body.definitions.length + 1).sum

theorem pending_le_of_le {layout last : Layout} (order : layout ≤ last)
    (definitions : List (Nat × Definition)) :
    last.pending definitions ≤ layout.pending definitions := by
  refine List.sum_le_sum fun entry _ => ?_
  by_cases compiled : entry.1 ∈ layout.functions
  · rw [if_pos compiled, if_pos (order.2.2.subset compiled)]
  · rw [if_neg compiled]
    split <;> omega

theorem pending_cons (layout : Layout) (number : Nat) (definition : Definition)
    (below : List (Nat × Definition)) :
    layout.pending ((number, definition) :: below) =
      (if number ∈ layout.functions then 0 else definition.body.definitions.length + 1) +
        layout.pending below := by
  simp [pending]

/-- What a name means in a scope, and what is left to add below it. -/
theorem Knows.visible {layout : Layout} {definitions : List (Nat × Definition)}
    (knows : layout.Knows definitions) (name : String) :
    Definition.visible name (definitions.map Prod.snd) =
        (Scope.visible name definitions).map Prod.snd ∧
      layout.Knows (Scope.visible name definitions) ∧
      layout.pending (Scope.visible name definitions) ≤ layout.pending definitions := by
  induction definitions with
  | nil => exact ⟨rfl, trivial, le_refl _⟩
  | cons entry below ih =>
    rw [List.map_cons, Definition.visible, Scope.visible]
    split
    · exact ⟨rfl, knows, le_refl _⟩
    · obtain ⟨same, visible, bound⟩ := ih knows.2
      refine ⟨same, visible, bound.trans ?_⟩
      rw [pending_cons]
      omega

/-- The state of lowering holds what the layout says, and the bodies of functions mean the
    bodies of their definitions. -/
structure Describes (compiler : Compiler) (layout : Layout) (state : LowerState) : Prop where
  slots : state.slots = layout.slots
  inputs : ∀ slot ∈ layout.slots,
    slot.type = .decimal ∧ compiler.options.inputs.get? slot.name = some .decimal
  next : state.functions.nextDefinition = layout.closures.length
  numbered : state.functions.Numbered
  count : state.functions.bodies.length = layout.functions.length
  known : ∀ number ∈ layout.functions, number < layout.closures.length
  memo : ∀ {number types index type},
    state.functions.lookup ⟨number, types⟩ = some (index, type) →
      type = .decimal ∧ layout.functions[index]? = some number
  compiled : ∀ {number definition below}, number ∈ layout.functions →
    layout.closures[number]? = some (definition, below) →
      (state.functions.lookup
        ⟨number, List.replicate definition.parameters.length .decimal⟩).isSome
  bodies : ∀ {index function definition below},
    state.functions.bodies[index]? = some (some function) →
      layout.closure? index = some (definition, below) →
        Means compiler.calculator layout definition.parameters (definition :: below)
          function.body definition.body

namespace Describes

variable {compiler : Compiler} {layout : Layout} {state : LowerState}

theorem initial : Describes compiler ⟨[], [], []⟩ {} where
  slots := rfl
  inputs _ member := nomatch member
  next := rfl
  numbered := rfl
  count := rfl
  known _ member := nomatch member
  memo found := nomatch found
  compiled member := nomatch member
  bodies found := nomatch found

theorem addSlot {name : String} (described : Describes compiler layout state)
    (declared : compiler.options.inputs.get? name = some .decimal) :
    Describes compiler { layout with slots := layout.slots ++ [⟨name, .decimal⟩] }
      { state with slots := state.slots ++ [⟨name, .decimal⟩] } where
  slots := by rw [described.slots]
  inputs slot member := by
    rcases List.mem_append.mp member with member | member
    · exact described.inputs slot member
    · cases List.mem_singleton.mp member
      exact ⟨rfl, declared⟩
  next := described.next
  numbered := described.numbered
  count := described.count
  known := described.known
  memo := described.memo
  compiled := described.compiled
  bodies found known := (described.bodies found known).later
    ⟨List.prefix_append _ _, List.prefix_refl _, List.prefix_refl _⟩

theorem addClosures (described : Describes compiler layout state)
    (more : List (Definition × List Definition)) :
    Describes compiler { layout with closures := layout.closures ++ more }
      (state.withFunctions
        { state.functions with nextDefinition := layout.closures.length + more.length }) := by
  have earlier : ∀ {number : Nat} {closure}, number ∈ layout.functions →
      (layout.closures ++ more)[number]? = some closure →
        layout.closures[number]? = some closure := by
    intro number closure member found
    rwa [List.getElem?_append_left (described.known number member)] at found
  have order : layout ≤ { layout with closures := layout.closures ++ more } :=
    ⟨List.prefix_refl _, List.prefix_append _ _, List.prefix_refl _⟩
  exact {
    slots := described.slots
    inputs := described.inputs
    next := (List.length_append).symm
    numbered := described.numbered
    count := described.count
    known := fun number member => by
      rw [List.length_append]
      exact Nat.lt_add_right _ (described.known number member)
    memo := described.memo
    compiled := fun member found => described.compiled member (earlier member found)
    bodies := by
      intro index function definition below found closure
      obtain ⟨number, listed, known⟩ := Option.bind_eq_some_iff.mp closure
      have before : layout.closure? index = some (definition, below) :=
        Option.bind_eq_some_iff.mpr
          ⟨number, listed, earlier (List.mem_of_getElem? listed) known⟩
      exact (described.bodies found before).later order }

theorem reserve {number : Nat} {definition : Definition} {below : List Definition}
    (described : Describes compiler layout state)
    (known : layout.closures[number]? = some (definition, below)) :
    Describes compiler { layout with functions := layout.functions ++ [number] }
      (state.withFunctions (state.functions.reserve
        ⟨number, List.replicate definition.parameters.length .decimal⟩ .decimal)) := by
  have order : layout ≤ { layout with functions := layout.functions ++ [number] } :=
    ⟨List.prefix_refl _, List.prefix_refl _, List.prefix_append _ _⟩
  exact {
    slots := described.slots
    inputs := described.inputs
    next := described.next
    numbered := described.numbered.reserve _ _
    count := by
      simp only [FunctionTable.reserve, List.length_append, described.count]
      rfl
    known := fun other member => by
      rcases List.mem_append.mp member with member | member
      · exact described.known other member
      · cases List.mem_singleton.mp member
        exact (List.getElem?_eq_some_iff.mp known).1
    memo := by
      intro other types index type found
      simp only [FunctionTable.lookup, FunctionTable.reserve, List.lookup_cons] at found
      split at found
      · rename_i same
        cases beq_iff_eq.mp same
        cases found
        exact ⟨rfl, by simp [described.count]⟩
      · obtain ⟨decimal, listed⟩ := described.memo found
        exact ⟨decimal, getElem?_of_initial order.2.2 listed⟩
    compiled := by
      intro other definition' below' member found
      simp only [FunctionTable.lookup, FunctionTable.reserve, List.lookup_cons]
      split
      · rfl
      · rename_i different
        rcases List.mem_append.mp member with member | member
        · exact described.compiled member found
        · cases List.mem_singleton.mp member
          cases known.symm.trans found
          simp at different
    bodies := by
      intro index function definition' below' found closure
      have earlier : state.functions.bodies[index]? = some (some function) := by
        rw [FunctionTable.reserve, List.getElem?_append] at found
        split at found
        · exact found
        · simp [List.getElem?_singleton] at found
      have bound := (List.getElem?_eq_some_iff.mp earlier).1
      have before : layout.closure? index = some (definition', below') := by
        unfold closure? at closure ⊢
        dsimp only at closure
        rwa [List.getElem?_append_left (described.count ▸ bound)] at closure
      exact (described.bodies earlier before).later order }

theorem store {index : Nat} {definition : Definition} {below : List Definition}
    {function : Function} (described : Describes compiler layout state)
    (closure : layout.closure? index = some (definition, below))
    (means : Means compiler.calculator layout definition.parameters (definition :: below)
      function.body definition.body) :
    Describes compiler layout (state.withFunctions (state.functions.store index function)) :=
  { described with
    numbered := described.numbered.store _ _
    count := by simp only [FunctionTable.store, List.length_set, described.count]
    bodies := by
      intro position other definition' below' found closure'
      rw [FunctionTable.store, List.getElem?_set] at found
      split at found
      · rename_i same
        subst same
        cases closure.symm.trans closure'
        split at found
        · cases found
          exact means
        · cases found
      · exact described.bodies found closure' }

/-- When a body cannot be lowered, its function is dropped again. Inputs and definitions that
    were added meanwhile stay. -/
theorem restore {last : Layout} {after : LowerState} (described : Describes compiler layout state)
    (order : layout ≤ last) (afterDescribed : Describes compiler last after) :
    Describes compiler ⟨last.slots, last.closures, layout.functions⟩
      (after.withFunctions
        { state.functions with nextDefinition := after.functions.nextDefinition }) := by
  obtain ⟨more, closures⟩ := order.2.1
  have grown := described.addClosures more
  have next : after.functions.nextDefinition = layout.closures.length + more.length := by
    rw [afterDescribed.next, ← closures, List.length_append]
  rw [closures, ← next] at grown
  exact { grown with
    slots := afterDescribed.slots
    inputs := afterDescribed.inputs
    bodies := fun found closure => (grown.bodies found closure).later
      ⟨order.1, List.prefix_refl _, List.prefix_refl _⟩ }

end Describes

end Layout

end Formulary
