import Mathlib.Data.List.Basic
import Formulary.Evaluation.EntryPoint

namespace Formulary

/-! Calls of a bound program. The places at which a call looks for its inputs are found once, when
    the names of the parameters are bound, while a call by names looks each input up. Both read the
    same values in the same order, whatever the order of the parameters. -/

/-- A computation for each item, of which the first one that is refused decides. -/
theorem mapM_first {action : α → Except ε β} {refused : α → Bool} {result : α → β} {error : α → ε}
    (each : ∀ item, action item = if refused item then .error (error item) else .ok (result item))
    (items : List α) :
    items.mapM action =
      (items.find? refused).elim (.ok (items.map result)) fun item => .error (error item) := by
  induction items with
  | nil => rfl
  | cons item rest ih =>
    rw [List.mapM_cons, each, ih, List.find?_cons]
    cases refused item with
    | true => rfl
    | false => cases rest.find? refused <;> rfl

theorem mapM_agree {action action' : α → Except ε β} {items : List α}
    (each : ∀ item ∈ items, action item = action' item) :
    items.mapM action = items.mapM action' := by
  induction items with
  | nil => rfl
  | cons item rest ih =>
    rw [List.mapM_cons, List.mapM_cons, each item List.mem_cons_self,
      ih fun other member => each other (List.mem_cons_of_mem _ member)]

namespace Table

theorem get?_cons (table : Table α) (name other : String) (value : α) :
    get? ((other, value) :: table) name = if name = other then some value else table.get? name := by
  rw [get?, List.lookup_cons]
  by_cases same : name = other
  · simp [same]
  · rw [beq_false_of_ne same, if_neg same]
    rfl

theorem get?_insert (table : Table α) (name other : String) (value : α) :
    (table.insert name value).get? other = if other = name then some value else table.get? other := by
  induction table with
  | nil => rw [insert, get?_cons]
  | cons entry rest ih =>
    obtain ⟨first, old⟩ := entry
    rw [insert]
    split
    · rw [get?_cons]
    split
    · rename_i same
      subst same
      rw [get?_cons, get?_cons]
      split <;> rfl
    · rename_i apart
      rw [get?_cons, get?_cons, ih]
      by_cases found : other = first
      · have other_ne : other ≠ name := fun same => apart (same ▸ found)
        rw [if_pos found, if_neg other_ne, if_pos found]
      · rw [if_neg found, if_neg found]

theorem get?_foldl_insert {names : List String} (distinct : names.Nodup) {values : List α}
    (sized : values.length = names.length) (table : Table α) (name : String) :
    ((names.zip values).foldl (fun table entry => insert entry.1 entry.2 table) table).get? name =
      if name ∈ names then values[names.idxOf name]? else table.get? name := by
  induction names generalizing values table with
  | nil => rfl
  | cons first rest ih =>
    obtain ⟨value, others, rfl⟩ := List.exists_cons_of_length_eq_add_one sized
    obtain ⟨new, distinct⟩ := List.nodup_cons.mp distinct
    rw [List.zip_cons_cons, List.foldl_cons, ih distinct (Nat.succ.inj sized), get?_insert]
    by_cases same : name = first
    · subst same
      simp [new]
    · have other : (first == name) = false := beq_false_of_ne (Ne.symm same)
      simp [same, List.idxOf_cons, other]

theorem get?_ofList_zip {names : List String} (distinct : names.Nodup) {values : List α}
    (sized : values.length = names.length) {name : String} (listed : name ∈ names) :
    (ofList (names.zip values)).get? name = values[names.idxOf name]? := by
  rw [ofList, get?_foldl_insert distinct sized, if_pos listed]

end Table

namespace EntryPoint

variable {program : Program} {machine : Machine} {names : List String} {arguments : List Value}

/-- Evaluation with a way to find values by the names of inputs. The first input that is missing
    or has another type decides. -/
def supply (program : Program) (machine : Machine) (values : String → Option Value) :
    Except EvalError Value := do
  let slots ← program.slots.mapM fun slot =>
    (values slot.name).elim (.error (.unboundSlot slot.name)) (check slot)
  machine.evaluate program slots

theorem supply_congr {values values' : String → Option Value}
    (same : ∀ slot ∈ program.slots, values slot.name = values' slot.name) :
    supply program machine values = supply program machine values' := by
  rw [supply, supply, mapM_agree fun slot member => by rw [same slot member]]

theorem invokeNamed_eq_supply (entry : EntryPoint) (inputs : Table Value) :
    entry.invokeNamed inputs = supply entry.program entry.machine inputs.get? := by
  unfold invokeNamed supply
  congr 1
  refine mapM_agree fun slot _ => ?_
  cases inputs.get? slot.name <;> rfl

/-- The entry point of a program whose inputs are all named. -/
def ofNames (program : Program) (names : List String) (machine : Machine) : EntryPoint where
  program := program
  names := names
  positions := program.slots.map fun slot => names.idxOf slot.name
  machine := machine

theorem bind_eq (program : Program) (names : List String) (machine : Machine) :
    bind program names machine =
      (program.slots.find? fun slot => !names.contains slot.name).elim
        (.ok (ofNames program names machine)) fun slot => .error (.unboundSlot slot.name) := by
  rw [bind, @mapM_first _ _ _ _ (fun slot => !names.contains slot.name)
    (fun slot => names.idxOf slot.name) (fun slot => .unboundSlot slot.name)]
  · cases program.slots.find? fun slot => !names.contains slot.name <;> rfl
  · intro slot
    by_cases listed : slot.name ∈ names
    · have found : names.findIdx? (· == slot.name) = some (names.idxOf slot.name) :=
        List.findIdx?_eq_some_of_exists ⟨_, listed, beq_self_eq_true _⟩
      simp [found, listed]
    · have absent : names.findIdx? (· == slot.name) = none := by
        rw [List.findIdx?_eq_none_iff]
        exact fun other member => beq_false_of_ne fun same => listed (same ▸ member)
      simp [absent, listed]

theorem invoke_eq_supply (sized : arguments.length = names.length) :
    (ofNames program names machine).invoke arguments =
      supply program machine fun name => arguments[names.idxOf name]? := by
  have paired : program.slots.zip (program.slots.map fun slot => names.idxOf slot.name) =
      program.slots.map fun slot => (slot, names.idxOf slot.name) := by
    simpa using List.zip_map' (f := id) (g := fun slot : Slot => names.idxOf slot.name)
      (l := program.slots)
  unfold invoke supply ofNames
  dsimp only
  rw [if_neg (fun other => other sized), paired, List.mapM_map]
  congr 1
  refine mapM_agree fun slot _ => ?_
  dsimp only [Function.comp]
  cases arguments[names.idxOf slot.name]? <;> rfl

theorem bind_of_named (machine : Machine) (named : ∀ slot ∈ program.slots, slot.name ∈ names) :
    bind program names machine = .ok (ofNames program names machine) := by
  have complete : (program.slots.find? fun slot => !names.contains slot.name) = none := by
    simpa using named
  rw [bind_eq, complete]
  rfl

theorem bind_of_unnamed (machine : Machine)
    (unnamed : ¬ ∀ slot ∈ program.slots, slot.name ∈ names) :
    ∃ before slot after, program.slots = before ++ slot :: after ∧
      (∀ earlier ∈ before, earlier.name ∈ names) ∧ slot.name ∉ names ∧
      bind program names machine = .error (.unboundSlot slot.name) := by
  cases missing : program.slots.find? fun slot => !names.contains slot.name with
  | none => exact absurd (by simpa using missing) unnamed
  | some slot =>
    obtain ⟨absent, before, after, split, earlier⟩ := List.find?_eq_some_iff_append.mp missing
    refine ⟨before, slot, after, split, by simpa using earlier, by simpa using absent, ?_⟩
    rw [bind_eq, missing]
    rfl

theorem bind_eq_ok_iff {entry : EntryPoint} :
    bind program names machine = .ok entry ↔
      (∀ slot ∈ program.slots, slot.name ∈ names) ∧ entry = ofNames program names machine := by
  constructor
  · intro bound
    by_cases named : ∀ slot ∈ program.slots, slot.name ∈ names
    · rw [bind_of_named machine named] at bound
      cases bound
      exact ⟨named, rfl⟩
    · obtain ⟨_, _, _, _, _, _, failed⟩ := bind_of_unnamed machine named
      rw [failed] at bound
      cases bound
  · rintro ⟨named, rfl⟩
    exact bind_of_named machine named

/-- Arguments by their places are read as the table from names to arguments is. -/
theorem invoke_eq_invokeNamed (machine : Machine) (distinct : names.Nodup)
    (named : ∀ slot ∈ program.slots, slot.name ∈ names)
    (sized : arguments.length = names.length) :
    (ofNames program names machine).invoke arguments =
      (ofNames program names machine).invokeNamed (.ofList (names.zip arguments)) := by
  rw [invoke_eq_supply sized, invokeNamed_eq_supply]
  exact supply_congr fun slot member =>
    (Table.get?_ofList_zip distinct sized (named slot member)).symm

theorem invoke_agree (machine : Machine) {names' : List String} {arguments' : List Value}
    (named : ∀ slot ∈ program.slots, slot.name ∈ names)
    (named' : ∀ slot ∈ program.slots, slot.name ∈ names')
    (sized : arguments.length = names.length) (sized' : arguments'.length = names'.length)
    (same : ∀ slot ∈ program.slots, ∀ place place' : Nat, names[place]? = some slot.name →
      names'[place']? = some slot.name → arguments[place]? = arguments'[place']?) :
    (ofNames program names machine).invoke arguments =
      (ofNames program names' machine).invoke arguments' := by
  rw [invoke_eq_supply sized, invoke_eq_supply sized']
  refine supply_congr fun slot member => same slot member _ _ ?_ ?_
  · exact List.getElem?_idxOf (named slot member)
  · exact List.getElem?_idxOf (named' slot member)

/-- Binding is independent of the order of the parameters. It fails exactly where an input is not
    named, for the first such input. Arguments by their places mean the same as the table from names
    to arguments, down to the error that is reported. Two ways to name the parameters, with the same
    argument for each input, have the same outcome, whatever else they name. -/
theorem bind_orderless (program : Program) (machine : Machine) {names : List String}
    (distinct : names.Nodup) :
    ((∃ entry, bind program names machine = .ok entry) ↔
      ∀ slot ∈ program.slots, slot.name ∈ names) ∧
    ((¬ ∀ slot ∈ program.slots, slot.name ∈ names) →
      ∃ before slot after, program.slots = before ++ slot :: after ∧
        (∀ earlier ∈ before, earlier.name ∈ names) ∧ slot.name ∉ names ∧
        bind program names machine = .error (.unboundSlot slot.name)) ∧
    ∀ entry, bind program names machine = .ok entry →
      ∀ arguments : List Value, arguments.length = names.length →
        entry.invoke arguments = entry.invokeNamed (.ofList (names.zip arguments)) ∧
        ∀ (names' : List String) (entry' : EntryPoint) (arguments' : List Value), names'.Nodup →
          bind program names' machine = .ok entry' → arguments'.length = names'.length →
          (∀ slot ∈ program.slots, ∀ place place' : Nat, names[place]? = some slot.name →
            names'[place']? = some slot.name → arguments[place]? = arguments'[place']?) →
          entry.invoke arguments = entry'.invoke arguments' ∧
          entry.invokeNamed (.ofList (names.zip arguments)) =
            entry'.invokeNamed (.ofList (names'.zip arguments')) := by
  refine ⟨by simp [bind_eq_ok_iff], bind_of_unnamed machine, ?_⟩
  intro entry bound arguments sized
  obtain ⟨named, rfl⟩ := bind_eq_ok_iff.mp bound
  have byName := invoke_eq_invokeNamed machine distinct named sized
  refine ⟨byName, ?_⟩
  intro names' entry' arguments' distinct' bound' sized' same
  obtain ⟨named', rfl⟩ := bind_eq_ok_iff.mp bound'
  have agree := invoke_agree machine named named' sized sized' same
  have byName' := invoke_eq_invokeNamed machine distinct' named' sized'
  exact ⟨agree, byName.symm.trans (agree.trans byName')⟩

end EntryPoint

theorem place_unique {names : List String} (distinct : names.Nodup) {name : String} (known : Nat)
    (found : names[known]? = some name) {place : Nat} (again : names[place]? = some name) :
    place = known := by
  have inside := (List.getElem?_eq_some_iff.mp again).1
  exact (List.getElem?_inj inside distinct).mp (again.trans found.symm)

/-- `a - b` over decimals. -/
def difference : Program where
  root := .arith .sub .decimal (.slot 0 .decimal) (.slot 1 .decimal)
  slots := [⟨"a", .decimal⟩, ⟨"b", .decimal⟩]

/-- Ten less one is nine with the parameters in either order and with one that is not read. A text in
    place of the subtrahend is refused alike, and without a name for it there is no entry point. -/
theorem difference_orderless :
    ∃ entry entry', EntryPoint.bind difference ["b", "unused", "a"] {} = .ok entry ∧
      EntryPoint.bind difference ["a", "b"] {} = .ok entry' ∧
      entry'.invoke [.decimal ⟨10, 0⟩, .decimal .one] = .ok (.decimal ⟨9, 0⟩) ∧
      entry.invoke [.decimal .one, .bool true, .decimal ⟨10, 0⟩] = .ok (.decimal ⟨9, 0⟩) ∧
      entry'.invoke [.decimal .one, .text "one"] = .error (.inputType "b" .decimal .text) ∧
      entry.invokeNamed (.ofList
        (["b", "unused", "a"].zip [.text "one", .bool true, .decimal .one])) =
          .error (.inputType "b" .decimal .text) ∧
      EntryPoint.bind difference ["a"] {} = .error (.unboundSlot "b") := by
  have bound : EntryPoint.bind difference ["b", "unused", "a"] {} =
      .ok (.ofNames difference ["b", "unused", "a"] {}) := rfl
  have bound' : EntryPoint.bind difference ["a", "b"] {} = .ok (.ofNames difference ["a", "b"] {}) :=
    rfl
  have places (a b c : Value) : ∀ slot ∈ difference.slots, ∀ place place' : Nat,
      ["b", "unused", "a"][place]? = some slot.name → ["a", "b"][place']? = some slot.name →
      [b, c, a][place]? = [a, b][place']? := by
    intro slot member place place' listed listed'
    rcases List.mem_pair.mp member with rfl | rfl
    · rw [place_unique (by decide) 2 rfl listed, place_unique (by decide) 0 rfl listed']
      rfl
    · rw [place_unique (by decide) 0 rfl listed, place_unique (by decide) 1 rfl listed']
      rfl
  obtain ⟨-, -, calls⟩ := EntryPoint.bind_orderless difference {}
    (by decide : ["b", "unused", "a"].Nodup)
  obtain ⟨-, orders⟩ := calls _ bound [.decimal .one, .bool true, .decimal ⟨10, 0⟩] rfl
  obtain ⟨byName, -⟩ := calls _ bound [.text "one", .bool true, .decimal .one] rfl
  refine ⟨_, _, bound, bound', rfl, ?_, rfl, ?_, rfl⟩
  · exact (orders _ _ [.decimal ⟨10, 0⟩, .decimal .one] (by decide) bound' rfl (places _ _ _)).1.trans
      rfl
  · exact byName.symm.trans rfl

end Formulary
