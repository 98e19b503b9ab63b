import Mathlib.Data.List.Forall2
import Mathlib.Order.Defs.PartialOrder
import Formulary.Lowering.Operand
import Formulary.Proofs.Lowering.Table

namespace Formulary

/-! What lowering does to the things it collects. An action may add inputs and finished
    functions. Functions whose bodies are still being lowered stay as they are, and a failure
    that is handled takes nothing away.

    Proofs about lowering speak of worlds: a world says what is known about a state, and later
    worlds know more. -/

abbrev LowerState.withFunctions (state : LowerState) (functions : FunctionTable) : LowerState :=
  { state with functions }

/-- Everything in `before` is in `after`, and the functions that were added have bodies. -/
structure LowerState.Extends (before after : LowerState) : Prop where
  slots : before.slots <+: after.slots
  bodies : ∃ added : List Function,
    after.functions.bodies = before.functions.bodies ++ added.map some
  memo : before.functions.memo <:+ after.functions.memo
  definitions : before.functions.nextDefinition ≤ after.functions.nextDefinition

theorem LowerState.Extends.refl (state : LowerState) : state.Extends state where
  slots := List.prefix_refl _
  bodies := ⟨[], by simp⟩
  memo := List.suffix_refl _
  definitions := Nat.le_refl _

theorem LowerState.Extends.trans {first second third : LowerState}
    (left : first.Extends second) (right : second.Extends third) : first.Extends third := by
  obtain ⟨added, leftBodies⟩ := left.bodies
  obtain ⟨more, rightBodies⟩ := right.bodies
  refine ⟨left.slots.trans right.slots, ⟨added ++ more, ?_⟩, left.memo.trans right.memo,
    Nat.le_trans left.definitions right.definitions⟩
  rw [rightBodies, leftBodies, List.map_append, List.append_assoc]

namespace LowerState.Extends

theorem input (state : LowerState) (slot : Slot) :
    state.Extends { state with slots := state.slots ++ [slot] } :=
  ⟨List.prefix_append _ _, ⟨[], by simp⟩, List.suffix_refl _, Nat.le_refl _⟩

theorem definition (state : LowerState) :
    state.Extends (state.withFunctions
      { state.functions with nextDefinition := state.functions.nextDefinition + 1 }) :=
  ⟨List.prefix_refl _, ⟨[], by simp⟩, List.suffix_refl _, Nat.le_succ _⟩

variable {state after : LowerState} {signature : Signature} {type : Ty}

theorem bodies_of_reserve
    (inside : (state.withFunctions (state.functions.reserve signature type)).Extends after) :
    ∃ added : List Function,
      after.functions.bodies = state.functions.bodies ++ none :: added.map some := by
  obtain ⟨added, bodies⟩ := inside.bodies
  exact ⟨added, by simpa [FunctionTable.reserve] using bodies⟩

theorem memo_of_reserve
    (inside : (state.withFunctions (state.functions.reserve signature type)).Extends after) :
    state.functions.memo <:+ after.functions.memo :=
  (List.suffix_cons _ _).trans inside.memo

theorem rollback_eq
    (inside : (state.withFunctions (state.functions.reserve signature type)).Extends after)
    (numbered : state.functions.Numbered) (afterNumbered : after.functions.Numbered) :
    after.functions.rollback state.functions.bodies.length =
      { state.functions with nextDefinition := after.functions.nextDefinition } := by
  obtain ⟨added, grown⟩ := inside.bodies_of_reserve
  exact FunctionTable.rollback_eq numbered afterNumbered ⟨_, grown.symm⟩ inside.memo_of_reserve

theorem dropped
    (inside : (state.withFunctions (state.functions.reserve signature type)).Extends after) :
    state.Extends (after.withFunctions
      { state.functions with nextDefinition := after.functions.nextDefinition }) :=
  ⟨inside.slots, ⟨[], by simp⟩, List.suffix_refl _, inside.definitions⟩

theorem stored
    (inside : (state.withFunctions (state.functions.reserve signature type)).Extends after)
    (function : Function) :
    state.Extends (after.withFunctions
      (after.functions.store state.functions.bodies.length function)) := by
  obtain ⟨added, grown⟩ := inside.bodies_of_reserve
  refine ⟨inside.slots, ⟨function :: added, ?_⟩, inside.memo_of_reserve, inside.definitions⟩
  simp [FunctionTable.store, grown]

end LowerState.Extends

theorem exists_of_forall₂ {α β : Type} {related : α → β → Prop} {items : List α}
    {values : List β} (all : List.Forall₂ related items values) {value : β}
    (member : value ∈ values) : ∃ item ∈ items, related item value := by
  induction all with
  | nil => cases member
  | cons holds _ ih =>
    rcases List.mem_cons.mp member with same | member
    · subst same
      exact ⟨_, by simp, holds⟩
    · obtain ⟨item, itemMember, holds⟩ := ih member
      exact ⟨item, by simp [itemMember], holds⟩

theorem getElem?_of_initial {α : Type} {short long : List α} {index : Nat} {item : α}
    (start : short <+: long) (found : short[index]? = some item) : long[index]? = some item := by
  obtain ⟨bound, equal⟩ := List.getElem?_eq_some_iff.mp found
  rw [List.prefix_iff_getElem?.mp start index bound, equal]

namespace LowerM

variable {W : Type} [Preorder W] {describes : W → LowerState → Prop} {world : W}
variable {α β : Type} {failure : Prop}

/-- Started in a state of the world, an action leaves a state of a later one. Its result has a
    property there, and it fails only under a condition. -/
def Keeps (describes : W → LowerState → Prop) (world : W) (action : LowerM α)
    (result : W → α → Prop) (failure : Prop) : Prop :=
  ∀ ⦃before outcome after⦄, describes world before → action before = (outcome, after) →
    before.Extends after ∧ ∃ later, world ≤ later ∧ describes later after ∧
      match outcome with
      | .ok value => result later value
      | .error _ => failure

theorem bind_apply (action : LowerM α) (next : α → LowerM β) (state : LowerState) :
    (action >>= next) state =
      match action state with
      | (.ok value, after) => next value after
      | (.error error, after) => (.error error, after) := by
  change ExceptT.bindCont next (action state).1 (action state).2 = _
  rcases action state with ⟨_ | _, _⟩ <;> rfl

theorem locating_apply (expr : Expr) (span : Option Span) (action : LowerM α)
    (state : LowerState) :
    locating expr span action state =
      ((action state).1.mapError fun error => error.locate expr span, (action state).2) := by
  rfl

theorem get_apply (state : LowerState) : (get : LowerM LowerState) state = (.ok state, state) :=
  rfl

theorem modifyTable_apply (change : FunctionTable → FunctionTable) (state : LowerState) :
    modifyTable change state = (.ok (), { state with functions := change state.functions }) := rfl

theorem compileFunction_apply (signature : Signature) (name : String) (type : Ty)
    (lowerBody : LowerM Node) (before : LowerState) :
    compileFunction signature name type lowerBody before =
      match lowerBody (before.withFunctions (before.functions.reserve signature type)) with
      | (.ok body, after) => (.ok before.functions.bodies.length,
          after.withFunctions (after.functions.store before.functions.bodies.length
            ⟨name, signature.types, type, body⟩))
      | (.error error, after) => (.error error,
          after.withFunctions (after.functions.rollback before.functions.bodies.length)) := by
  simp only [compileFunction, bind_apply, get_apply, modifyTable_apply, attempt]
  cases lowerBody (before.withFunctions (before.functions.reserve signature type)) with
  | mk outcome after => cases outcome <;> rfl

namespace Keeps

theorem pure {result : W → α → Prop} {value : α} (holds : result world value) :
    Keeps describes world (Pure.pure value : LowerM α) result failure := by
  intro before outcome after described run
  cases run
  exact ⟨.refl _, world, le_refl _, described, holds⟩

theorem throw {result : W → α → Prop} {error : CompileError} (failed : failure) :
    Keeps describes world (MonadExcept.throw error : LowerM α) result failure := by
  intro before outcome after described run
  cases run
  exact ⟨.refl _, world, le_refl _, described, failed⟩

theorem get : Keeps describes world (MonadState.get : LowerM LowerState) describes failure := by
  intro before outcome after described run
  cases run
  exact ⟨.refl _, world, le_refl _, described, described⟩

theorem lift {result : W → α → Prop} {value : Except CompileError α}
    (holds : ∀ a, value = .ok a → result world a)
    (fails : ∀ error, value = .error error → failure) :
    Keeps describes world (liftM value : LowerM α) result failure := by
  intro before outcome after described run
  cases run
  refine ⟨.refl _, world, le_refl _, described, ?_⟩
  cases value with
  | ok a => exact holds a rfl
  | error error => exact fails error rfl

theorem weaken {action : LowerM α} {result result' : W → α → Prop} {failure' : Prop}
    (kept : Keeps describes world action result failure)
    (weaker : ∀ later, world ≤ later → ∀ a, result later a → result' later a)
    (fails : failure → failure') : Keeps describes world action result' failure' := by
  intro before outcome after described run
  obtain ⟨extends_, later, order, laterDescribed, settled⟩ := kept described run
  refine ⟨extends_, later, order, laterDescribed, ?_⟩
  cases outcome with
  | ok a => exact weaker later order a settled
  | error error => exact fails settled

theorem bind {action : LowerM α} {next : α → LowerM β} {result : W → α → Prop}
    {result' : W → β → Prop} (kept : Keeps describes world action result failure)
    (continued : ∀ later, world ≤ later → ∀ a, result later a →
      Keeps describes later (next a) result' failure) :
    Keeps describes world (action >>= next) result' failure := by
  intro before outcome after described run
  rw [bind_apply] at run
  cases first : action before with
  | mk middle state =>
    obtain ⟨extends_, later, order, laterDescribed, settled⟩ := kept described first
    rw [first] at run
    cases middle with
    | error error =>
      cases run
      exact ⟨extends_, later, order, laterDescribed, settled⟩
    | ok a =>
      obtain ⟨more, last, lastOrder, lastDescribed, ended⟩ :=
        continued later order a settled laterDescribed run
      exact ⟨extends_.trans more, last, le_trans order lastOrder, lastDescribed, ended⟩

theorem throw_bind {next : α → LowerM β} {result : W → β → Prop} {error : CompileError}
    (failed : failure) :
    Keeps describes world ((MonadExcept.throw error : LowerM α) >>= next) result failure := by
  have nothing : Keeps describes world (MonadExcept.throw error : LowerM α)
      (fun _ _ => False) failure := .throw failed
  exact .bind nothing fun _ _ _ impossible => impossible.elim

theorem locating {action : LowerM α} {result : W → α → Prop} {expr : Expr} {span : Option Span}
    (kept : Keeps describes world action result failure) :
    Keeps describes world (LowerM.locating expr span action) result failure := by
  intro before outcome after described run
  rw [locating_apply] at run
  cases first : action before with
  | mk middle state =>
    obtain ⟨extends_, later, order, laterDescribed, settled⟩ := kept described first
    rw [first] at run
    cases middle with
    | error error => cases run; exact ⟨extends_, later, order, laterDescribed, settled⟩
    | ok a => cases run; exact ⟨extends_, later, order, laterDescribed, settled⟩

theorem attempt {action : LowerM α} {result : W → α → Prop} {failure' : Prop}
    (kept : Keeps describes world action result failure) :
    Keeps describes world (LowerM.attempt action)
      (fun later outcome => match outcome with
        | .ok a => result later a
        | .error _ => failure) failure' := by
  intro before outcome after described run
  cases first : action before with
  | mk middle state =>
    have same : LowerM.attempt action before = (.ok middle, state) := by
      simp only [LowerM.attempt, first]
    rw [same] at run
    cases run
    exact kept described first

theorem slotIndex {name : String} {type : Ty} {result : W → Nat → Prop}
    (known : ∀ {state index slot}, describes world state → state.slots[index]? = some slot →
      slot.name = name → result world index)
    (added : ∀ {state}, describes world state → (∀ slot ∈ state.slots, slot.name ≠ name) →
      ∃ later, world ≤ later ∧ describes later
        { state with slots := state.slots ++ [⟨name, type⟩] } ∧ result later state.slots.length) :
    Keeps describes world (LowerM.slotIndex name type) result failure := by
  intro before outcome after described run
  simp only [LowerM.slotIndex, bind_apply, get_apply] at run
  cases found : before.slots.findIdx? (fun slot => slot.name == name) with
  | some index =>
    rw [found] at run
    cases run
    obtain ⟨bound, named, -⟩ := List.findIdx?_eq_some_iff_getElem.mp found
    exact ⟨.refl _, world, le_refl _, described,
      known described (List.getElem?_eq_getElem bound) (by simpa using named)⟩
  | none =>
    rw [found] at run
    cases run
    obtain ⟨later, order, laterDescribed, holds⟩ := added described
      (by simpa using List.findIdx?_eq_none_iff.mp found)
    exact ⟨.input before _, later, order, laterDescribed, holds⟩

theorem freshDefinition {result : W → Nat → Prop}
    (numbered : ∀ {state}, describes world state → ∃ later, world ≤ later ∧
      describes later (state.withFunctions
        { state.functions with nextDefinition := state.functions.nextDefinition + 1 }) ∧
      result later state.functions.nextDefinition) :
    Keeps describes world LowerM.freshDefinition result failure := by
  intro before outcome after described run
  cases run
  obtain ⟨later, order, laterDescribed, holds⟩ := numbered described
  exact ⟨.definition before, later, order, laterDescribed, holds⟩

/-- A function is compiled from a world in which it is reserved. When its body fails, only what
    was there before is left, with the inputs that were read meanwhile. -/
theorem compileFunction {signature : Signature} {name : String} {type : Ty}
    {lowerBody : LowerM Node} {result : W → Nat → Prop} (bodyResult : W → Node → Prop)
    (numbered : ∀ {world state}, describes world state → state.functions.Numbered)
    (reserve : ∀ {before : LowerState}, describes world before → ∃ reserved, world ≤ reserved ∧
      describes reserved (before.withFunctions (before.functions.reserve signature type)) ∧
      Keeps describes reserved lowerBody bodyResult failure ∧
      (∀ {later after body}, reserved ≤ later → describes later after → bodyResult later body →
        before.functions.bodies.length < after.functions.bodies.length →
        ∃ last, later ≤ last ∧ result last before.functions.bodies.length ∧
          describes last (after.withFunctions
            (after.functions.store before.functions.bodies.length
              ⟨name, signature.types, type, body⟩))) ∧
      ∀ {later after}, reserved ≤ later → describes later after → ∃ last, world ≤ last ∧
        describes last (after.withFunctions
          { before.functions with nextDefinition := after.functions.nextDefinition })) :
    Keeps describes world (LowerM.compileFunction signature name type lowerBody) result
      failure := by
  intro before outcome final described run
  obtain ⟨reserved, order, reservedDescribed, kept, stored, restored⟩ := reserve described
  rw [compileFunction_apply] at run
  cases lowered : lowerBody
      (before.withFunctions (before.functions.reserve signature type)) with
  | mk middle after =>
    obtain ⟨extends_, later, laterOrder, laterDescribed, settled⟩ :=
      kept reservedDescribed lowered
    rw [lowered] at run
    cases middle with
    | error error =>
      cases run
      rw [extends_.rollback_eq (numbered described) (numbered laterDescribed)]
      obtain ⟨last, lastOrder, lastDescribed⟩ := restored laterOrder laterDescribed
      exact ⟨extends_.dropped, last, lastOrder, lastDescribed, settled⟩
    | ok body =>
      cases run
      obtain ⟨added, grown⟩ := extends_.bodies_of_reserve
      obtain ⟨last, lastOrder, holds, lastDescribed⟩ :=
        stored laterOrder laterDescribed settled (by simp [grown])
      exact ⟨extends_.stored _, last, le_trans order (le_trans laterOrder lastOrder),
        lastDescribed, holds⟩

/-- Actions on the items of a list, one after the other. What holds of a result stays true in
    later worlds. -/
theorem mapM {items : List α} {action : α → LowerM β} (result : W → α → β → Prop)
    (stable : ∀ {earlier later : W} {item : α} {value : β}, earlier ≤ later →
      result earlier item value → result later item value)
    (kept : ∀ item ∈ items, ∀ later, world ≤ later →
      Keeps describes later (action item) (fun last => result last item) failure) :
    Keeps describes world (items.mapM action)
      (fun later values => List.Forall₂ (result later) items values) failure := by
  induction items generalizing world with
  | nil => exact .pure .nil
  | cons item rest ih =>
    rw [List.mapM_cons]
    refine .bind (kept item (by simp) world (le_refl _)) ?_
    intro later order value holds
    refine .bind (ih fun other member last lastOrder =>
      kept other (by simp [member]) last (le_trans order lastOrder)) ?_
    intro last lastOrder values rest
    exact .pure (.cons (stable lastOrder holds) rest)

theorem mapM_all {items : List α} {action : α → LowerM β} (result : W → β → Prop)
    (stable : ∀ {earlier later : W} {value : β}, earlier ≤ later →
      result earlier value → result later value)
    (kept : ∀ item ∈ items, ∀ later, world ≤ later →
      Keeps describes later (action item) result failure) :
    Keeps describes world (items.mapM action)
      (fun later values => values.length = items.length ∧ ∀ value ∈ values, result later value)
      failure := by
  refine (mapM (fun later _ => result later) stable kept).weaken ?_ id
  intro later order values related
  refine ⟨related.length_eq.symm, fun value member => ?_⟩
  obtain ⟨_, _, holds⟩ := exists_of_forall₂ related member
  exact holds

end Keeps

end LowerM

end Formulary
