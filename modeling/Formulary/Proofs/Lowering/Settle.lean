import Formulary.Proofs.Lowering.Effect

namespace Formulary

/-! Two ways of lowering that cannot be told apart. The bound on nested function bodies is reached
    in one of them and not in the other, unless it is never reached: so lowering is compared with
    itself at different bounds, and the comparison follows the actions step by step. -/

/-- Functions are numbered without gaps, and each returns one of the types. -/
structure LowerState.Sound (types : List Ty) (state : LowerState) : Prop where
  numbered : state.functions.Numbered
  returns : ∀ entry ∈ state.functions.memo, entry.2.2 ∈ types

theorem LowerState.Sound.initial (types : List Ty) : LowerState.Sound types {} where
  numbered := rfl
  returns := fun _ member => nomatch member

theorem LowerState.Sound.reserve {types : List Ty} {state : LowerState} (sound : state.Sound types)
    (signature : Signature) {type : Ty} (known : type ∈ types) :
    (state.withFunctions (state.functions.reserve signature type)).Sound types where
  numbered := sound.numbered.reserve signature type
  returns := by
    intro entry member
    rcases List.mem_cons.mp member with same | member
    · rw [same]
      exact known
    · exact sound.returns entry member

theorem CompileError.cause_locate (error : CompileError) (expr : Expr) (span : Option Span) :
    (error.locate expr span).cause = error.cause := by
  cases error <;> rfl

namespace LowerM

variable {types : List Ty} {state : LowerState} {α β γ : Type}

/-- From a sound state two actions have the same outcome and leave the same state, which is sound.
    A result has a property, and a failure is not that of a bound. -/
def Settles (types : List Ty) (state : LowerState) (left right : LowerM α) (result : α → Prop) :
    Prop :=
  state.Sound types → ∃ outcome after, left state = (outcome, after) ∧
    right state = (outcome, after) ∧ state.Extends after ∧ after.Sound types ∧
      match outcome with
      | .ok value => result value
      | .error error => error.cause ≠ .unfinished

namespace Settles

theorem pure {result : α → Prop} {value : α} (holds : result value) :
    Settles types state (Pure.pure value) (Pure.pure value) result :=
  fun sound => ⟨.ok value, state, rfl, rfl, .refl state, sound, holds⟩

theorem throw {result : α → Prop} {error : CompileError} (finished : error.cause ≠ .unfinished) :
    Settles types state (MonadExcept.throw error) (MonadExcept.throw error) result :=
  fun sound => ⟨.error error, state, rfl, rfl, .refl state, sound, finished⟩

theorem get_bind {next other : LowerState → LowerM β} {result : β → Prop}
    (continued : state.Sound types → Settles types state (next state) (other state) result) :
    Settles types state ((MonadState.get : LowerM LowerState) >>= next)
      ((MonadState.get : LowerM LowerState) >>= other) result := by
  intro sound
  rw [bind_apply, bind_apply, get_apply]
  exact continued sound sound

theorem lift {result : α → Prop} {value : Except CompileError α}
    (holds : ∀ a, value = .ok a → result a)
    (finished : ∀ error, value = .error error → error.cause ≠ .unfinished) :
    Settles types state (liftM value : LowerM α) (liftM value) result := by
  intro sound
  refine ⟨value, state, rfl, rfl, .refl state, sound, ?_⟩
  cases value with
  | ok a => exact holds a rfl
  | error error => exact finished error rfl

theorem left {left right : LowerM α} {result : α → Prop}
    (settled : Settles types state left right result) : Settles types state left left result := by
  intro sound
  obtain ⟨outcome, after, leftRun, -, kept⟩ := settled sound
  exact ⟨outcome, after, leftRun, leftRun, kept⟩

theorem bind {left right : LowerM α} {next other : α → LowerM β} {result : α → Prop}
    {last : β → Prop} (first : Settles types state left right result)
    (continued : ∀ later, state.Extends later → ∀ value, result value →
      Settles types later (next value) (other value) last) :
    Settles types state (left >>= next) (right >>= other) last := by
  intro sound
  obtain ⟨outcome, middle, leftRun, rightRun, extends_, middleSound, ended⟩ := first sound
  rw [bind_apply, bind_apply, leftRun, rightRun]
  cases outcome with
  | error error => exact ⟨_, middle, rfl, rfl, extends_, middleSound, ended⟩
  | ok value =>
    obtain ⟨outcome, after, leftRun, rightRun, more, afterSound, ended⟩ :=
      continued middle extends_ value ended middleSound
    exact ⟨outcome, after, leftRun, rightRun, extends_.trans more, afterSound, ended⟩

theorem throw_bind {next other : α → LowerM β} {result : β → Prop} {error : CompileError}
    (finished : error.cause ≠ .unfinished) :
    Settles types state ((MonadExcept.throw error : LowerM α) >>= next)
      ((MonadExcept.throw error : LowerM α) >>= other) result := by
  have nothing : Settles types state (MonadExcept.throw error : LowerM α)
      (MonadExcept.throw error) fun _ => False := .throw finished
  exact .bind nothing fun _ _ _ impossible => impossible.elim

theorem locating {left right : LowerM α} {result : α → Prop} (expr : Expr) (span : Option Span)
    (settled : Settles types state left right result) :
    Settles types state (LowerM.locating expr span left) (LowerM.locating expr span right)
      result := by
  intro sound
  obtain ⟨outcome, after, leftRun, rightRun, extends_, afterSound, ended⟩ := settled sound
  rw [locating_apply, locating_apply, leftRun, rightRun]
  refine ⟨_, after, rfl, rfl, extends_, afterSound, ?_⟩
  cases outcome with
  | ok value => exact ended
  | error error =>
    have kept : (error.locate expr span).cause ≠ .unfinished := by
      rw [error.cause_locate]
      exact ended
    exact kept

theorem attempt {left right : LowerM α} {result : α → Prop}
    (settled : Settles types state left right result) :
    Settles types state (LowerM.attempt left) (LowerM.attempt right) fun outcome =>
      match outcome with
      | .ok value => result value
      | .error error => error.cause ≠ .unfinished := by
  intro sound
  obtain ⟨outcome, after, leftRun, rightRun, extends_, afterSound, ended⟩ := settled sound
  refine ⟨.ok outcome, after, ?_, ?_, extends_, afterSound, ended⟩
  · rw [LowerM.attempt, leftRun]
  · rw [LowerM.attempt, rightRun]

theorem mapM {items : List α} {others : List β} {action : α → LowerM γ} {action' : β → LowerM γ}
    (result : γ → Prop)
    (related : List.Forall₂ (fun item other => ∀ later, state.Extends later →
      Settles types later (action item) (action' other) result) items others) :
    Settles types state (items.mapM action) (others.mapM action') fun values =>
      values.length = items.length ∧ ∀ value ∈ values, result value := by
  have general : ∀ later, state.Extends later →
      Settles types later (items.mapM action) (others.mapM action') fun values =>
        values.length = items.length ∧ ∀ value ∈ values, result value := by
    induction related with
    | nil => exact fun _ _ => .pure ⟨rfl, fun _ member => nomatch member⟩
    | cons first _ ih =>
      intro later order
      rw [List.mapM_cons, List.mapM_cons]
      refine .bind (first later order) fun next more value holds => ?_
      refine .bind (ih next (order.trans more)) fun _ _ values rest => ?_
      refine .pure ⟨by rw [List.length_cons, List.length_cons, rest.1], ?_⟩
      intro other member
      rcases List.mem_cons.mp member with same | member
      · exact same ▸ holds
      · exact rest.2 other member
  exact general state (.refl state)

/-- A function is compiled alike when its body is, from the state in which it is reserved. -/
theorem compileFunction {signature : Signature} {name : String} {type : Ty}
    {left right : LowerM Node} {result : Node → Prop} (known : type ∈ types)
    (body : Settles types (state.withFunctions (state.functions.reserve signature type)) left right
      result) :
    Settles types state (LowerM.compileFunction signature name type left)
      (LowerM.compileFunction signature name type right) fun _ => True := by
  intro sound
  obtain ⟨outcome, after, leftRun, rightRun, extends_, afterSound, ended⟩ :=
    body (sound.reserve signature known)
  rw [compileFunction_apply, compileFunction_apply, leftRun, rightRun]
  cases outcome with
  | error error =>
    -- What the body added is dropped, so the memo is what it was before.
    dsimp only
    rw [extends_.rollback_eq sound.numbered afterSound.numbered]
    exact ⟨_, _, rfl, rfl, extends_.dropped, ⟨sound.numbered, sound.returns⟩, ended⟩
  | ok node =>
    exact ⟨_, _, rfl, rfl, extends_.stored _,
      ⟨afterSound.numbered.store _ _, afterSound.returns⟩, trivial⟩

end Settles

end LowerM

end Formulary
