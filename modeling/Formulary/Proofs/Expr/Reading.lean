import Formulary.Proofs.Expr.Grammar

namespace Formulary.Expr

/-! What a reading does to the tokens in front of it. Spans play no part in this: a reading has
    the same outcome wherever its tokens stand in the source. -/

def Cursor.kinds (cursor : Cursor) : List TokenKind := cursor.rest.map Token.kind

theorem Cursor.next_kind (cursor : Cursor) :
    cursor.next.kind = cursor.kinds.headD .finish := by
  obtain ⟨rest, lastEnd⟩ := cursor
  cases rest <;> rfl

theorem exists_of_headD {given : List TokenKind} {kind : TokenKind}
    (head : kind = given.headD .finish) (other : kind ≠ .finish) :
    ∃ rest, given = kind :: rest := by
  cases given with
  | nil => exact absurd head other
  | cons first rest => exact ⟨rest, by rw [head]; rfl⟩

namespace ParseM

variable {α β : Type} {given : List TokenKind} {failure : Prop}

/-- In front of the given tokens a reading has a result, with the tokens that it leaves, and it
    fails only under a condition. -/
def Runs (reading : ParseM α) (given : List TokenKind) (result : α → List TokenKind → Prop)
    (failure : Prop) : Prop :=
  ∀ ⦃cursor : Cursor⦄ (spans : SpanMap), cursor.kinds = given →
    match (reading cursor spans).1 with
    | .ok (value, after) => result value after.kinds
    | .error _ => failure

theorem bind_apply (reading : ParseM α) (next : α → ParseM β) (cursor : Cursor)
    (spans : SpanMap) :
    (reading >>= next) cursor spans =
      match reading cursor spans with
      | (.ok (value, after), spans) => next value after spans
      | (.error error, spans) => (.error error, spans) := by
  change ExceptT.bindCont (fun result : α × Cursor => next result.1 result.2)
    (reading cursor spans).1 (reading cursor spans).2 = _
  rcases reading cursor spans with ⟨_ | _, _⟩ <;> rfl

namespace Runs

variable {result result' : α → List TokenKind → Prop} {final : β → List TokenKind → Prop}
variable {reading : ParseM α} {follow : α → ParseM β}

theorem pure {value : α} (holds : result value given) :
    Runs (Pure.pure value : ParseM α) given result failure := by
  rintro cursor spans rfl
  exact holds

theorem bind (first : Runs reading given result failure)
    (second : ∀ value rest, result value rest → Runs (follow value) rest final failure) :
    Runs (reading >>= follow) given final failure := by
  intro cursor spans same
  have outcome := first spans same
  rw [bind_apply]
  rcases run : reading cursor spans with ⟨_ | ⟨value, after⟩, spans'⟩
  · simpa [run] using outcome
  · simp only [run] at outcome
    exact second value _ outcome spans' rfl

theorem weaken {failure' : Prop} (runs : Runs reading given result failure)
    (weaker : ∀ value rest, result value rest → result' value rest)
    (fails : failure → failure') : Runs reading given result' failure' := by
  intro cursor spans same
  have outcome := runs spans same
  rcases run : reading cursor spans with ⟨_ | ⟨value, after⟩, spans'⟩ <;>
    simp only [run] at outcome
  · exact fails outcome
  · exact weaker _ _ outcome

theorem throw {error : ParseError} (fails : failure) :
    Runs (MonadExcept.throw error : ParseM α) given result failure :=
  fun _ _ _ => fails

theorem get {follow : Cursor → ParseM β} (second : ∀ cursor : Cursor, cursor.kinds = given →
    Runs (follow cursor) given final failure) :
    Runs (MonadState.get >>= follow) given final failure := by
  rintro cursor spans same
  exact second cursor same spans same

theorem next {follow : Token → ParseM β} (second : ∀ token : Token,
    token.kind = given.headD .finish → Runs (follow token) given final failure) :
    Runs (ParseM.next >>= follow) given final failure := by
  rintro cursor spans rfl
  exact second cursor.next cursor.next_kind spans rfl

theorem start {follow : Nat → ParseM β}
    (second : ∀ start, Runs (follow start) given final failure) :
    Runs (ParseM.start >>= follow) given final failure := by
  rintro cursor spans rfl
  exact second cursor.next.span.start spans rfl

theorem advance {follow : Unit → ParseM β} {kind : TokenKind}
    (second : Runs (follow ()) given final failure) :
    Runs (ParseM.advance >>= follow) (kind :: given) final failure := by
  rintro ⟨_ | ⟨token, tokens⟩, lastEnd⟩ spans same
  · simp [Cursor.kinds] at same
  · exact second spans (List.cons.inj same).2

theorem located {start : Nat} {expr : Expr} {final : Expr → List TokenKind → Prop}
    (holds : final expr given) : Runs (ParseM.located start expr) given final failure := by
  rintro cursor spans rfl
  exact holds

theorem recorded {start : Nat} {expr : Expr} {follow : Expr → ParseM β}
    (second : Runs (follow expr) given final failure) :
    Runs (ParseM.located start expr >>= follow) given final failure := by
  rintro cursor spans rfl
  exact second (spans.record expr ⟨start, cursor.lastEnd⟩) rfl

theorem unexpected {expected : String} (fails : failure) :
    Runs (ParseM.unexpected expected : ParseM α) given result failure :=
  .next fun _ _ => .throw fails

theorem skip {follow : Bool → ParseM β} {sign : Symbol}
    (found : ∀ rest, given = .symbol sign :: rest → Runs (follow true) rest final failure)
    (missing : given.headD .finish ≠ .symbol sign → Runs (follow false) given final failure) :
    Runs (skip? sign >>= follow) given final failure := by
  unfold skip?
  rw [bind_assoc]
  refine .next fun token same => ?_
  by_cases head : given.headD .finish = .symbol sign
  · obtain ⟨rest, rfl⟩ := exists_of_headD head.symm (by simp)
    simp only [Token.isSymbol, same, head, beq_self_eq_true, if_true, bind_assoc, pure_bind]
    exact .advance (found rest rfl)
  · have other : token.isSymbol sign = false := by
      simp only [Token.isSymbol, same]
      split
      · simp_all
      · rfl
    simp only [other, Bool.false_eq_true, if_false, pure_bind]
    exact missing head

theorem expect {follow : Unit → ParseM β} {sign : Symbol} {expected : String}
    (found : ∀ rest, given = .symbol sign :: rest → Runs (follow ()) rest final failure)
    (missing : given.headD .finish ≠ .symbol sign → failure) :
    Runs (ParseM.expect sign expected >>= follow) given final failure := by
  unfold ParseM.expect
  rw [bind_assoc]
  refine .skip (fun rest same => ?_) (fun head => ?_)
  · simpa using found rest same
  · exact .bind (.unexpected (missing head)) fun _ _ (impossible : False) => impossible.elim

/-- An attempt that fails or declines has no result and leaves all tokens. -/
theorem attempt {reading : ParseM (Option α)} {result : Option α → List TokenKind → Prop}
    (tried : Runs reading given (fun value rest =>
      match value with
      | some value => result (some value) rest
      | none => result none given) (result none given)) :
    Runs (ParseM.attempt reading) given result failure := by
  rintro cursor spans rfl
  have outcome := tried spans rfl
  unfold ParseM.attempt
  rcases run : reading cursor spans with ⟨_ | ⟨_ | value, after⟩, spans'⟩ <;>
    simpa [run] using outcome

end Runs

end ParseM

end Formulary.Expr
