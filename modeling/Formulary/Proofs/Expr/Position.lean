import Formulary.Proofs.Expr.Closed
import Formulary.Proofs.Token.Division

namespace Formulary.Expr

/-! Positions of errors. A reading throws an error only at the start of a token in front of it, or
    behind the last token where there is none, so every error points between two characters of the
    source. -/

/-- All ends of tokens that the cursor can get to are among the places. -/
def Cursor.Within (place : Nat → Prop) (cursor : Cursor) : Prop :=
  place cursor.lastEnd ∧ ∀ token ∈ cursor.rest, place token.span.start ∧ place token.span.stop

theorem Cursor.Within.next {place : Nat → Prop} {cursor : Cursor} (within : cursor.Within place) :
    place cursor.next.span.start := by
  obtain ⟨_ | ⟨token, rest⟩, lastEnd⟩ := cursor
  · exact within.1
  · exact (within.2 token List.mem_cons_self).1

namespace ParseM

variable {α β : Type} {place : Nat → Prop}

/-- From a cursor among the places, errors have their positions there, and the cursor stays. -/
def FailsAt (place : Nat → Prop) (reading : ParseM α) : Prop :=
  ∀ ⦃cursor : Cursor⦄ (spans : SpanMap), cursor.Within place →
    Settles (fun result => result.2.Within place)
      (fun error => ∀ position ∈ error.position?, place position) (reading cursor spans).1

namespace FailsAt

theorem bind {reading : ParseM α} {follow : α → ParseM β} (first : FailsAt place reading)
    (second : ∀ value, FailsAt place (follow value)) : FailsAt place (reading >>= follow) := by
  intro cursor spans within
  have outcome := first spans within
  rw [bind_apply]
  rcases run : reading cursor spans with ⟨error | ⟨value, after⟩, spans'⟩ <;> rw [run] at outcome
  · exact outcome
  · exact second value spans' outcome

theorem advance : FailsAt place ParseM.advance := by
  rintro ⟨_ | ⟨token, rest⟩, lastEnd⟩ spans within
  · exact within
  · exact ⟨(within.2 token List.mem_cons_self).2,
      fun other member => within.2 other (List.mem_cons_of_mem _ member)⟩

theorem attempt {reading : ParseM (Option α)} (tried : FailsAt place reading) :
    FailsAt place (ParseM.attempt reading) := by
  intro cursor spans within
  have outcome := tried spans within
  unfold ParseM.attempt
  rcases run : reading cursor spans with ⟨error | ⟨_ | value, after⟩, spans'⟩ <;> rw [run] at outcome
  · exact within
  · exact within
  · exact outcome

theorem closed : Closed place fun {α} (reading : ParseM α) => FailsAt place reading where
  pure _ _ _ within := within
  bind := bind
  get _ _ within := within
  next second cursor spans within := second cursor.next within.next spans within
  advance := advance
  located _ _ _ _ within := within
  throw known _ _ _ := known
  attempt := attempt

end FailsAt

end ParseM

open ParseM

theorem readAll_failsAt (place : Nat → Prop) (depth : Nat) : FailsAt place (readAll depth) := by
  refine (FailsAt.closed.readers depth).1.bind fun expr => FailsAt.closed.next fun token _ => ?_
  split
  · exact FailsAt.closed.pure expr
  · exact FailsAt.closed.unexpected _

theorem ofTokens_points {source : String} {tokens : List Token}
    (covers : Token.Covers source tokens) :
    Settles (fun _ => True) (·.PointsInto source) (ofTokens tokens) := by
  have within : Cursor.Within (IsBoundary source) ⟨tokens, 0⟩ :=
    ⟨String.Pos.Raw.isValid_zero, covers.boundaries⟩
  have outcome := readAll_failsAt _ tokens.length .empty within
  unfold ofTokens
  split
  · trivial
  · next run =>
      rw [run] at outcome
      exact outcome

theorem parse_points (source : String) :
    Settles (fun _ => True) (·.PointsInto source) (parse source) := by
  have parsed : Settles (fun _ => True) (·.PointsInto source) (parseWithSpans source) := by
    refine (Token.scan_settles source).bind fun tokens covers => ?_
    split
    · intro position known
      cases known
    · exact ofTokens_points covers
  exact parsed.bind fun _ _ => trivial

/-- Nothing of a source is lost when it is divided into tokens. The last token marks its end; the
    others have places in it that are not empty, cut no character, follow each other without overlaps
    and hold a text that is the same token when it stands alone; and all that is not in such a place
    is white space. Where the source is not divided or not parsed and the error has a position, it is
    between two characters of the source or at one of its ends. -/
theorem scan_keeps_source (source : String) :
    (∀ tokens, Token.scan source = .ok tokens → Token.Covers source tokens) ∧
      ∀ error position, Token.scan source = .error error ∨ parse source = .error error →
        error.position? = some position →
        IsBoundary source position ∧ position ≤ source.utf8ByteSize := by
  have scanned := Token.scan_settles source
  refine ⟨fun tokens done => scanned.of_ok done, ?_⟩
  rintro error position (failed | failed) known
  · have boundary := scanned.of_error failed position known
    exact ⟨boundary, boundary.le⟩
  · have boundary := (parse_points source).of_error failed position known
    exact ⟨boundary, boundary.le⟩

/-- Letters of more than one byte, a text with a quote in it, and a number that begins with its
    point. -/
def accented : String := "né_2 ~= \"a\\\"é\" + .5e-3! "

set_option maxRecDepth 100000 in
theorem accented_keeps_source :
    Token.Covers accented
      [⟨.name "né_2", ⟨0, 5⟩⟩, ⟨.symbol .tildeEquals, ⟨6, 8⟩⟩, ⟨.text "a\"é", ⟨9, 16⟩⟩,
        ⟨.symbol .plus, ⟨17, 18⟩⟩, ⟨.number ⟨5, 4⟩, ⟨19, 24⟩⟩, ⟨.symbol .bang, ⟨24, 25⟩⟩,
        ⟨.finish, ⟨26, 26⟩⟩] ∧
      Token.scan "né + \"b" = .error (.unterminatedText 6) ∧ IsBoundary "né + \"b" 6 ∧
      ∃ error, parse "né + )" = .error error ∧ error.position? = some 6 ∧
        IsBoundary "né + )" 6 := by
  obtain ⟨error, failed, known⟩ : ∃ error, parse "né + )" = .error error ∧
      error.position? = some 6 := Settles.exists_error (by decide +kernel)
  have open_ : Token.scan "né + \"b" = .error (.unterminatedText 6) := rfl
  exact ⟨(scan_keeps_source accented).1 _ rfl,
    open_, ((scan_keeps_source _).2 _ _ (.inl open_) rfl).1,
    error, failed, known, ((scan_keeps_source _).2 _ _ (.inr failed) known).1⟩

end Formulary.Expr
