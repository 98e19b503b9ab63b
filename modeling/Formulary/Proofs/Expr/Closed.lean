import Formulary.Proofs.Expr.Reading

namespace Formulary.Expr

/-! Properties of all readings. Readings are put together from a few operations, so it is enough to
    show a property for these and for what is put together from readings that have it. -/

namespace ParseM

/-- A property that the operations of readings have and pass on. An error may be thrown at an offset
    for which `place` holds, and it is known to hold for the start of every token that is looked at. -/
structure Closed (place : Nat → Prop) (holds : {α : Type} → ParseM α → Prop) : Prop where
  pure {α : Type} (value : α) : holds (Pure.pure value : ParseM α)
  bind {α β : Type} {reading : ParseM α} {follow : α → ParseM β} (first : holds reading)
    (second : ∀ value, holds (follow value)) : holds (reading >>= follow)
  get : holds (MonadState.get : ParseM Cursor)
  next {β : Type} {follow : Token → ParseM β}
    (second : ∀ token : Token, place token.span.start → holds (follow token)) :
    holds (ParseM.next >>= follow)
  advance : holds ParseM.advance
  located (start : Nat) (expr : Expr) : holds (ParseM.located start expr)
  throw {α : Type} {error : ParseError} (known : ∀ position ∈ error.position?, place position) :
    holds (MonadExcept.throw error : ParseM α)
  attempt {α : Type} {reading : ParseM (Option α)} (tried : holds reading) :
    holds (ParseM.attempt reading)

end ParseM

open ParseM

namespace ParseM.Closed

variable {place : Nat → Prop} {holds : {α : Type} → ParseM α → Prop} (closed : Closed place holds)

include closed

theorem start {β : Type} {follow : Nat → ParseM β}
    (second : ∀ start, place start → holds (follow start)) :
    holds (ParseM.start >>= follow) := by
  have looked : holds (ParseM.next >>= fun token => follow token.span.start) :=
    closed.next fun token known => second token.span.start known
  exact looked

theorem unexpected {α : Type} (expected : String) :
    holds (ParseM.unexpected expected : ParseM α) :=
  closed.next fun token known => closed.throw (by simpa [ParseError.position?] using known)

theorem skip (sign : Symbol) : holds (skip? sign) := by
  refine closed.next fun token _ => ?_
  split
  · exact closed.bind closed.advance fun _ => closed.pure true
  · exact closed.pure false

theorem expect (sign : Symbol) (expected : String) : holds (ParseM.expect sign expected) := by
  refine closed.bind (closed.skip sign) fun found => ?_
  cases found
  · exact closed.unexpected expected
  · exact closed.pure ()

theorem suffixes (start fuel : Nat) (expr : Expr) : holds (readSuffixes start fuel expr) := by
  induction fuel generalizing expr with
  | zero => exact closed.pure expr
  | succ fuel ih =>
    refine closed.bind (closed.skip .bang) fun found => ?_
    cases found
    · refine closed.bind (closed.skip .dot) fun found => ?_
      cases found
      · exact closed.pure expr
      · refine closed.next fun token _ => ?_
        split
        · exact closed.bind closed.advance fun _ => closed.bind (closed.located _ _) fun _ => ih _
        · exact closed.unexpected _
    · exact closed.bind (closed.located _ _) fun _ => ih _

theorem chainFrom {operator : TokenKind → Option Operator} {operand : ParseM Expr}
    (part : holds operand) (start fuel : Nat) (left : Expr) :
    holds (readChainFrom start operator operand fuel left) := by
  induction fuel generalizing left with
  | zero => exact closed.pure left
  | succ fuel ih =>
    refine closed.next fun token _ => ?_
    split
    · exact closed.bind closed.advance fun _ => closed.bind part fun _ =>
        closed.bind (closed.located _ _) fun _ => ih _
    · exact closed.pure left

theorem chain {operator : TokenKind → Option Operator} {operand : ParseM Expr}
    (part : holds operand) : holds (readChain operator operand) :=
  closed.start fun _ _ => closed.bind part fun _ => closed.bind closed.get fun _ =>
    closed.chainFrom part _ _ _

/-- The end of a comparison: a second one is refused. -/
theorem checked (start : Nat) (expr : Expr) :
    holds (do
      let after ← ParseM.next
      if (comparisonOperator after.kind).isSome then
        MonadExcept.throw (ParseError.chainedComparison after.span.start)
      ParseM.located start expr) := by
  refine closed.next fun after known => ?_
  split
  · exact closed.bind (closed.throw (by simpa [ParseError.position?] using known)) fun _ =>
      closed.located _ _
  · exact closed.located _ _

variable {inner : Readers} (statement : holds inner.statement)

include statement

theorem moreArguments (fuel : Nat) : holds (readMoreArguments inner fuel) := by
  induction fuel with
  | zero => exact closed.unexpected _
  | succ fuel ih =>
    refine closed.bind statement fun argument => closed.bind (closed.skip .comma) fun found => ?_
    cases found
    · exact closed.bind (closed.expect _ _) fun _ => closed.pure _
    · exact closed.bind ih fun _ => closed.pure _

theorem arguments : holds (readArguments inner) := by
  refine closed.bind (closed.skip .closeParen) fun found => ?_
  cases found
  · exact closed.bind closed.get fun _ => closed.moreArguments statement _
  · exact closed.pure _

theorem primary : holds (readPrimary inner) := by
  have arguments := closed.arguments statement
  refine closed.next fun token _ => ?_
  dsimp only
  split
  · exact closed.bind closed.advance fun _ => closed.located _ _
  · exact closed.bind closed.advance fun _ => closed.located _ _
  · refine closed.bind closed.advance fun _ => closed.bind (closed.skip .openParen) fun found => ?_
    cases found
    · refine closed.bind (closed.skip .prime) fun found => ?_
      cases found
      · exact closed.located _ _
      · exact closed.bind (closed.expect _ _) fun _ => closed.bind arguments fun _ =>
          closed.located _ _
    · exact closed.bind arguments fun _ => closed.located _ _
  · exact closed.bind closed.advance fun _ => closed.bind statement fun _ =>
      closed.bind (closed.expect _ _) fun _ => closed.located _ _
  · exact closed.bind (closed.unexpected _) fun _ => closed.located _ _

variable (operand : holds inner.operand)

include operand

theorem power : holds (readPower inner) := by
  have postfixed : holds (readPostfix inner) := closed.start fun _ _ =>
    closed.bind (closed.primary statement) fun _ => closed.bind closed.get fun _ =>
      closed.suffixes _ _ _
  refine closed.start fun _ _ => closed.bind postfixed fun _ =>
    closed.bind (closed.skip .caret) fun found => ?_
  cases found
  · exact closed.pure _
  · exact closed.bind operand fun _ => closed.located _ _

theorem operands : holds (readOperand inner) := by
  refine closed.next fun token _ => ?_
  split
  · exact closed.bind closed.advance fun _ => closed.bind operand fun _ => closed.located _ _
  · exact closed.power statement operand

theorem sum : holds (readSum inner) :=
  closed.chain (closed.chain (closed.operands statement operand))

/-- A comparison behind its first operand. -/
theorem compared (start : Nat) (left : Expr) :
    holds (do
      match comparisonOperator (← ParseM.next).kind with
      | some op =>
        ParseM.advance
        let right ← readSum inner
        let after ← ParseM.next
        if (comparisonOperator after.kind).isSome then
          MonadExcept.throw (ParseError.chainedComparison after.span.start)
        ParseM.located start (binary op [left, right])
      | none => return left) := by
  refine closed.next fun token _ => ?_
  split
  · exact closed.bind closed.advance fun _ => closed.bind (closed.sum statement operand) fun _ =>
      closed.checked _ _
  · exact closed.pure _

theorem comparison : holds (readComparison inner) :=
  closed.start fun start _ => closed.bind (closed.sum statement operand) fun left =>
    closed.compared statement operand start left

theorem disjunction : holds (readDisjunction inner) :=
  closed.chain (closed.chain (closed.comparison statement operand))

theorem definitionHead : holds (readDefinitionHead inner) := by
  refine closed.attempt (closed.bind closed.get fun cursor => ?_)
  split
  · refine closed.bind closed.advance fun _ => closed.bind closed.advance fun _ =>
      closed.bind closed.advance fun _ => closed.bind (closed.arguments statement) fun _ =>
        closed.bind (closed.skip .equals) fun found => ?_
    cases found
    · exact closed.pure _
    · refine closed.bind (closed.disjunction statement operand) fun _ =>
        closed.bind (closed.skip .semicolon) fun found => ?_
      cases found <;> exact closed.pure _
  · exact closed.pure _

theorem wholeStatement : holds (readStatement inner) := by
  refine closed.start fun start known =>
    closed.bind (closed.definitionHead statement operand) fun found => ?_
  cases found with
  | none => exact closed.disjunction statement operand
  | some found =>
    refine closed.bind statement fun value => ?_
    split
    · exact closed.located _ _
    · exact closed.throw (by simpa [ParseError.position?] using known)

end ParseM.Closed

theorem ParseM.Closed.readers {place : Nat → Prop} {holds : {α : Type} → ParseM α → Prop}
    (closed : Closed place holds) (depth : Nat) :
    holds (Expr.readers depth).statement ∧ holds (Expr.readers depth).operand := by
  induction depth with
  | zero => exact ⟨closed.unexpected _, closed.unexpected _⟩
  | succ depth ih => exact ⟨closed.wholeStatement ih.1 ih.2, closed.operands ih.1 ih.2⟩

end Formulary.Expr
