import Formulary.Proofs.Expr.Places

namespace Formulary.Expr

/-! Which trees a successful reading records. A rule for each operation of a reading says what it
    adds to the records; the tokens that are passed on the way give the places. -/

namespace Cursor

/-- The tokens lie between the cursor and the one behind them. -/
def Passes (cursor : Cursor) (tokens : List Token) (after : Cursor) : Prop :=
  cursor.rest = tokens ++ after.rest ∧ after.lastEnd = Token.endAfter cursor.lastEnd tokens

namespace Passes

variable {cursor middle after : Cursor} {one two : List Token}

theorem trans (first : cursor.Passes one middle) (second : middle.Passes two after) :
    cursor.Passes (one ++ two) after := by
  obtain ⟨rest, ends⟩ := first
  obtain ⟨rest', ends'⟩ := second
  exact ⟨by rw [rest, rest', List.append_assoc], by rw [ends', ends, Token.endAfter_append]⟩

theorem unique (first : cursor.Passes one after) (second : cursor.Passes two after) : one = two :=
  List.append_cancel_right (first.1.symm.trans second.1)

theorem extent (passes : cursor.Passes one after) (some : one ≠ []) :
    Token.extent one = ⟨cursor.next.span.start, after.lastEnd⟩ := by
  obtain ⟨first, rest, rfl⟩ := List.exists_cons_of_ne_nil some
  rw [Cursor.next, passes.1, passes.2]
  rfl

end Passes

theorem exists_of_isSymbol {cursor : Cursor} {sign : Symbol}
    (head : cursor.next.isSymbol sign = true) :
    ∃ span rest, cursor.rest = ⟨.symbol sign, span⟩ :: rest := by
  obtain ⟨_ | ⟨⟨kind, span⟩, rest⟩, lastEnd⟩ := cursor
  · cases head
  · refine ⟨span, rest, ?_⟩
    cases kind <;> simp_all [next, Token.isSymbol]

theorem exists_of_kind {cursor : Cursor} {kind : TokenKind} (head : cursor.next.kind = kind)
    (other : kind ≠ .finish) : ∃ span rest, cursor.rest = ⟨kind, span⟩ :: rest := by
  obtain ⟨_ | ⟨⟨_, span⟩, rest⟩, lastEnd⟩ := cursor
  · exact absurd head.symm other
  · exact ⟨span, rest, by rw [← head]; rfl⟩

end Cursor

namespace ParseM

variable {α β : Type} {cursor : Cursor}

/-- A reading from the cursor that has a result records the readings in their order. -/
def Recounts (reading : ParseM α) (cursor : Cursor)
    (result : α → Cursor → List Reading → Prop) : Prop :=
  ∀ ⦃spans spans' : SpanMap⦄ ⦃value : α⦄ ⦃after : Cursor⦄,
    reading cursor spans = (.ok (value, after), spans') →
    ∃ readings, result value after readings ∧ spans' = spans.recordAll (readings.map Reading.entry)

namespace Recounts

variable {result result' : α → Cursor → List Reading → Prop}
variable {final : β → Cursor → List Reading → Prop}
variable {reading : ParseM α} {follow : α → ParseM β}

theorem pure {value : α} (holds : result value cursor []) :
    Recounts (Pure.pure value : ParseM α) cursor result := by
  rintro spans spans' _ _ ⟨⟩
  exact ⟨[], holds, rfl⟩

theorem bind (first : Recounts reading cursor result)
    (second : ∀ value after readings, result value after readings → Recounts (follow value) after
      fun value after others => final value after (readings ++ others)) :
    Recounts (reading >>= follow) cursor final := by
  intro spans spans' value after run
  rw [bind_apply] at run
  rcases start : reading cursor spans with ⟨_ | ⟨middle, between⟩, spans''⟩ <;>
    simp only [start] at run
  · cases run
  · obtain ⟨readings, holds, rfl⟩ := first start
    obtain ⟨others, holds, rfl⟩ := second _ _ _ holds run
    exact ⟨readings ++ others, holds, by rw [List.map_append, SpanMap.recordAll_append]⟩

theorem mono (recounts : Recounts reading cursor result)
    (weaker : ∀ value after readings, result value after readings → result' value after readings) :
    Recounts reading cursor result' := by
  intro spans spans' value after run
  obtain ⟨readings, holds, same⟩ := recounts run
  exact ⟨readings, weaker value after readings holds, same⟩

theorem throw {error : ParseError} :
    Recounts (MonadExcept.throw error : ParseM α) cursor result := by
  rintro spans spans' value after ⟨⟩

theorem get {follow : Cursor → ParseM β} (second : Recounts (follow cursor) cursor final) :
    Recounts (MonadState.get >>= follow) cursor final := second

theorem next {follow : Token → ParseM β} (second : Recounts (follow cursor.next) cursor final) :
    Recounts (ParseM.next >>= follow) cursor final := second

theorem start {follow : Nat → ParseM β}
    (second : Recounts (follow cursor.next.span.start) cursor final) :
    Recounts (ParseM.start >>= follow) cursor final := second

theorem advance {follow : Unit → ParseM β} {token : Token} {rest : List Token}
    (here : cursor.rest = token :: rest)
    (second : ∀ after, cursor.Passes [token] after → after.rest = rest →
      Recounts (follow ()) after final) :
    Recounts (ParseM.advance >>= follow) cursor final := by
  obtain ⟨_, lastEnd⟩ := cursor
  subst here
  exact second ⟨rest, token.span.stop⟩ ⟨rfl, rfl⟩ rfl

theorem unexpected {expected : String} :
    Recounts (ParseM.unexpected expected : ParseM α) cursor result := next throw

theorem fail_bind (fails : Recounts reading cursor fun _ _ _ => False) :
    Recounts (reading >>= follow) cursor final :=
  fails.bind fun _ _ _ impossible => impossible.elim

theorem located {start : Nat} {expr : Expr} {final : Expr → Cursor → List Reading → Prop}
    (kept : Bool) (holds : final expr cursor [⟨expr, ⟨start, cursor.lastEnd⟩, kept⟩]) :
    Recounts (ParseM.located start expr) cursor final := by
  rintro spans spans' _ _ ⟨⟩
  exact ⟨_, holds, rfl⟩

theorem skip {follow : Bool → ParseM β} {sign : Symbol}
    (found : ∀ span after, cursor.Passes [⟨.symbol sign, span⟩] after →
      Recounts (follow true) after final)
    (missing : Recounts (follow false) cursor final) :
    Recounts (skip? sign >>= follow) cursor final := by
  unfold skip?
  rw [bind_assoc]
  refine next ?_
  by_cases head : cursor.next.isSymbol sign = true
  · obtain ⟨span, rest, here⟩ := Cursor.exists_of_isSymbol head
    simp only [head, if_true, bind_assoc, pure_bind]
    exact advance here fun after passes _ => found span after passes
  · simp only [head, Bool.false_eq_true, if_false, pure_bind]
    exact missing

theorem expect {follow : Unit → ParseM β} {sign : Symbol} {expected : String}
    (found : ∀ span after, cursor.Passes [⟨.symbol sign, span⟩] after →
      Recounts (follow ()) after final) :
    Recounts (ParseM.expect sign expected >>= follow) cursor final := by
  unfold ParseM.expect
  rw [bind_assoc]
  refine skip (fun span after passes => ?_) ?_
  · simpa using found span after passes
  · exact fail_bind unexpected

end Recounts

end ParseM

open ParseM

variable {inner : Readers} {α : Type}

/-- The tokens that a reading takes are read as a phrase for its result. -/
def Locates (phrase : α → Phrase) (cursor : Cursor) (value : α) (after : Cursor)
    (readings : List Reading) : Prop :=
  ∃ tokens, cursor.Passes tokens after ∧ Reads (phrase value) tokens readings

def Recounted (reading : ParseM α) (phrase : α → Phrase) : Prop :=
  ∀ cursor, Recounts reading cursor (Locates phrase cursor)

theorem ParseM.Recounts.recorded {phrase : α → Phrase} {origin cursor : Cursor} {start : Nat}
    {expr : Expr} {earlier : List Reading} {follow : Expr → ParseM α}
    (second : Recounts (follow expr) cursor fun value after readings =>
      Locates phrase origin value after
        (earlier ++ [⟨expr, ⟨start, cursor.lastEnd⟩, true⟩] ++ readings)) :
    Recounts (ParseM.located start expr >>= follow) cursor fun value after readings =>
      Locates phrase origin value after (earlier ++ readings) := by
  intro spans spans' value after run
  obtain ⟨readings, holds, rfl⟩ := second run
  exact ⟨_ :: readings, by simpa using holds, rfl⟩

theorem Cursor.Passes.placed {level : Nat} {cursor after : Cursor} {tokens : List Token}
    {expr : Expr} {readings : List Reading} (passes : cursor.Passes tokens after)
    (reads : Reads (.term level expr) tokens (readings ++ [.node expr tokens])) :
    Reads (.term level expr) tokens
      (readings ++ [⟨expr, ⟨cursor.next.span.start, after.lastEnd⟩, true⟩]) := by
  rwa [Reading.node, passes.extent reads.ne_nil] at reads

theorem Locates.node {level : Nat} {cursor after : Cursor} {tokens : List Token} {expr : Expr}
    {readings : List Reading} (passes : cursor.Passes tokens after)
    (reads : Reads (.term level expr) tokens (readings ++ [.node expr tokens])) :
    Locates (.term level) cursor expr after
      (readings ++ [⟨expr, ⟨cursor.next.span.start, after.lastEnd⟩, true⟩]) :=
  ⟨tokens, passes, passes.placed reads⟩

theorem Locates.leaf {cursor after : Cursor} {token : Token} {expr : Expr}
    (passes : cursor.Passes [token] after) (found : leaf? token.kind = some expr) :
    Locates (.term 9) cursor expr after
      [⟨expr, ⟨cursor.next.span.start, after.lastEnd⟩, true⟩] := by
  have reads : Reads (.term 9 expr) [token] ([] ++ [.node expr [token]]) := .leaf found
  exact .node passes reads

/-- A tree in parentheses is recorded once more. -/
theorem Locates.parentheses {cursor after : Cursor} {tokens inside : List Token} {expr : Expr}
    {span span' : Span} {readings : List Reading} (passes : cursor.Passes tokens after)
    (row : tokens = ⟨.symbol .openParen, span⟩ :: (inside ++ [⟨.symbol .closeParen, span'⟩]))
    (reads : Reads (.term 0 expr) inside readings) :
    Locates (.term 9) cursor expr after
      (readings ++ [⟨expr, ⟨cursor.next.span.start, after.lastEnd⟩, false⟩]) := by
  have whole := Reads.parentheses row reads
  refine ⟨tokens, passes, ?_⟩
  rwa [Reading.node, Reading.aside, passes.extent whole.ne_nil] at whole

theorem readSuffixes_recounts {origin cursor : Cursor} {fuel : Nat} {expr : Expr}
    {before : List Token} {earlier : List Reading} (passes : origin.Passes before cursor)
    (reads : Reads (.term 8 expr) before earlier) :
    Recounts (readSuffixes origin.next.span.start fuel expr) cursor fun expr after readings =>
      Locates (.term 8) origin expr after (earlier ++ readings) := by
  induction fuel generalizing cursor expr before earlier with
  | zero => exact .pure ⟨before, passes, by simpa using reads⟩
  | succ fuel ih =>
    refine .skip ?_ (.skip ?_ (.pure ⟨before, passes, by simpa using reads⟩))
    · intro span after bang
      have further := passes.trans bang
      exact .recorded (ih further (further.placed (.factorial rfl reads)))
    · intro span middle dot
      refine .next ?_
      split
      · next word named =>
        obtain ⟨span', rest, here⟩ := Cursor.exists_of_kind named (by simp)
        refine .advance here fun after name _ => ?_
        have further := passes.trans (dot.trans name)
        exact .recorded (ih further (further.placed (.member rfl reads)))
      · exact .unexpected

theorem readChainFrom_recounts {level : Nat} {operand : ParseM Expr}
    (level_mem : level ∈ [1, 2, 4, 5]) (recounted : Recounted operand (.term (level + 1)))
    {origin cursor : Cursor} {fuel : Nat} {left : Expr} {before : List Token} {earlier : List Reading}
    (passes : origin.Passes before cursor) (reads : Reads (.term level left) before earlier) :
    Recounts (readChainFrom origin.next.span.start (operatorAt level) operand fuel left) cursor
      fun expr after readings => Locates (.term level) origin expr after (earlier ++ readings) := by
  induction fuel generalizing cursor left before earlier with
  | zero => exact .pure ⟨before, passes, by simpa using reads⟩
  | succ fuel ih =>
    refine .next ?_
    split
    · next op found =>
      obtain ⟨same, strength⟩ := of_operatorAt_eq_some found
      obtain ⟨span, rest, here⟩ := Cursor.exists_of_kind same (by simp)
      have leans := Operator.leansLeft_iff.mpr (strength ▸ level_mem)
      refine .advance here fun middle sign _ => .bind (recounted middle) ?_
      rintro right after readings ⟨tokens, passes', reads'⟩
      have further := (passes.trans sign).trans passes'
      have joins : op.Joins level level (level + 1) := strength ▸ .chain leans
      have whole := further.placed (.binary joins op.spelling_sign (List.append_assoc _ _ _)
        reads reads')
      simpa only [List.append_assoc] using Recounts.recorded (ih further whole)
    · exact .pure ⟨before, passes, by simpa using reads⟩

theorem readChain_recounted {level : Nat} {operand : ParseM Expr}
    (level_mem : level ∈ [1, 2, 4, 5]) (recounted : Recounted operand (.term (level + 1))) :
    Recounted (readChain (operatorAt level) operand) (.term level) := by
  intro cursor
  refine .start (.bind (recounted cursor) ?_)
  rintro left after readings ⟨tokens, passes, reads⟩
  have loose : level < 9 := by
    simp only [List.mem_cons, List.not_mem_nil, or_false] at level_mem
    omega
  exact .get (readChainFrom_recounts level_mem recounted passes (reads.tighter loose))

section Recounted

variable (statement : Recounted inner.statement (.term 0))

include statement

theorem readMoreArguments_recounts (fuel : Nat) (cursor : Cursor) :
    Recounts (readMoreArguments inner fuel) cursor fun arguments after readings =>
      arguments ≠ [] ∧ ∃ inside span,
        cursor.Passes (inside ++ [⟨.symbol .closeParen, span⟩]) after ∧
        Reads (.arguments arguments) inside readings := by
  induction fuel generalizing cursor with
  | zero => exact .unexpected
  | succ fuel ih =>
    refine .bind (statement cursor) ?_
    rintro argument middle readings ⟨tokens, passes, reads⟩
    refine .skip ?_ (.expect ?_)
    · intro span next comma
      refine .bind (ih next) ?_
      rintro _ after others ⟨some, inside, span', passes', reads'⟩
      obtain ⟨first, rest, rfl⟩ := List.exists_cons_of_ne_nil some
      refine .pure ⟨by simp, tokens ++ ⟨.symbol .comma, span⟩ :: inside, span', ?_, ?_⟩
      · simpa using (passes.trans comma).trans passes'
      · simpa using Reads.more rfl reads reads'
    · intro span after closing
      refine .pure ⟨by simp, tokens, span, passes.trans closing, ?_⟩
      simpa using Reads.last reads

theorem readArguments_recounts (cursor : Cursor) :
    Recounts (readArguments inner) cursor fun arguments after readings => ∃ inside span,
      cursor.Passes (inside ++ [⟨.symbol .closeParen, span⟩]) after ∧
      Reads (.arguments arguments) inside readings := by
  refine .skip (fun span after closing => .pure ⟨[], span, closing, .none⟩) (.get ?_)
  exact (readMoreArguments_recounts statement _ cursor).mono fun _ _ _ holds => holds.2

theorem readPrimary_recounted : Recounted (readPrimary inner) (.term 9) := by
  intro cursor
  refine .next ?_
  obtain ⟨_ | ⟨⟨kind, span⟩, rest⟩, lastEnd⟩ := cursor
  · exact .fail_bind .unexpected
  · cases kind with
    | number value =>
      exact .advance rfl fun after passes _ => .located true (.leaf passes rfl)
    | text content =>
      exact .advance rfl fun after passes _ => .located true (.leaf passes rfl)
    | name word =>
      refine .advance rfl fun after passes _ =>
        .skip ?_ (.skip ?_ (.located true (.leaf passes rfl)))
      · intro span' opened opening
        refine .bind (readArguments_recounts statement opened) ?_
        rintro arguments closed readings ⟨inside, span'', passes', reads⟩
        have unmarked : [].map Token.kind = if false then [.symbol .prime] else [] := rfl
        exact .located true
          (.node ((passes.trans opening).trans passes') (.call unmarked rfl reads))
      · intro span' marked marking
        refine .expect fun span'' opened opening => ?_
        refine .bind (readArguments_recounts statement opened) ?_
        rintro arguments closed readings ⟨inside, span'', passes', reads⟩
        have prime : [⟨.symbol .prime, span'⟩].map Token.kind =
            if true then [.symbol .prime] else [] := rfl
        exact .located true
          (.node (((passes.trans marking).trans opening).trans passes') (.call prime rfl reads))
    | symbol sign =>
      by_cases opened : sign = .openParen
      · subst opened
        refine .advance rfl fun after passes _ => .bind (statement after) ?_
        rintro expr middle readings ⟨tokens, passes', reads⟩
        refine .expect fun span' closed closing => .located false ?_
        exact .parentheses ((passes.trans passes').trans closing) rfl reads
      · cases sign <;> first
          | exact absurd rfl opened
          | exact .fail_bind .unexpected
    | finish => exact .fail_bind .unexpected

theorem readPostfix_recounted : Recounted (readPostfix inner) (.term 8) := by
  intro cursor
  refine .start (.bind (readPrimary_recounted statement cursor) ?_)
  rintro expr after readings ⟨tokens, passes, reads⟩
  exact .get (readSuffixes_recounts passes (.tighter (by omega) reads))

variable (operand : Recounted inner.operand (.term 6))

include operand

theorem readPower_recounted : Recounted (readPower inner) (.term 7) := by
  intro cursor
  refine .start (.bind (readPostfix_recounted statement cursor) ?_)
  rintro base middle readings ⟨tokens, passes, reads⟩
  refine .skip ?_ (.pure ⟨tokens, passes, by simpa using reads.tighter (by omega)⟩)
  intro span next caret
  refine .bind (operand next) ?_
  rintro exponent after others ⟨tokens', passes', reads'⟩
  have spelled : Symbol.spelling .caret = Operator.power.symbol := rfl
  have whole := Locates.node ((passes.trans caret).trans passes')
    (.binary .power spelled (List.append_assoc _ _ _) reads reads')
  exact .located true (by simpa using whole)

theorem readOperand_recounted : Recounted (readOperand inner) (.term 6) := by
  intro cursor
  refine .next ?_
  split
  · next op found =>
    obtain ⟨sign, same, spelled, leads⟩ := of_signOperator_eq_some found
    obtain ⟨span, rest, here⟩ := Cursor.exists_of_kind same (by simp)
    refine .advance here fun middle passes _ => .bind (operand middle) ?_
    rintro expr after readings ⟨tokens, passes', reads⟩
    exact .located true (.node (passes.trans passes') (.sign leads spelled rfl reads))
  · refine (readPower_recounted statement operand cursor).mono ?_
    rintro expr after readings ⟨tokens, passes, reads⟩
    exact ⟨tokens, passes, reads.tighter (by omega)⟩

theorem readSum_recounted : Recounted (readSum inner) (.term 4) :=
  have product : Recounted (readChain (operatorAt 5) (readOperand inner)) (.term 5) :=
    readChain_recounted (by simp) (readOperand_recounted statement operand)
  (readChain_recounted (by simp) product : Recounted (readChain (operatorAt 4) _) (.term 4))

theorem readComparison_recounted : Recounted (readComparison inner) (.term 3) := by
  have sum := readSum_recounted statement operand
  intro cursor
  refine .start (.bind (sum cursor) ?_)
  rintro left middle readings ⟨tokens, passes, reads⟩
  refine .next ?_
  split
  · next op found =>
    obtain ⟨same, strength⟩ : _ ∧ op.precedence = 3 := of_operatorAt_eq_some found
    obtain ⟨span, rest, here⟩ := Cursor.exists_of_kind same (by simp)
    refine .advance here fun next sign _ => .bind (sum next) ?_
    rintro right after others ⟨tokens', passes', reads'⟩
    refine .next ?_
    split
    · exact .fail_bind .throw
    · have joins : op.Joins 3 4 4 := .comparison (Operator.isComparison_iff.mpr strength)
      have whole := Locates.node ((passes.trans sign).trans passes')
        (.binary joins op.spelling_sign (List.append_assoc _ _ _) reads reads')
      exact .located true (by simpa using whole)
  · exact .pure ⟨tokens, passes, by simpa using reads.tighter (by omega)⟩

theorem readDisjunction_recounted : Recounted (readDisjunction inner) (.term 1) :=
  have conjunction : Recounted (readChain (operatorAt 2) (readComparison inner)) (.term 2) :=
    readChain_recounted (by simp) (readComparison_recounted statement operand)
  (readChain_recounted (by simp) conjunction : Recounted (readChain (operatorAt 1) _) (.term 1))

end Recounted

end Formulary.Expr
