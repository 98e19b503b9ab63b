import Formulary.Proofs.Expr.Closed
import Formulary.Proofs.Expr.Recording

namespace Formulary.Expr

/-! What a statement records when it begins like a definition and is none. -/

namespace ParseM

variable {α β : Type}

/-- From each cursor a reading has one outcome and makes one row of records, whatever was recorded
    before. -/
def Logged (reading : ParseM α) : Prop :=
  ∀ cursor, ∃ outcome entries, ∀ spans, reading cursor spans = (outcome, spans.recordAll entries)

namespace Logged

variable {reading : ParseM α} {follow : α → ParseM β}

theorem pure {value : α} : Logged (Pure.pure value : ParseM α) :=
  fun cursor => ⟨.ok (value, cursor), [], fun _ => rfl⟩

theorem bind (first : Logged reading) (second : ∀ value, Logged (follow value)) :
    Logged (reading >>= follow) := by
  intro cursor
  obtain ⟨outcome, entries, run⟩ := first cursor
  rcases outcome with error | ⟨value, after⟩
  · exact ⟨.error error, entries, fun spans => by rw [bind_apply, run]⟩
  · obtain ⟨outcome, others, run'⟩ := second value after
    refine ⟨outcome, entries ++ others, fun spans => ?_⟩
    simp only [bind_apply, run, run', SpanMap.recordAll_append]

theorem get : Logged (MonadState.get : ParseM Cursor) :=
  fun cursor => ⟨.ok (cursor, cursor), [], fun _ => rfl⟩

theorem next : Logged ParseM.next := fun cursor => ⟨.ok (cursor.next, cursor), [], fun _ => rfl⟩

theorem advance : Logged ParseM.advance := fun _ => ⟨.ok ((), _), [], fun _ => rfl⟩

theorem located {start : Nat} {expr : Expr} : Logged (ParseM.located start expr) :=
  fun cursor => ⟨.ok (expr, cursor), [(expr, ⟨start, cursor.lastEnd⟩)], fun _ => rfl⟩

theorem attempt {reading : ParseM (Option α)} (logged : Logged reading) :
    Logged (ParseM.attempt reading) := by
  intro cursor
  obtain ⟨outcome, entries, run⟩ := logged cursor
  rcases outcome with error | ⟨_ | value, after⟩
  · exact ⟨.ok (none, cursor), entries, fun spans => by rw [ParseM.attempt, run]⟩
  · exact ⟨.ok (none, cursor), entries, fun spans => by rw [ParseM.attempt, run]⟩
  · exact ⟨.ok (some value, after), entries, fun spans => by rw [ParseM.attempt, run]⟩

theorem closed : Closed (fun _ => True) fun {α} (reading : ParseM α) => Logged reading where
  pure _ := pure
  bind := bind
  get := get
  next second := next.bind fun token => second token trivial
  advance := advance
  located _ _ := located
  throw _ _ := ⟨.error _, [], fun _ => rfl⟩
  attempt := attempt

end Logged

end ParseM

open ParseM

variable {inner : Readers}

/-! A statement that begins with a name, a prime and an opening parenthesis starts with the
    arguments, whether it is read as a definition or not. -/

namespace ParseM

variable {α β γ : Type}

/-- Whatever the whole does from its cursor, it does the part from `start` first. -/
def Enters (part : ParseM α) (start : Cursor) (whole : ParseM β) (cursor : Cursor) : Prop :=
  ∃ follow : α → ParseM β, ∀ spans, whole cursor spans = (part >>= follow) start spans

namespace Enters

variable {part : ParseM α} {middle : ParseM β} {whole : ParseM γ} {start between cursor : Cursor}

theorem behind_start (part : ParseM α) (follow : Nat → α → ParseM β) (cursor : Cursor) :
    Enters part cursor (ParseM.start >>= fun start => part >>= follow start) cursor :=
  ⟨follow cursor.next.span.start, fun _ => rfl⟩

theorem trans (first : Enters part start middle between)
    (second : Enters middle between whole cursor) : Enters part start whole cursor := by
  obtain ⟨follow, same⟩ := first
  obtain ⟨follow', same'⟩ := second
  refine ⟨fun value => follow value >>= follow', fun spans => ?_⟩
  rw [same', bind_apply, same, ← bind_assoc, bind_apply (part >>= follow)]

theorem error {spans spans' : SpanMap} {error : ParseError}
    (enters : Enters part start whole cursor)
    (run : part start spans = (.error error, spans')) :
    whole cursor spans = (.error error, spans') := by
  obtain ⟨follow, same⟩ := enters
  rw [same, bind_apply, run]

theorem again {value : α} {after : Cursor} {entries : List (Expr × Span)}
    (enters : Enters part start whole cursor)
    (run : ∀ spans, part start spans = (.ok (value, after), spans.recordAll entries))
    (spans : SpanMap) : whole cursor (spans.recordAll entries) = whole cursor spans := by
  obtain ⟨follow, same⟩ := enters
  simp only [same, bind_apply, run, SpanMap.recordAll_recordAll]

/-- A tree that is read in the part is found there, since the part is done first. -/
theorem first {value : α} {result : γ} {between after : Cursor} {heads readings : List Reading}
    (enters : Enters part start whole cursor)
    (run : ∀ spans, part start spans =
      (.ok (value, between), spans.recordAll (heads.map Reading.entry)))
    (run' : ∀ spans, whole cursor spans =
      (.ok (result, after), spans.recordAll (readings.map Reading.entry)))
    {tree : Expr} {span : Span} (found : Reading.first heads tree = some span) :
    Reading.first readings tree = some span := by
  have same := congrArg Prod.snd (enters.again run .empty)
  rw [run', run'] at same
  have looked := congrArg (·.spanOf? tree) same
  simpa [Reading.spanOf?_recordAll, found] using looked.symm

end Enters

end ParseM

theorem readChain_enters (operator : TokenKind → Option Operator) (operand : ParseM Expr)
    (cursor : Cursor) : Enters operand cursor (readChain operator operand) cursor :=
  .behind_start operand _ cursor

theorem readDisjunction_enters {cursor : Cursor} (unsigned : signOperator cursor.next.kind = none) :
    Enters (readPrimary inner) cursor (readDisjunction inner) cursor := by
  have postfixed : Enters (readPrimary inner) cursor (readPostfix inner) cursor :=
    .behind_start _ _ cursor
  have power : Enters (readPostfix inner) cursor (readPower inner) cursor :=
    .behind_start _ _ cursor
  have operand : Enters (readPower inner) cursor (readOperand inner) cursor := by
    refine ⟨pure, fun spans => ?_⟩
    have ahead : ParseM.next cursor spans = (.ok (cursor.next, cursor), spans) := rfl
    rw [bind_pure, readOperand, bind_apply, ahead]
    simp only [unsigned]
  have comparison : Enters (readSum inner) cursor (readComparison inner) cursor :=
    .behind_start _ _ cursor
  have sum := ((postfixed.trans power).trans operand).trans (readChain_enters productOperator _ _)
  exact (((sum.trans (readChain_enters sumOperator _ _)).trans comparison).trans
    (readChain_enters andOperator _ _)).trans (readChain_enters orOperator _ _)

/-- A cursor in front of a name, a prime and an opening parenthesis. -/
def Cursor.headed (word : String) (s₁ s₂ s₃ : Span) (rest : List Token) (lastEnd : Nat) : Cursor :=
  ⟨⟨.name word, s₁⟩ :: ⟨.symbol .prime, s₂⟩ :: ⟨.symbol .openParen, s₃⟩ :: rest, lastEnd⟩

namespace ParseM

variable {α β : Type}

/-- From the cursor the reading has the value and stops at `after`. -/
def Yields (reading : ParseM α) (cursor : Cursor) (value : α) (after : Cursor) : Prop :=
  ∃ entries, ∀ spans, reading cursor spans = (.ok (value, after), spans.recordAll entries)

theorem Logged.yields {reading : ParseM α} {cursor after : Cursor} {spans spans' : SpanMap}
    {value : α} (logged : Logged reading)
    (run : reading cursor spans = (.ok (value, after), spans')) :
    Yields reading cursor value after := by
  obtain ⟨outcome, entries, runs⟩ := logged cursor
  rw [runs spans] at run
  obtain rfl : outcome = .ok (value, after) := congrArg Prod.fst run
  exact ⟨entries, runs⟩

theorem Logged.recounts {reading : ParseM α} {cursor after : Cursor} {spans spans' : SpanMap}
    {value : α} {result : α → Cursor → List Reading → Prop} (logged : Logged reading)
    (recounts : Recounts reading cursor result)
    (run : reading cursor spans = (.ok (value, after), spans')) :
    ∃ readings, result value after readings ∧ ∀ spans, reading cursor spans =
      (.ok (value, after), spans.recordAll (readings.map Reading.entry)) := by
  obtain ⟨entries, runs⟩ := logged.yields run
  obtain ⟨readings, holds, same⟩ := recounts (runs .empty)
  exact ⟨readings, holds, fun spans => by rw [runs, SpanMap.recordAll_congr same]⟩

theorem Logged.error {reading : ParseM α} {cursor : Cursor} {spans spans' : SpanMap}
    {error : ParseError} (logged : Logged reading)
    (run : reading cursor spans = (.error error, spans')) (others : SpanMap) :
    ∃ spans', reading cursor others = (.error error, spans') := by
  obtain ⟨outcome, entries, runs⟩ := logged cursor
  rw [runs spans] at run
  obtain rfl : outcome = .error error := congrArg Prod.fst run
  exact ⟨_, runs others⟩

namespace Yields

variable {reading : ParseM α} {follow : α → ParseM β} {cursor middle after : Cursor}
variable {value : α} {result : β}

theorem pure (value : α) (cursor : Cursor) :
    Yields (Pure.pure value : ParseM α) cursor value cursor := ⟨[], fun _ => rfl⟩

theorem bind (first : Yields reading cursor value middle)
    (second : Yields (follow value) middle result after) :
    Yields (reading >>= follow) cursor result after := by
  obtain ⟨entries, run⟩ := first
  obtain ⟨others, run'⟩ := second
  refine ⟨entries ++ others, fun spans => ?_⟩
  simp only [bind_apply, run, run', SpanMap.recordAll_append]

theorem of_pure {found : α} (yields : Yields (Pure.pure value : ParseM α) cursor found after) :
    found = value ∧ after = cursor := by
  obtain ⟨entries, run⟩ := yields
  cases congrArg Prod.fst (run .empty)
  exact ⟨rfl, rfl⟩

theorem of_located {start : Nat} {expr found : Expr}
    (yields : Yields (ParseM.located start expr) cursor found after) :
    found = expr ∧ after = cursor := by
  obtain ⟨entries, run⟩ := yields
  cases congrArg Prod.fst (run .empty)
  exact ⟨rfl, rfl⟩

theorem of_get {follow : Cursor → ParseM β}
    (yields : Yields (MonadState.get >>= follow) cursor result after) :
    Yields (follow cursor) cursor result after := yields

theorem of_next {follow : Token → ParseM β}
    (yields : Yields (ParseM.next >>= follow) cursor result after) :
    Yields (follow cursor.next) cursor result after := yields

theorem of_start {follow : Nat → ParseM β}
    (yields : Yields (ParseM.start >>= follow) cursor result after) :
    Yields (follow cursor.next.span.start) cursor result after := yields

theorem of_bind (yields : Yields (reading >>= follow) cursor result after) (logged : Logged reading)
    (logged' : ∀ value, Logged (follow value)) :
    ∃ value middle, Yields reading cursor value middle ∧
      Yields (follow value) middle result after := by
  obtain ⟨entries, run⟩ := yields
  have run := run .empty
  rw [bind_apply] at run
  rcases first : reading cursor .empty with ⟨_ | ⟨value, middle⟩, spans⟩ <;>
    simp only [first] at run
  · cases run
  · exact ⟨value, middle, logged.yields first, (logged' value).yields run⟩

theorem unique {value' : α} {after' : Cursor} (one : Yields reading cursor value after)
    (two : Yields reading cursor value' after') : value' = value ∧ after' = after := by
  obtain ⟨entries, run⟩ := one
  obtain ⟨entries', run'⟩ := two
  cases congrArg Prod.fst ((run .empty).symm.trans (run' .empty))
  exact ⟨rfl, rfl⟩

theorem located (start : Nat) (expr : Expr) (cursor : Cursor) :
    Yields (ParseM.located start expr) cursor expr cursor :=
  ⟨[(expr, ⟨start, cursor.lastEnd⟩)], fun _ => rfl⟩

theorem get {follow : Cursor → ParseM β} (second : Yields (follow cursor) cursor result after) :
    Yields (MonadState.get >>= follow) cursor result after := second

theorem next {follow : Token → ParseM β}
    (second : Yields (follow cursor.next) cursor result after) :
    Yields (ParseM.next >>= follow) cursor result after := second

theorem start {follow : Nat → ParseM β}
    (second : Yields (follow cursor.next.span.start) cursor result after) :
    Yields (ParseM.start >>= follow) cursor result after := second

theorem advance {token : Token} (passes : cursor.Passes [token] after) :
    Yields ParseM.advance cursor () after := by
  obtain ⟨rest, lastEnd⟩ := cursor
  obtain ⟨rest', lastEnd'⟩ := after
  obtain ⟨here, ends⟩ := passes
  change rest = token :: rest' at here
  change lastEnd' = token.span.stop at ends
  subst here ends
  exact ⟨[], fun _ => rfl⟩

theorem skip_missing {sign : Symbol} (other : cursor.next.isSymbol sign = false) :
    Yields (skip? sign) cursor false cursor := by
  refine next ?_
  simp only [other, Bool.false_eq_true, if_false]
  exact pure false cursor

end Yields

end ParseM

theorem readChain_yields {operator : TokenKind → Option Operator} {operand : ParseM Expr}
    {cursor after : Cursor} {expr : Expr} (first : Yields operand cursor expr after)
    (other : operator after.next.kind = none) :
    Yields (readChain operator operand) cursor expr after := by
  have stops (fuel : Nat) : Yields
      (readChainFrom cursor.next.span.start operator operand fuel expr) after expr after := by
    cases fuel with
    | zero => exact .pure expr after
    | succ fuel =>
      refine .next ?_
      simp only [other]
      exact .pure expr after
  exact .start (first.bind (.get (stops after.rest.length)))

section Headed

variable {word : String} {s₁ s₂ s₃ : Span} {rest : List Token} {lastEnd : Nat}

theorem readPrimary_headed (spans : SpanMap) :
    readPrimary inner (.headed word s₁ s₂ s₃ rest lastEnd) spans =
      (readArguments inner >>= fun arguments => located s₁.start (call word arguments true))
        ⟨rest, s₃.stop⟩ spans := rfl

theorem readDefinitionHead_headed (spans : SpanMap) :
    readDefinitionHead inner (.headed word s₁ s₂ s₃ rest lastEnd) spans =
      attempt (fun _ => (readArguments inner >>= fun parameters => do
        if ← skip? .equals then
          let body ← readDisjunction inner
          if ← skip? .semicolon then
            return some (word, parameters, body)
        return none) ⟨rest, s₃.stop⟩) (.headed word s₁ s₂ s₃ rest lastEnd) spans := rfl

variable {arguments : List Expr} {closed : Cursor}

/-- In front of an equals sign the primed call is a whole sum. -/
theorem readSum_headed (given : Yields (readArguments inner) ⟨rest, s₃.stop⟩ arguments closed)
    (equals : closed.next.kind = .symbol .equals) :
    Yields (readSum inner) (.headed word s₁ s₂ s₃ rest lastEnd) (call word arguments true)
      closed := by
  have other {sign : Symbol} (other : sign ≠ .equals) : closed.next.isSymbol sign = false := by
    simp [Token.isSymbol, equals, other.symm]
  have arguments_read : Yields (readArguments inner >>= fun arguments =>
      located s₁.start (call word arguments true)) ⟨rest, s₃.stop⟩ (call word arguments true)
      closed := given.bind (.located _ _ _)
  have primary : Yields (readPrimary inner) (.headed word s₁ s₂ s₃ rest lastEnd)
      (call word arguments true) closed := arguments_read
  have suffixes (start fuel : Nat) (expr : Expr) :
      Yields (readSuffixes start fuel expr) closed expr closed := by
    cases fuel with
    | zero => exact .pure expr closed
    | succ fuel =>
      exact .bind (.skip_missing (other (by simp)))
        (.bind (.skip_missing (other (by simp))) (.pure expr closed))
  have postfixed : Yields (readPostfix inner) (.headed word s₁ s₂ s₃ rest lastEnd)
      (call word arguments true) closed := .start (primary.bind (.get (suffixes _ _ _)))
  have power : Yields (readPower inner) (.headed word s₁ s₂ s₃ rest lastEnd)
      (call word arguments true) closed :=
    .start (postfixed.bind (.bind (.skip_missing (other (by simp))) (.pure _ _)))
  have operand : Yields (readOperand inner) (.headed word s₁ s₂ s₃ rest lastEnd)
      (call word arguments true) closed := .next power
  exact readChain_yields (readChain_yields operand (by rw [equals]; rfl)) (by rw [equals]; rfl)

end Headed

/-- From the second cursor the reading gets as far as from the first one, with what is left of the
    statement that it has from the first. -/
def Alongside (reading : ParseM Expr) (cursor other : Cursor) : Prop :=
  ∀ ⦃value after⦄, Yields reading cursor value after →
    ∃ tail ∈ value.tails, Yields reading other tail after

/-- The first operand of a chain has no influence on how far it goes. -/
theorem readChainFrom_alongside {operand : ParseM Expr} (logged : Logged operand) {level : Nat}
    (loose : level < 3) {start fuel : Nat} {left value tail : Expr} {cursor after : Cursor}
    (yields : Yields (readChainFrom start (operatorAt level) operand fuel left) cursor value after)
    (start' : Nat) (listed : tail ∈ left.tails) :
    ∃ rest ∈ value.tails,
      Yields (readChainFrom start' (operatorAt level) operand fuel tail) cursor rest after := by
  induction fuel generalizing left tail cursor with
  | zero =>
    obtain ⟨rfl, rfl⟩ := yields.of_pure
    exact ⟨tail, listed, .pure _ _⟩
  | succ fuel ih =>
    have yields := Yields.of_next yields
    cases found : operatorAt level cursor.next.kind with
    | none =>
      simp only [found] at yields
      obtain ⟨rfl, rfl⟩ := yields.of_pure
      refine ⟨tail, listed, .next ?_⟩
      simp only [found]
      exact .pure tail after
    | some op =>
      simp only [found] at yields
      -- Both chains take the same operator and operand; only what they close differs.
      have loose := (of_operatorAt_eq_some found).2 ▸ loose
      have more : ∀ expr, Logged (readChainFrom start (operatorAt level) operand fuel expr) :=
        Logged.closed.chainFrom logged start fuel
      obtain ⟨⟨⟩, middle, step, operation⟩ := yields.of_bind .advance fun _ =>
        logged.bind fun _ => Logged.located.bind more
      obtain ⟨right, behind, second, recording⟩ := operation.of_bind logged fun _ =>
        Logged.located.bind more
      obtain ⟨whole, same, record, chain⟩ := recording.of_bind .located more
      obtain ⟨rfl, rfl⟩ := record.of_located
      obtain ⟨rest, listed, chain'⟩ := ih chain (mem_tails_operand loose listed right)
      refine ⟨rest, listed, .next ?_⟩
      simp only [found]
      exact step.bind (second.bind (.bind (.located _ _ _) chain'))

theorem readChain_alongside {operand : ParseM Expr} {cursor other : Cursor}
    (logged : Logged operand) {level : Nat} (loose : level < 3) (alongside : Alongside operand cursor other) :
    Alongside (readChain (operatorAt level) operand) cursor other := by
  intro value after yields
  obtain ⟨left, middle, first, chain⟩ := (Yields.of_start yields).of_bind logged fun _ =>
    Logged.get.bind fun _ => Logged.closed.chainFrom logged _ _ _
  obtain ⟨tail, listed, first'⟩ := alongside first
  obtain ⟨rest, listed, chain'⟩ := readChainFrom_alongside logged loose (Yields.of_get chain)
    other.next.span.start listed
  exact ⟨rest, listed, .start (first'.bind (.get chain'))⟩

section Headed

variable {word : String} {s₁ s₂ s₃ : Span} {rest : List Token} {lastEnd : Nat}
variable {arguments : List Expr} {closed behind : Cursor} {span : Span}

/-- A comparison of a primed call ends where the part behind its equals sign ends. -/
theorem readComparison_alongside (statement : Logged inner.statement)
    (operand : Logged inner.operand)
    (given : Yields (readArguments inner) ⟨rest, s₃.stop⟩ arguments closed)
    (equals : closed.Passes [⟨.symbol .equals, span⟩] behind) :
    Alongside (readComparison inner) (.headed word s₁ s₂ s₃ rest lastEnd) behind := by
  intro value after yields
  have sum := Logged.closed.sum statement operand
  have kind : closed.next.kind = .symbol .equals := by
    rw [Cursor.next, equals.1]
    rfl
  obtain ⟨left, middle, first, compared⟩ := (Yields.of_start yields).of_bind sum fun left =>
    Logged.closed.compared statement operand _ left
  obtain ⟨rfl, rfl⟩ := (readSum_headed given kind).unique first
  have compared := compared.of_next
  have op : comparisonOperator middle.next.kind = some .equal := by rw [kind]; rfl
  simp only [op] at compared
  obtain ⟨⟨⟩, next, step, compared⟩ := compared.of_bind .advance fun _ =>
    sum.bind fun _ => Logged.closed.checked _ _
  obtain ⟨-, rfl⟩ := (Yields.advance equals).unique step
  obtain ⟨right, last, second, checked⟩ := compared.of_bind sum fun _ => Logged.closed.checked _ _
  have checked := checked.of_next
  cases chained : comparisonOperator last.next.kind with
  | some op =>
    simp only [chained, Option.isSome_some, if_true] at checked
    obtain ⟨entries, run⟩ := checked
    cases congrArg Prod.fst (run .empty)
  | none =>
    simp only [chained, Option.isSome_none, Bool.false_eq_true, if_false] at checked
    obtain ⟨rfl, rfl⟩ := checked.of_located
    refine ⟨right, mem_tails_compare word arguments right, ?_⟩
    refine .start (second.bind (.next ?_))
    simp only [chained]
    exact .pure right after

theorem readDisjunction_alongside (statement : Logged inner.statement)
    (operand : Logged inner.operand)
    (given : Yields (readArguments inner) ⟨rest, s₃.stop⟩ arguments closed)
    (equals : closed.Passes [⟨.symbol .equals, span⟩] behind) :
    Alongside (readDisjunction inner) (.headed word s₁ s₂ s₃ rest lastEnd) behind := by
  have comparison := Logged.closed.comparison statement operand
  have conjunction : Alongside (readChain (operatorAt 2) (readComparison inner))
      (.headed word s₁ s₂ s₃ rest lastEnd) behind :=
    readChain_alongside comparison (by decide)
      (readComparison_alongside statement operand given equals)
  have disjunction : Alongside (readChain (operatorAt 1) (readChain (operatorAt 2) _)) _ _ :=
    readChain_alongside (Logged.closed.chain comparison) (by decide) conjunction
  exact disjunction

end Headed

/-! What an attempt at a definition comes to. -/

theorem ParseM.skip?_cases (sign : Symbol) (cursor : Cursor) :
    (∃ span after, cursor.Passes [⟨.symbol sign, span⟩] after ∧
      ∀ spans, skip? sign cursor spans = (.ok (true, after), spans)) ∨
    ∀ spans, skip? sign cursor spans = (.ok (false, cursor), spans) := by
  have unfolded (spans : SpanMap) : skip? sign cursor spans =
      (if cursor.next.isSymbol sign = true then advance >>= fun _ => pure true
        else pure false : ParseM Bool) cursor spans := rfl
  by_cases head : cursor.next.isSymbol sign = true
  · obtain ⟨span, rest, here⟩ := Cursor.exists_of_isSymbol head
    refine .inl ⟨span, ⟨rest, span.stop⟩, ⟨here, rfl⟩, fun spans => ?_⟩
    obtain ⟨_, lastEnd⟩ := cursor
    subst here
    rw [unfolded, if_pos head]
    rfl
  · refine .inr fun spans => ?_
    rw [unfolded, if_neg head]
    rfl

/-- The attempt breaks off at the arguments, in front of an equals sign, at the body or in front of
    a semicolon, or it has found a definition. -/
inductive Attempts (inner : Readers) (word : String) (start opened : Cursor) (spans : SpanMap) :
    Option (String × List Expr × Expr) → Cursor → SpanMap → Prop
  | arguments {error : ParseError} {spans' : SpanMap}
      (fails : readArguments inner opened spans = (.error error, spans')) :
      Attempts inner word start opened spans none start spans'
  | equals {arguments : List Expr} {closed : Cursor} {spans' : SpanMap}
      (given : readArguments inner opened spans = (.ok (arguments, closed), spans')) :
      Attempts inner word start opened spans none start spans'
  | body {arguments : List Expr} {closed behind : Cursor} {span : Span} {error : ParseError}
      {spans' spans'' : SpanMap}
      (given : readArguments inner opened spans = (.ok (arguments, closed), spans'))
      (equals : closed.Passes [⟨.symbol .equals, span⟩] behind)
      (fails : readDisjunction inner behind spans' = (.error error, spans'')) :
      Attempts inner word start opened spans none start spans''
  | semicolon {arguments : List Expr} {body : Expr} {closed behind last : Cursor} {span : Span}
      {spans' spans'' : SpanMap}
      (given : readArguments inner opened spans = (.ok (arguments, closed), spans'))
      (equals : closed.Passes [⟨.symbol .equals, span⟩] behind)
      (defined : readDisjunction inner behind spans' = (.ok (body, last), spans'')) :
      Attempts inner word start opened spans none start spans''
  | definition {arguments : List Expr} {body : Expr} {closed behind last after : Cursor}
      {span span' : Span} {spans' spans'' : SpanMap}
      (given : readArguments inner opened spans = (.ok (arguments, closed), spans'))
      (equals : closed.Passes [⟨.symbol .equals, span⟩] behind)
      (defined : readDisjunction inner behind spans' = (.ok (body, last), spans''))
      (closes : last.Passes [⟨.symbol .semicolon, span'⟩] after) :
      Attempts inner word start opened spans (some (word, arguments, body)) after spans''

theorem readDefinitionHead_attempts (inner : Readers) (word : String) (s₁ s₂ s₃ : Span)
    (rest : List Token) (lastEnd : Nat) (spans : SpanMap) : ∃ found after spans',
      readDefinitionHead inner (.headed word s₁ s₂ s₃ rest lastEnd) spans =
        (.ok (found, after), spans') ∧
      Attempts inner word (.headed word s₁ s₂ s₃ rest lastEnd) ⟨rest, s₃.stop⟩ spans found after
        spans' := by
  rw [readDefinitionHead_headed, attempt, bind_apply]
  rcases given : readArguments inner ⟨rest, s₃.stop⟩ spans with
    ⟨error | ⟨arguments, closed⟩, spans'⟩
  · exact ⟨none, _, spans', rfl, .arguments given⟩
  · simp only [bind_apply]
    rcases skip?_cases .equals closed with ⟨span, behind, equals, skipped⟩ | skipped
    · simp only [skipped, if_true, bind_apply]
      rcases defined : readDisjunction inner behind spans' with ⟨error | ⟨body, last⟩, spans''⟩
      · exact ⟨none, _, spans'', rfl, .body given equals defined⟩
      · rcases skip?_cases .semicolon last with ⟨span', after, closes, skipped⟩ | skipped
        · simp only [skipped, if_true]
          exact ⟨_, _, spans'', rfl, .definition given equals defined closes⟩
        · simp only [skipped, Bool.false_eq_true, if_false]
          exact ⟨none, _, spans'', rfl, .semicolon given equals defined⟩
    · simp only [skipped, Bool.false_eq_true, if_false]
      exact ⟨none, _, spans', rfl, .equals given⟩

theorem readDefinitionHead_unheaded {cursor : Cursor}
    (headed : ¬ ∃ word s₁ s₂ s₃ rest, cursor.rest =
      ⟨.name word, s₁⟩ :: ⟨.symbol .prime, s₂⟩ :: ⟨.symbol .openParen, s₃⟩ :: rest)
    (spans : SpanMap) : readDefinitionHead inner cursor spans = (.ok (none, cursor), spans) := by
  obtain ⟨_ | ⟨⟨kind, s₁⟩, rest⟩, lastEnd⟩ := cursor
  · rfl
  cases kind with
  | name word =>
    rcases rest with _ | ⟨⟨kind, s₂⟩, rest⟩
    · rfl
    by_cases primed : kind = .symbol .prime
    · subst primed
      rcases rest with _ | ⟨⟨kind, s₃⟩, rest⟩
      · rfl
      cases kind with
      | symbol sign =>
        cases sign with
        | openParen => exact absurd ⟨word, s₁, s₂, s₃, rest, rfl⟩ headed
        | _ => rfl
      | _ => rfl
    · cases kind with
      | symbol sign =>
        cases sign with
        | prime => exact absurd rfl primed
        | _ => rfl
      | _ => rfl
  | _ => rfl

theorem readDisjunction_headed {word : String} {s₁ s₂ s₃ : Span} {rest : List Token}
    {lastEnd : Nat} : Enters (readArguments inner) ⟨rest, s₃.stop⟩ (readDisjunction inner)
      (.headed word s₁ s₂ s₃ rest lastEnd) :=
  have primary : Enters (readArguments inner) ⟨rest, s₃.stop⟩ (readPrimary inner)
      (.headed word s₁ s₂ s₃ rest lastEnd) := ⟨_, readPrimary_headed⟩
  primary.trans (readDisjunction_enters rfl)

theorem readStatement_apply (cursor : Cursor) (spans : SpanMap) :
    readStatement inner cursor spans = (readDefinitionHead inner >>= fun
      | some (name, parameters, body) => do
        let value ← inner.statement
        match define? name parameters body value with
        | .ok definition => located cursor.next.span.start definition
        | .error fault => throw (.invalidDefinition cursor.next.span.start fault)
      | none => readDisjunction inner) cursor spans := rfl

/-- Behind the head of a definition its value is read. -/
theorem readValue_recounts (statement : Recounted inner.statement (.term 0)) {word : String}
    {arguments : List Expr} {body : Expr} {start : Nat} (cursor : Cursor) :
    Recounts (do
      let value ← inner.statement
      match define? word arguments body value with
      | .ok definition => located start definition
      | .error fault => throw (.invalidDefinition start fault)) cursor
      fun definition after readings => ∃ names value tokens values,
        arguments = names.map .var ∧ definition = .define word names body value ∧
        cursor.Passes tokens after ∧ Reads (.term 0 value) tokens values ∧
        readings = values ++ [⟨definition, ⟨start, after.lastEnd⟩, true⟩] := by
  refine .bind (statement cursor) ?_
  rintro value after values ⟨tokens, passes, reads⟩
  split
  · next definition made =>
    obtain ⟨names, rfl, rfl⟩ := define?_eq_ok made
    exact .located true ⟨names, value, tokens, values, rfl, rfl, passes, reads, rfl⟩
  · exact .throw

section Statement

variable (loggedStatement : Logged inner.statement) (loggedOperand : Logged inner.operand)
variable (statement : Recounted inner.statement (.term 0))
variable (operand : Recounted inner.operand (.term 6))

include loggedStatement loggedOperand statement operand

theorem readStatement_headed {word : String} {s₁ s₂ s₃ : Span} {rest : List Token} {lastEnd : Nat} :
    Recounts (readStatement inner) (.headed word s₁ s₂ s₃ rest lastEnd)
      (Locates (.term 0) (.headed word s₁ s₂ s₃ rest lastEnd)) := by
  have disjunction := readDisjunction_recounted statement operand
  have loggedArguments := Logged.closed.arguments loggedStatement
  have loggedDisjunction := Logged.closed.disjunction loggedStatement loggedOperand
  have head : (Cursor.headed word s₁ s₂ s₃ rest lastEnd).Passes
      [⟨.name word, s₁⟩, ⟨.symbol .prime, s₂⟩, ⟨.symbol .openParen, s₃⟩] ⟨rest, s₃.stop⟩ :=
    ⟨rfl, rfl⟩
  intro spans spans' value after run
  obtain ⟨found, middle, spans₁, attempted, attempts⟩ :=
    readDefinitionHead_attempts inner word s₁ s₂ s₃ rest lastEnd spans
  rw [readStatement_apply, bind_apply, attempted] at run
  cases attempts with
  | arguments fails =>
    -- The disjunction begins with the same arguments and would fail there as well.
    obtain ⟨_, again⟩ := loggedArguments.error fails spans₁
    cases (readDisjunction_headed.error again).symm.trans run
  | equals given =>
    obtain ⟨entries, runs⟩ := loggedArguments.yields given
    cases given.symm.trans (runs spans)
    have run := (readDisjunction_headed.again runs spans).symm.trans run
    obtain ⟨readings, ⟨tokens, passes, reads⟩, rfl⟩ := disjunction _ run
    exact ⟨readings, ⟨tokens, passes, reads.tighter (by omega)⟩, rfl⟩
  | body given equals fails =>
    -- A comparison was read, so what follows its equals sign can be read.
    obtain ⟨tail, -, entries, runs⟩ := readDisjunction_alongside loggedStatement loggedOperand
      (loggedArguments.yields given) equals (loggedDisjunction.yields run)
    cases fails.symm.trans (runs _)
  | semicolon given equals defined =>
    -- The body that was read in vain ends where the comparison ends.
    obtain ⟨tail, left, yields⟩ := readDisjunction_alongside loggedStatement loggedOperand
      (loggedArguments.yields given) equals (loggedDisjunction.yields run)
    obtain ⟨rfl, rfl⟩ := (loggedDisjunction.yields defined).unique yields
    obtain ⟨heads, ⟨inside, s₄, passed, takes⟩, runs⟩ :=
      loggedArguments.recounts (readArguments_recounts statement _) given
    obtain ⟨tails, ⟨tokens, reached, defines⟩, rfl⟩ := disjunction _ defined
    obtain ⟨readings, ⟨tokens', passes, reads⟩, runs'⟩ :=
      loggedDisjunction.recounts (disjunction _) run
    have row := passes.unique (((head.trans passed).trans equals).trans reached)
    refine ⟨(heads ++ tails).map Reading.aside ++ readings, ⟨tokens', passes, ?_⟩, ?_⟩
    · exact .tried (by simpa using row) takes defines reads left fun _ _ =>
        readDisjunction_headed.first runs runs'
    · cases given.symm.trans (runs spans)
      cases run.symm.trans (runs' _)
      simp only [List.map_append, Reading.entry_aside, SpanMap.recordAll_append]
  | @definition arguments body _ _ _ middle _ _ _ _ given equals defined closes =>
    obtain ⟨_, ⟨names, value, after', values, rfl, rfl, passes, continues, rfl⟩, rfl⟩ :=
      readValue_recounts statement middle run
    obtain ⟨heads, ⟨inside, s₄, passed, takes⟩, rfl⟩ := readArguments_recounts statement _ given
    obtain ⟨bodies, ⟨tokens, reached, defines⟩, rfl⟩ := disjunction _ defined
    have whole := ((((head.trans passed).trans equals).trans reached).trans closes).trans passes
    simp only [List.append_assoc, List.cons_append, List.nil_append] at whole
    refine ⟨_, ⟨_, whole, whole.placed (.definition rfl takes defines continues)⟩, ?_⟩
    simp only [List.map_append, Reading.entry_aside, SpanMap.recordAll_append]

theorem readStatement_recounted : Recounted (readStatement inner) (.term 0) := by
  intro cursor
  by_cases headed : ∃ word s₁ s₂ s₃ rest, cursor.rest =
      ⟨.name word, s₁⟩ :: ⟨.symbol .prime, s₂⟩ :: ⟨.symbol .openParen, s₃⟩ :: rest
  · obtain ⟨word, s₁, s₂, s₃, rest, here⟩ := headed
    obtain ⟨_, lastEnd⟩ := cursor
    subst here
    exact readStatement_headed loggedStatement loggedOperand statement operand
  · have declined : ∀ spans, readDefinitionHead inner cursor spans = (.ok (none, cursor), spans) :=
      readDefinitionHead_unheaded headed
    intro spans spans' value after run
    rw [readStatement_apply, bind_apply, declined] at run
    obtain ⟨readings, ⟨tokens, passes, reads⟩, rfl⟩ :=
      readDisjunction_recounted statement operand _ run
    exact ⟨readings, ⟨tokens, passes, reads.tighter (by omega)⟩, rfl⟩

end Statement

theorem readers_recounted (depth : Nat) :
    Recounted (readers depth).statement (.term 0) ∧
      Recounted (readers depth).operand (.term 6) := by
  induction depth with
  | zero => exact ⟨fun _ => .unexpected, fun _ => .unexpected⟩
  | succ depth ih =>
    have logged := Logged.closed.readers depth
    exact ⟨readStatement_recounted logged.1 logged.2 ih.1 ih.2, readOperand_recounted ih.1 ih.2⟩

end Formulary.Expr
