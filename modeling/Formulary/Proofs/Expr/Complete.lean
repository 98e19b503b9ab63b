import Formulary.Proofs.Expr.Sound

namespace Formulary

/-! Whatever the grammar derives is read. A reading takes as many tokens as it can, so that what
    comes behind a phrase matters: a token that could carry the phrase on must not follow it. -/

/-- One more than the tightest level whose phrases the token can carry on. Only an end mark, a
    comma or a closing parenthesis ends a statement. -/
def TokenKind.reach : TokenKind → Nat
  | .finish | .symbol .comma | .symbol .closeParen => 0
  | .symbol .bar | .symbol .tildeBar | .symbol .doubleCaret | .symbol .tildeCaret => 2
  | .symbol .ampersand | .symbol .tildeAmpersand => 3
  | .symbol .equals | .symbol .tildeEquals | .symbol .less | .symbol .greater
  | .symbol .lessEquals | .symbol .greaterEquals => 4
  | .symbol .plus | .symbol .minus => 5
  | .symbol .star | .symbol .slash | .symbol .percent => 6
  | .symbol .caret => 8
  | .symbol .bang | .symbol .dot => 9
  | .symbol .prime | .symbol .openParen => 10
  | _ => 1

/-- The tokens begin with none that carries on a phrase of the level. -/
def Stops (level : Nat) (rest : List TokenKind) : Prop := (rest.headD .finish).reach ≤ level

theorem Stops.mono {level tighter : Nat} {rest : List TokenKind} (stops : Stops level rest)
    (bound : level ≤ tighter) : Stops tighter rest :=
  Nat.le_trans stops bound

theorem Stops.operand {rest : List TokenKind} (stops : Stops 7 rest) : Stops 6 rest := by
  unfold Stops at *
  generalize rest.headD .finish = kind at stops
  have gap : kind.reach ≠ 7 := by
    unfold TokenKind.reach
    split <;> decide
  omega

theorem Operator.reach_sign (op : Operator) :
    (TokenKind.symbol op.sign).reach = op.precedence + 1 := by
  cases op <;> rfl

namespace Expr

theorem operatorAt_of_stops {level : Nat} {rest : List TokenKind} (stops : Stops level rest) :
    operatorAt level (rest.headD .finish) = none := by
  cases found : operatorAt level (rest.headD .finish) with
  | none => rfl
  | some op =>
    obtain ⟨same, strength⟩ := of_operatorAt_eq_some found
    rw [Stops, same, op.reach_sign, strength] at stops
    omega

/-! A definition and a comparison can begin alike. They are told apart by the semicolon, which
    no expression has outside of parentheses. -/

/-- The tokens before the first that ends the expression around it, with `depth` parentheses
    open: a separator outside of parentheses, or a parenthesis that closes none of them. -/
def clause : Nat → List TokenKind → List TokenKind
  | _, [] => []
  | depth, .symbol .openParen :: rest => .symbol .openParen :: clause (depth + 1) rest
  | 0, .symbol .closeParen :: _ => []
  | depth + 1, .symbol .closeParen :: rest => .symbol .closeParen :: clause depth rest
  | 0, .symbol .semicolon :: _ => []
  | 0, .symbol .comma :: _ => []
  | 0, .finish :: _ => []
  | depth, kind :: rest => kind :: clause depth rest

end Expr

/-- A phrase without separators outside of its parentheses. -/
def Phrase.Closed : Phrase → Prop
  | .term level _ => 0 < level
  | .arguments _ => False

open Formulary.Expr (clause)

/-- Tokens that neither open or close a parenthesis nor separate. -/
def TokenKind.isPlain : TokenKind → Bool
  | .symbol .openParen | .symbol .closeParen | .symbol .semicolon | .symbol .comma => false
  | .finish => false
  | _ => true

theorem clause_plain {kind : TokenKind} (plain : kind.isPlain = true) (depth : Nat)
    (rest : List TokenKind) : clause depth (kind :: rest) = kind :: clause depth rest := by
  cases kind with
  | symbol sign => cases depth <;> cases sign <;> first | rfl | cases plain
  | finish => cases plain
  | _ => cases depth <;> rfl

@[simp] theorem Operator.isPlain_sign (op : Operator) :
    (TokenKind.symbol op.sign).isPlain = true := by
  cases op <;> rfl

theorem UnaryOperator.isPlain_of_spelled {op : UnaryOperator} {sign : Symbol}
    (spelled : sign.spelling = op.symbol) : (TokenKind.symbol sign).isPlain = true := by
  cases op <;> cases sign <;> first | rfl | simp [symbol, Symbol.spelling] at spelled

theorem Operator.precedence_pos (op : Operator) : 0 < op.precedence := by
  cases op <;> decide

theorem Derives.clause_append {phrase : Phrase} {tokens : List TokenKind}
    (derived : Derives phrase tokens) (depth : Nat) (closed : phrase.Closed ∨ 0 < depth)
    (rest : List TokenKind) : clause depth (tokens ++ rest) = tokens ++ clause depth rest := by
  induction derived generalizing depth rest with
  | definition word _ _ _ takes defines continues =>
    obtain _ | depth := depth
    · simp [Phrase.Closed] at closed
    · simp [clause, takes (depth + 2), defines (depth + 1), continues (depth + 1)]
  | tighter _ _ ih => exact ih depth (.inl (Nat.succ_pos _)) rest
  | chain leans strength spelled _ _ first second =>
    obtain rfl := Operator.eq_sign_of_spelled spelled
    have positive := strength ▸ Operator.precedence_pos _
    simp [clause_plain, first depth (.inl positive), second depth (.inl (Nat.succ_pos _))]
  | comparison _ spelled _ _ first second =>
    obtain rfl := Operator.eq_sign_of_spelled spelled
    simp [clause_plain, first depth, second depth, Phrase.Closed]
  | sign leads spelled _ ih =>
    simp [clause_plain (UnaryOperator.isPlain_of_spelled spelled), ih depth, Phrase.Closed]
  | power _ _ first second =>
    have caret : (TokenKind.symbol .caret).isPlain = true := rfl
    simp [clause_plain caret, first depth, second depth, Phrase.Closed]
  | factorial _ ih =>
    have bang : (TokenKind.symbol .bang).isPlain = true := rfl
    simp [clause_plain bang, ih depth, Phrase.Closed]
  | member word _ ih =>
    have dot : (TokenKind.symbol .dot).isPlain = true := rfl
    have name : (TokenKind.name word).isPlain = true := rfl
    simp [clause_plain dot, clause_plain name, ih depth, Phrase.Closed]
  | number | text | var => cases depth <;> rfl
  | call word _ ih | primed word _ ih => simp [clause, ih (depth + 1)]
  | parentheses _ ih => simp [clause, ih (depth + 1)]
  | none => rfl
  | last _ ih => exact ih depth (.inr (by simpa [Phrase.Closed] using closed)) rest
  | more _ _ first others =>
    obtain _ | depth := depth
    · simp [Phrase.Closed] at closed
    · simp [clause, first (depth + 1), others (depth + 1)]

theorem clause_of_stops {rest : List TokenKind} (stops : Stops 0 rest) : clause 0 rest = [] := by
  unfold Stops at stops
  rcases rest with _ | ⟨kind, rest⟩
  · rfl
  · cases kind with
    | symbol sign => cases sign <;> first | rfl | simp [TokenKind.reach] at stops
    | finish => rfl
    | _ => simp [TokenKind.reach] at stops

theorem Derives.finish_notMem {phrase : Phrase} {tokens : List TokenKind}
    (derived : Derives phrase tokens) : .finish ∉ tokens := by
  induction derived <;> simp_all

namespace Expr

open ParseM

variable {inner : Readers} {α : Type} {level size : Nat}

/-- The reading has this result and leaves these tokens. -/
abbrev Leaves (value : α) (rest : List TokenKind) (found : α) (after : List TokenKind) : Prop :=
  found = value ∧ after = rest

/-- A reading takes every phrase of the level that has at most `size` tokens, where nothing
    behind the phrase carries it on. -/
def ReadsAll (reading : ParseM Expr) (level size : Nat) : Prop :=
  ∀ ⦃expr words rest⦄, Derives (.term level expr) words → words.length ≤ size →
    Stops level rest → Runs reading (words ++ rest) (Leaves expr rest) False

theorem not_chain {op : Operator} (leans : op.LeansLeft) (strength : op.precedence = level)
    (other : level ∉ [1, 2, 4, 5]) : False :=
  other (strength ▸ Operator.leansLeft_iff.mp leans)

theorem readMoreArguments_complete (statement : ReadsAll inner.statement 0 size) {fuel : Nat}
    {arguments : List Expr} {words : List TokenKind} (rest : List TokenKind)
    (derived : Derives (.arguments arguments) words) (some : arguments ≠ [])
    (bound : words.length ≤ size) (enough : words.length ≤ fuel) :
    Runs (readMoreArguments inner fuel) (words ++ .symbol .closeParen :: rest)
      (Leaves arguments rest) False := by
  induction fuel generalizing arguments words with
  | zero =>
    cases derived with
    | none => exact absurd rfl some
    | last only =>
      obtain ⟨_, _, rfl, _⟩ := only.first_token
      simp at enough
    | more => simp at enough
  | succ fuel ih =>
    cases derived with
    | none => exact absurd rfl some
    | last only =>
      refine .bind (statement only bound (Nat.le_refl 0)) ?_
      rintro _ _ ⟨rfl, rfl⟩
      refine .skip (fun _ same => nomatch same) fun _ => .expect ?_ (absurd rfl)
      rintro _ ⟨⟩
      exact .pure ⟨rfl, rfl⟩
    | @more expr next others before after first others' =>
      simp only [List.length_append, List.length_cons] at bound enough
      rw [List.append_assoc, List.cons_append]
      refine .bind (statement first (by omega) (Nat.le_refl 0)) ?_
      rintro _ _ ⟨rfl, rfl⟩
      refine .skip ?_ (absurd rfl)
      rintro _ ⟨⟩
      refine .bind (ih others' (by simp) (by omega) (by omega)) ?_
      rintro _ _ ⟨rfl, rfl⟩
      exact .pure ⟨rfl, rfl⟩

theorem readArguments_complete (statement : ReadsAll inner.statement 0 size)
    {arguments : List Expr} {words : List TokenKind} (rest : List TokenKind)
    (derived : Derives (.arguments arguments) words) (bound : words.length ≤ size) :
    Runs (readArguments inner) (words ++ .symbol .closeParen :: rest)
      (Leaves arguments rest) False := by
  refine .skip ?_ ?_
  · intro after same
    cases derived with
    | none =>
      cases same
      exact .pure ⟨rfl, rfl⟩
    | last first | more first _ =>
      obtain ⟨kind, others, rfl, other, _⟩ := first.first_token
      exact absurd (List.cons.inj same).1 other
  · intro head
    refine .get fun cursor same => ?_
    have enough : words.length ≤ cursor.rest.length := by
      have lengths := congrArg List.length same
      simp [Cursor.kinds] at lengths
      omega
    refine readMoreArguments_complete statement rest derived ?_ bound enough
    rintro rfl
    cases derived
    exact head rfl

theorem readPrimary_complete (statement : ReadsAll inner.statement 0 size) :
    ReadsAll (readPrimary inner) 9 (size + 1) := by
  intro expr words rest derived bound stops
  refine .next fun token head => ?_
  rw [head]
  cases derived with
  | tighter loose => exact absurd loose (Nat.lt_irrefl 9)
  | chain leans strength => exact (not_chain leans strength (by simp)).elim
  | number value | text content => exact .advance (.located ⟨rfl, rfl⟩)
  | var word =>
    refine .advance (.skip ?_ fun _ => .skip ?_ fun _ => .located ⟨rfl, rfl⟩)
    · rintro after rfl
      simp [Stops, TokenKind.reach] at stops
    · rintro after rfl
      simp [Stops, TokenKind.reach] at stops
  | @call arguments inside word given =>
    simp only [List.length_cons, List.length_append] at bound
    simp only [List.cons_append, List.append_assoc, List.nil_append]
    refine .advance (.skip ?_ (absurd rfl))
    rintro _ ⟨⟩
    refine .bind (readArguments_complete statement rest given (by omega)) ?_
    rintro _ _ ⟨rfl, rfl⟩
    exact .located ⟨rfl, rfl⟩
  | @primed arguments inside word given =>
    simp only [List.length_cons, List.length_append] at bound
    simp only [List.cons_append, List.append_assoc, List.nil_append]
    refine .advance (.skip (fun _ same => nomatch same) fun _ => .skip ?_ (absurd rfl))
    rintro _ ⟨⟩
    refine .expect ?_ (absurd rfl)
    rintro _ ⟨⟩
    refine .bind (readArguments_complete statement rest given (by omega)) ?_
    rintro _ _ ⟨rfl, rfl⟩
    exact .located ⟨rfl, rfl⟩
  | parentheses within =>
    simp only [List.length_cons, List.length_append] at bound
    simp only [List.cons_append, List.append_assoc, List.nil_append]
    refine .advance (.bind (statement within (by omega) (Nat.le_refl 0)) ?_)
    rintro _ _ ⟨rfl, rfl⟩
    refine .expect ?_ (absurd rfl)
    rintro _ ⟨⟩
    exact .located ⟨rfl, rfl⟩

theorem Cursor.length_rest {cursor : Cursor} {given : List TokenKind}
    (same : cursor.kinds = given) : cursor.rest.length = given.length := by
  rw [← same, kinds, List.length_map]

/-- Suffixes are read one by one behind the operand, so that what is read of a phrase and its
    continuation is the continuation of the phrase. -/
theorem readPostfix_continues (statement : ReadsAll inner.statement 0 size) {expr : Expr}
    {words : List TokenKind} (derived : Derives (.term 8 expr) words)
    (bound : words.length ≤ size + 1) {rest : List TokenKind} (stops : Stops 9 rest)
    {final : Expr → List TokenKind → Prop} (continues : ∀ start fuel, rest.length ≤ fuel →
      Runs (readSuffixes start fuel expr) rest final False) :
    Runs (readPostfix inner) (words ++ rest) final False := by
  induction derived using Derives.suffix_induction generalizing rest with
  | single _ derived =>
    refine .start fun start => .bind (readPrimary_complete statement derived bound stops) ?_
    rintro _ _ ⟨rfl, rfl⟩
    exact .get fun cursor same => continues start _ (Nat.le_of_eq (Cursor.length_rest same).symm)
  | factorial _ ih =>
    rw [List.append_assoc]
    simp only [List.length_append, List.length_singleton] at bound
    refine ih (by omega) (Nat.le_refl 9) ?_
    intro start fuel enough
    obtain ⟨fuel, rfl⟩ := Nat.exists_eq_add_one_of_ne_zero (Nat.ne_zero_of_lt enough)
    simp only [List.singleton_append, List.length_cons, Nat.add_le_add_iff_right] at enough
    refine .skip ?_ (absurd rfl)
    rintro _ ⟨⟩
    exact .recorded (continues start fuel enough)
  | member word _ ih =>
    rw [List.append_assoc]
    simp only [List.length_append, List.length_cons, List.length_nil] at bound
    refine ih (by omega) (Nat.le_refl 9) ?_
    intro start fuel enough
    obtain ⟨fuel, rfl⟩ := Nat.exists_eq_add_one_of_ne_zero (Nat.ne_zero_of_lt enough)
    simp only [List.cons_append, List.nil_append, List.length_cons,
      Nat.add_le_add_iff_right] at enough
    refine .skip (fun _ same => nomatch same) fun _ => .skip ?_ (absurd rfl)
    rintro _ ⟨⟩
    refine .next fun token head => ?_
    rw [head]
    exact .advance (.recorded (continues start fuel (by omega)))

theorem readPostfix_complete (statement : ReadsAll inner.statement 0 size) :
    ReadsAll (readPostfix inner) 8 (size + 1) := by
  intro expr words rest derived bound stops
  refine readPostfix_continues statement derived bound (stops.mono (by omega)) ?_
  intro start fuel _
  cases fuel with
  | zero => exact .pure ⟨rfl, rfl⟩
  | succ fuel =>
    refine .skip ?_ fun _ => .skip ?_ fun _ => .pure ⟨rfl, rfl⟩
    · rintro after rfl
      simp [Stops, TokenKind.reach] at stops
    · rintro after rfl
      simp [Stops, TokenKind.reach] at stops

theorem readPower_complete (statement : ReadsAll inner.statement 0 size)
    (operand : ReadsAll inner.operand 6 size) : ReadsAll (readPower inner) 7 (size + 1) := by
  have suffixed := readPostfix_complete statement
  intro expr words rest derived bound stops
  cases derived with
  | tighter _ derived =>
    refine .start fun _ => .bind (suffixed derived bound (stops.mono (by omega))) ?_
    rintro _ _ ⟨rfl, rfl⟩
    refine .skip ?_ fun _ => .pure ⟨rfl, rfl⟩
    rintro after rfl
    simp [Stops, TokenKind.reach] at stops
  | chain leans strength => exact (not_chain leans strength (by simp)).elim
  | power first second =>
    simp only [List.length_append, List.length_cons] at bound
    rw [List.append_assoc]
    refine .start fun _ => .bind (suffixed first (by omega) (Nat.le_refl 8)) ?_
    rintro _ _ ⟨rfl, rfl⟩
    refine .skip ?_ (absurd rfl)
    rintro _ ⟨⟩
    refine .bind (operand second (by omega) stops.operand) ?_
    rintro _ _ ⟨rfl, rfl⟩
    exact .located ⟨rfl, rfl⟩

theorem signOperator_of_spelled {op : UnaryOperator} {sign : Symbol} (leads : op ≠ .factorial)
    (spelled : sign.spelling = op.symbol) : signOperator (.symbol sign) = some op := by
  cases op with
  | negate =>
    obtain rfl : sign = .minus := Symbol.spelling_injective spelled
    rfl
  | not =>
    obtain rfl : sign = .tilde := Symbol.spelling_injective spelled
    rfl
  | factorial => exact absurd rfl leads

theorem readOperand_complete (statement : ReadsAll inner.statement 0 size)
    (operand : ReadsAll inner.operand 6 size) : ReadsAll (readOperand inner) 6 (size + 1) := by
  intro expr words rest derived bound stops
  refine .next fun token head => ?_
  cases derived with
  | tighter _ derived =>
    obtain ⟨kind, others, rfl, _, unsigned⟩ := derived.first_token
    rw [head]
    simp only [List.cons_append, List.headD_cons, unsigned (Nat.le_refl 7)]
    exact readPower_complete statement operand derived bound (stops.mono (by omega))
  | chain leans strength => exact (not_chain leans strength (by simp)).elim
  | sign leads spelled within =>
    rw [head]
    simp only [List.cons_append, List.headD_cons, signOperator_of_spelled leads spelled]
    simp only [List.length_cons] at bound
    refine .advance (.bind (operand within (by omega) stops) ?_)
    rintro _ _ ⟨rfl, rfl⟩
    exact .located ⟨rfl, rfl⟩

theorem readChain_continues {operand : ParseM Expr} (level_mem : level ∈ [1, 2, 4, 5])
    (complete : ReadsAll operand (level + 1) size) {expr : Expr} {words : List TokenKind}
    (derived : Derives (.term level expr) words) (bound : words.length ≤ size)
    {rest : List TokenKind} (stops : Stops (level + 1) rest)
    {final : Expr → List TokenKind → Prop} (continues : ∀ start fuel, rest.length ≤ fuel →
      Runs (readChainFrom start (operatorAt level) operand fuel expr) rest final False) :
    Runs (readChain (operatorAt level) operand) (words ++ rest) final False := by
  induction derived using Derives.chain_induction generalizing rest with
  | level_mem => exact level_mem
  | single _ derived =>
    refine .start fun start => .bind (complete derived bound stops) ?_
    rintro _ _ ⟨rfl, rfl⟩
    exact .get fun cursor same => continues start _ (Nat.le_of_eq (Cursor.length_rest same).symm)
  | @step op sign left right before after leans strength spelled first second ih =>
    obtain rfl := Operator.eq_sign_of_spelled spelled
    simp only [List.length_append, List.length_cons] at bound
    rw [List.append_assoc]
    -- The chain in front of the operator is read first, and then goes on with it.
    refine ih (by omega) (Nat.le_of_eq (by simp [op.reach_sign, strength])) ?_
    intro start fuel enough
    obtain ⟨fuel, rfl⟩ := Nat.exists_eq_add_one_of_ne_zero (Nat.ne_zero_of_lt enough)
    simp only [List.cons_append, List.length_cons, List.length_append] at enough
    refine .next fun token head => ?_
    rw [head]
    have found : operatorAt level (.symbol op.sign) = some op :=
      strength ▸ operatorAt_sign op leans.2
    simp only [List.cons_append, List.headD_cons, found]
    refine .advance (.bind (complete second (by omega) stops) ?_)
    rintro _ _ ⟨rfl, rfl⟩
    exact .recorded (continues start fuel (by omega))

theorem readChain_complete {operand : ParseM Expr} (level_mem : level ∈ [1, 2, 4, 5])
    (complete : ReadsAll operand (level + 1) size) :
    ReadsAll (readChain (operatorAt level) operand) level size := by
  intro expr words rest derived bound stops
  refine readChain_continues level_mem complete derived bound (stops.mono (by omega)) ?_
  intro start fuel _
  cases fuel with
  | zero => exact .pure ⟨rfl, rfl⟩
  | succ fuel =>
    refine .next fun token head => ?_
    rw [head, operatorAt_of_stops stops]
    exact .pure ⟨rfl, rfl⟩

theorem readSum_complete (statement : ReadsAll inner.statement 0 size)
    (operand : ReadsAll inner.operand 6 size) : ReadsAll (readSum inner) 4 (size + 1) :=
  have product : ReadsAll (readChain (operatorAt 5) (readOperand inner)) 5 (size + 1) :=
    readChain_complete (by simp) (readOperand_complete statement operand)
  (readChain_complete (by simp) product : ReadsAll (readChain (operatorAt 4) _) 4 (size + 1))

theorem readComparison_complete (statement : ReadsAll inner.statement 0 size)
    (operand : ReadsAll inner.operand 6 size) :
    ReadsAll (readComparison inner) 3 (size + 1) := by
  have sum := readSum_complete statement operand
  intro expr words rest derived bound stops
  have ended : comparisonOperator (rest.headD .finish) = none := operatorAt_of_stops stops
  cases derived with
  | tighter _ derived =>
    refine .start fun _ => .bind (sum derived bound (stops.mono (by omega))) ?_
    rintro _ _ ⟨rfl, rfl⟩
    refine .next fun token head => ?_
    rw [head, ended]
    exact .pure ⟨rfl, rfl⟩
  | chain leans strength => exact (not_chain leans strength (by simp)).elim
  | @comparison op _ _ _ before after compares spelled first second =>
    obtain rfl := Operator.eq_sign_of_spelled spelled
    have strength := Operator.isComparison_iff.mp compares
    have found : comparisonOperator (.symbol op.sign) = some op := by
      have found := operatorAt_sign op (by rintro rfl; cases compares)
      rwa [strength] at found
    simp only [List.length_append, List.length_cons] at bound
    rw [List.append_assoc]
    refine .start fun _ => .bind (sum first (by omega)
      (Nat.le_of_eq (by simp [op.reach_sign, strength]))) ?_
    rintro _ _ ⟨rfl, rfl⟩
    refine .next fun token head => ?_
    rw [head]
    simp only [List.cons_append, List.headD_cons, found]
    refine .advance (.bind (sum second (by omega) (stops.mono (by omega))) ?_)
    rintro _ _ ⟨rfl, rfl⟩
    refine .next fun token head => ?_
    rw [head, ended]
    exact .located ⟨rfl, rfl⟩

theorem readDisjunction_complete (statement : ReadsAll inner.statement 0 size)
    (operand : ReadsAll inner.operand 6 size) :
    ReadsAll (readDisjunction inner) 1 (size + 1) :=
  have conjunction : ReadsAll (readChain (operatorAt 2) (readComparison inner)) 2 (size + 1) :=
    readChain_complete (by simp) (readComparison_complete statement operand)
  (readChain_complete (by simp) conjunction : ReadsAll (readChain (operatorAt 1) _) 1 (size + 1))

theorem readDefinitionHead_complete (statement : ReadsAll inner.statement 0 size)
    (operand : ReadsAll inner.operand 6 size) {parameters : List Expr} {body : Expr}
    {inside defined : List TokenKind} (name : String) (rest : List TokenKind)
    (takes : Derives (.arguments parameters) inside) (defines : Derives (.term 1 body) defined)
    (bound : inside.length ≤ size ∧ defined.length ≤ size) :
    Runs (readDefinitionHead inner) (.name name :: .symbol .prime :: .symbol .openParen ::
        (inside ++ .symbol .closeParen :: .symbol .equals ::
          (defined ++ .symbol .semicolon :: rest)))
      (Leaves (some (name, parameters, body)) rest) False := by
  refine .attempt (.get fun cursor same => ?_)
  obtain ⟨tokens, lastEnd⟩ := cursor
  match tokens, same with
  | ⟨_, _⟩ :: ⟨_, _⟩ :: ⟨_, _⟩ :: tail, same =>
    simp only [Cursor.kinds, List.map_cons, List.cons.injEq] at same
    obtain ⟨rfl, rfl, rfl, _⟩ := same
    refine .advance (.advance (.advance (.bind
      ((readArguments_complete statement _ takes bound.1).weaken
        (fun _ _ found => found) False.elim) ?_)))
    rintro _ _ ⟨rfl, rfl⟩
    refine .skip ?_ (absurd rfl)
    rintro _ ⟨⟩
    have ended : Stops 1 (.symbol .semicolon :: rest) := Nat.le_refl 1
    refine .bind ((readDisjunction_complete statement operand defines
      (Nat.le_succ_of_le bound.2) ended).weaken (fun _ _ found => found) False.elim) ?_
    rintro _ _ ⟨rfl, rfl⟩
    refine .skip ?_ (absurd rfl)
    rintro _ ⟨⟩
    exact .pure ⟨rfl, rfl⟩

/-- In front of an expression that ends a statement there is no definition: the semicolon of a
    definition would end the expression before. -/
theorem readDefinitionHead_declines (statement : Sound inner.statement (.term 0))
    (operand : Sound inner.operand (.term 6)) {expr : Expr} {words rest : List TokenKind}
    (derived : Derives (.term 1 expr) words) (stops : Stops 0 rest) :
    Runs (readDefinitionHead inner) (words ++ rest) (Leaves none (words ++ rest)) False := by
  refine (readDefinitionHead_sound statement operand (words ++ rest)).weaken ?_ id
  rintro (_ | ⟨name, parameters, body⟩) after found
  · exact ⟨rfl, found⟩
  · obtain ⟨inside, defined, same, takes, defines⟩ := found
    -- Both start at the same token, so that they have the same tokens up to the first semicolon
    -- outside of parentheses. The definition goes on there, and the expression has ended.
    have equals : (TokenKind.symbol .equals).isPlain = true := rfl
    have before : words = .name name :: .symbol .prime :: .symbol .openParen ::
        (inside ++ .symbol .closeParen :: .symbol .equals :: defined) := by
      have call := (Derives.primed name takes).clause_append 0 (.inl (by simp [Phrase.Closed]))
        (.symbol .equals :: (defined ++ .symbol .semicolon :: after))
      have body := defines.clause_append 0 (.inl (by simp [Phrase.Closed]))
        (.symbol .semicolon :: after)
      have whole := derived.clause_append 0 (.inl (by simp [Phrase.Closed])) rest
      simp only [List.cons_append, List.append_assoc, List.nil_append, clause_plain equals,
        body] at call
      rw [same, call, clause_of_stops stops] at whole
      simpa [clause] using whole.symm
    obtain rfl : rest = .symbol .semicolon :: after := by simpa [before] using same
    simp [Stops, TokenKind.reach] at stops

theorem define?_var (name : String) (names : List String) (body value : Expr) :
    define? name (names.map var) body value = .ok (define name names body value) := by
  refine bind_eq_ok.mpr ⟨names, ?_, rfl⟩
  induction names with
  | nil => rfl
  | cons first names ih =>
    rw [List.map_cons, List.mapM_cons, ih]
    rfl

theorem readStatement_complete
    (sound : Sound inner.statement (.term 0) ∧ Sound inner.operand (.term 6))
    (statement : ReadsAll inner.statement 0 size) (operand : ReadsAll inner.operand 6 size) :
    ReadsAll (readStatement inner) 0 (size + 1) := by
  intro expr words rest derived bound stops
  cases derived with
  | tighter _ derived =>
    refine .start fun _ => .bind (readDefinitionHead_declines sound.1 sound.2 derived stops) ?_
    rintro _ _ ⟨rfl, rfl⟩
    exact readDisjunction_complete statement operand derived bound (stops.mono (by omega))
  | chain leans strength => exact (not_chain leans strength (by simp)).elim
  | @definition parameters body value inside defined after name takes defines continues =>
    simp only [List.length_cons, List.length_append] at bound
    simp only [List.cons_append, List.append_assoc]
    refine .start fun _ => .bind (readDefinitionHead_complete statement operand name _
      takes defines (by omega)) ?_
    rintro _ _ ⟨rfl, rfl⟩
    refine .bind (statement continues (by omega) stops) ?_
    rintro _ _ ⟨rfl, rfl⟩
    simp only [define?_var]
    exact .located ⟨rfl, rfl⟩

theorem readers_complete (depth : Nat) :
    ReadsAll (readers depth).statement 0 depth ∧ ReadsAll (readers depth).operand 6 depth := by
  induction depth with
  | zero =>
    -- No phrase is without tokens.
    constructor <;>
    · intro expr words rest derived bound _
      obtain ⟨_, _, rfl, _⟩ := derived.first_token
      simp at bound
  | succ depth ih =>
    exact ⟨readStatement_complete (readers_sound depth) ih.1 ih.2,
      readOperand_complete ih.1 ih.2⟩

end Expr

end Formulary
