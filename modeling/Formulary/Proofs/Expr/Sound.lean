import Formulary.Proofs.Evaluation.Outcome
import Formulary.Proofs.Expr.Reading

namespace Formulary

/-! Whatever is read is derived from the grammar. -/

namespace Symbol

theorem starting?_spelling (sign : Symbol) : starting? sign.spelling.toList = some sign := by
  cases sign <;> rfl

theorem spelling_injective {sign other : Symbol} (same : sign.spelling = other.spelling) :
    sign = other := by
  have found := starting?_spelling sign
  rw [same, starting?_spelling other] at found
  exact (Option.some.inj found).symm

end Symbol

namespace Operator

def sign : Operator → Symbol
  | add => .plus
  | sub => .minus
  | mul => .star
  | div => .slash
  | rem => .percent
  | power => .caret
  | and => .ampersand
  | nand => .tildeAmpersand
  | or => .bar
  | nor => .tildeBar
  | xor => .doubleCaret
  | xnor => .tildeCaret
  | equal => .equals
  | unequal => .tildeEquals
  | less => .less
  | greater => .greater
  | atMost => .lessEquals
  | atLeast => .greaterEquals

theorem spelling_sign (op : Operator) : op.sign.spelling = op.symbol := by
  cases op <;> rfl

theorem eq_sign_of_spelled {op : Operator} {sign : Symbol} (spelled : sign.spelling = op.symbol) :
    sign = op.sign :=
  Symbol.spelling_injective (spelled.trans op.spelling_sign.symm)

end Operator

namespace Expr

/-- Operators between the operands of a level, by the tokens that stand for them. -/
def operatorAt : Nat → TokenKind → Option Operator
  | 1 => orOperator
  | 2 => andOperator
  | 3 => comparisonOperator
  | 4 => sumOperator
  | 5 => productOperator
  | _ => fun _ => none

theorem operatorAt_sign (op : Operator) (other : op ≠ .power) :
    operatorAt op.precedence (.symbol op.sign) = some op := by
  cases op <;> simp_all [Operator.precedence, Operator.sign] <;> rfl

theorem of_operatorAt_eq_some {level : Nat} {kind : TokenKind} {op : Operator}
    (found : operatorAt level kind = some op) :
    kind = .symbol op.sign ∧ op.precedence = level := by
  unfold operatorAt at found
  split at found
  case h_6 => cases found
  all_goals
    simp only [orOperator, andOperator, comparisonOperator, sumOperator, productOperator] at found
    split at found <;> cases found <;> simp [Operator.sign, Operator.precedence]

theorem of_signOperator_eq_some {kind : TokenKind} {op : UnaryOperator}
    (found : signOperator kind = some op) :
    ∃ sign, kind = .symbol sign ∧ sign.spelling = op.symbol ∧ op ≠ .factorial := by
  unfold signOperator at found
  split at found <;> cases found
  · exact ⟨.minus, rfl, rfl, by simp⟩
  · exact ⟨.tilde, rfl, rfl, by simp⟩

theorem define?_eq_ok {name : String} {parameters : List Expr} {body value definition : Expr}
    (made : define? name parameters body value = .ok definition) :
    ∃ names : List String, parameters = names.map var ∧
      definition = define name names body value := by
  unfold define? at made
  obtain ⟨names, read, done⟩ := bind_eq_ok.mp made
  refine ⟨names, ?_, (Except.ok.inj done).symm⟩
  clear made done
  induction parameters generalizing names with
  | nil =>
    rw [List.mapM_nil] at read
    cases read
    rfl
  | cons parameter parameters ih =>
    rw [List.mapM_cons] at read
    obtain ⟨word, first, read⟩ := bind_eq_ok.mp read
    obtain ⟨words, others, read⟩ := bind_eq_ok.mp read
    cases read
    cases parameter <;> cases first
    rw [ih words others]
    rfl

open ParseM

variable {inner : Readers} {α : Type} {level : Nat}

/-- The tokens that a reading has taken are derived as a phrase for its result. -/
def Takes (phrase : α → Phrase) (given : List TokenKind) (value : α) (rest : List TokenKind) :
    Prop :=
  ∃ words, given = words ++ rest ∧ Derives (phrase value) words

/-- A reading takes only phrases of the grammar. -/
def Sound (reading : ParseM α) (phrase : α → Phrase) : Prop :=
  ∀ given, Runs reading given (Takes phrase given) True

theorem readMoreArguments_sound (statement : Sound inner.statement (.term 0)) (fuel : Nat)
    (given : List TokenKind) :
    Runs (readMoreArguments inner fuel) given (fun arguments rest => arguments ≠ [] ∧
      Takes .arguments given arguments (.symbol .closeParen :: rest)) True := by
  induction fuel generalizing given with
  | zero => exact .unexpected trivial
  | succ fuel ih =>
    refine .bind (statement given) ?_
    rintro argument _ ⟨words, rfl, derived⟩
    refine .skip ?_ fun _ => .expect ?_ fun _ => trivial
    · rintro rest rfl
      refine .bind (ih rest) ?_
      rintro _ rest' ⟨some, words', rfl, derived'⟩
      obtain ⟨next, others, rfl⟩ := List.exists_cons_of_ne_nil some
      exact .pure ⟨by simp, words ++ .symbol .comma :: words', by simp, .more derived derived'⟩
    · rintro rest rfl
      exact .pure ⟨by simp, words, rfl, .last derived⟩

theorem readArguments_sound (statement : Sound inner.statement (.term 0))
    (given : List TokenKind) :
    Runs (readArguments inner) given
      (fun arguments rest => Takes .arguments given arguments (.symbol .closeParen :: rest))
      True := by
  refine .skip (fun rest same => .pure ⟨[], same, .none⟩) fun _ => .get fun _ _ => ?_
  exact (readMoreArguments_sound statement _ given).weaken (fun _ _ taken => taken.2) id

theorem readPrimary_sound (statement : Sound inner.statement (.term 0)) :
    Sound (readPrimary inner) (.term 9) := by
  intro given
  refine .next fun token head => ?_
  rcases given with _ | ⟨kind, rest⟩
  · rw [head]
    exact .bind (.unexpected trivial) fun _ _ (impossible : False) => impossible.elim
  · simp only [List.headD_cons] at head
    rw [head]
    cases kind with
    | number value => exact .advance (.located ⟨[_], rfl, .number value⟩)
    | text content => exact .advance (.located ⟨[_], rfl, .text content⟩)
    | name word =>
      refine .advance (.skip ?_ fun _ => .skip ?_ fun _ => .located ⟨[_], rfl, .var word⟩)
      · rintro rest rfl
        refine .bind (readArguments_sound statement rest) ?_
        rintro arguments rest ⟨words, rfl, derived⟩
        exact .located ⟨_, by simp, .call word derived⟩
      · rintro rest rfl
        refine .expect ?_ fun _ => trivial
        rintro rest rfl
        refine .bind (readArguments_sound statement rest) ?_
        rintro arguments rest ⟨words, rfl, derived⟩
        exact .located ⟨_, by simp, .primed word derived⟩
    | symbol sign =>
      by_cases opened : sign = .openParen
      · subst opened
        refine .advance (.bind (statement rest) ?_)
        rintro expr _ ⟨words, rfl, derived⟩
        refine .expect ?_ fun _ => trivial
        rintro rest rfl
        exact .located ⟨_, by simp, .parentheses derived⟩
      · cases sign <;> first
          | exact absurd rfl opened
          | exact .bind (.unexpected trivial) fun _ _ (impossible : False) => impossible.elim
    | finish => exact .bind (.unexpected trivial) fun _ _ (impossible : False) => impossible.elim

theorem readSuffixes_sound {start fuel : Nat} {expr : Expr} {before : List TokenKind}
    (derived : Derives (.term 8 expr) before) (given : List TokenKind) :
    Runs (readSuffixes start fuel expr) given (fun expr rest => ∃ words,
      given = words ++ rest ∧ Derives (.term 8 expr) (before ++ words)) True := by
  induction fuel generalizing expr before given with
  | zero => exact .pure ⟨[], rfl, by simpa using derived⟩
  | succ fuel ih =>
    refine .skip ?_ fun _ => .skip ?_ fun _ => .pure ⟨[], rfl, by simpa using derived⟩
    · rintro rest rfl
      refine .recorded ((ih (.factorial derived) rest).weaken ?_ id)
      rintro expr _ ⟨words, rfl, derived⟩
      exact ⟨.symbol .bang :: words, rfl, by simpa using derived⟩
    · rintro rest rfl
      refine .next fun token head => ?_
      split
      · next word same =>
        obtain ⟨rest, rfl⟩ := exists_of_headD (same ▸ head) (by simp)
        refine .advance (.recorded ((ih (.member word derived) rest).weaken ?_ id))
        rintro expr _ ⟨words, rfl, derived⟩
        exact ⟨.symbol .dot :: .name word :: words, rfl, by simpa using derived⟩
      · exact .unexpected trivial

theorem readPostfix_sound (statement : Sound inner.statement (.term 0)) :
    Sound (readPostfix inner) (.term 8) := by
  intro given
  refine .start fun _ => .bind (readPrimary_sound statement given) ?_
  rintro expr rest ⟨words, rfl, derived⟩
  refine .get fun _ _ => (readSuffixes_sound (.tighter (by omega) derived) rest).weaken ?_ id
  rintro expr _ ⟨words', rfl, derived⟩
  exact ⟨words ++ words', by simp, derived⟩

theorem readPower_sound (statement : Sound inner.statement (.term 0))
    (operand : Sound inner.operand (.term 6)) : Sound (readPower inner) (.term 7) := by
  intro given
  refine .start fun _ => .bind (readPostfix_sound statement given) ?_
  rintro base _ ⟨words, rfl, derived⟩
  refine .skip ?_ fun _ => .pure ⟨words, rfl, .tighter (by omega) derived⟩
  rintro rest rfl
  refine .bind (operand rest) ?_
  rintro exponent rest ⟨words', rfl, derived'⟩
  exact .located ⟨_, by simp, .power derived derived'⟩

theorem readOperand_sound (statement : Sound inner.statement (.term 0))
    (operand : Sound inner.operand (.term 6)) : Sound (readOperand inner) (.term 6) := by
  intro given
  refine .next fun token head => ?_
  split
  · next op found =>
    obtain ⟨sign, same, spelled, leads⟩ := of_signOperator_eq_some found
    obtain ⟨rest, rfl⟩ := exists_of_headD (same ▸ head) (by simp)
    refine .advance (.bind (operand rest) ?_)
    rintro expr rest ⟨words, rfl, derived⟩
    exact .located ⟨_, rfl, .sign leads spelled derived⟩
  · refine (readPower_sound statement operand given).weaken ?_ id
    rintro expr rest ⟨words, same, derived⟩
    exact ⟨words, same, .tighter (by omega) derived⟩

theorem readChainFrom_sound {start fuel : Nat} {operand : ParseM Expr} {left : Expr}
    {before : List TokenKind} (level_mem : level ∈ [1, 2, 4, 5])
    (sound : Sound operand (.term (level + 1))) (derived : Derives (.term level left) before)
    (given : List TokenKind) :
    Runs (readChainFrom start (operatorAt level) operand fuel left) given (fun expr rest =>
      ∃ words, given = words ++ rest ∧ Derives (.term level expr) (before ++ words)) True := by
  induction fuel generalizing left before given with
  | zero => exact .pure ⟨[], rfl, by simpa using derived⟩
  | succ fuel ih =>
    refine .next fun token head => ?_
    split
    · next op found =>
      obtain ⟨same, strength⟩ := of_operatorAt_eq_some found
      obtain ⟨rest, rfl⟩ := exists_of_headD (same ▸ head) (by simp)
      have leans := Operator.leansLeft_iff.mpr (strength ▸ level_mem)
      refine .advance (.bind (sound rest) ?_)
      rintro right rest ⟨words, rfl, derived'⟩
      refine .recorded ((ih (.chain leans strength op.spelling_sign derived derived')
        rest).weaken ?_ id)
      rintro expr _ ⟨words', rfl, derived⟩
      exact ⟨.symbol op.sign :: (words ++ words'), by simp, by simpa using derived⟩
    · exact .pure ⟨[], rfl, by simpa using derived⟩

theorem readChain_sound {operand : ParseM Expr} (level_mem : level ∈ [1, 2, 4, 5])
    (sound : Sound operand (.term (level + 1))) :
    Sound (readChain (operatorAt level) operand) (.term level) := by
  intro given
  refine .start fun _ => .bind (sound given) ?_
  rintro left rest ⟨words, rfl, derived⟩
  have loose : level < 9 := by
    simp only [List.mem_cons, List.not_mem_nil, or_false] at level_mem
    omega
  refine .get fun _ _ =>
    (readChainFrom_sound level_mem sound (.tighter loose derived) rest).weaken ?_ id
  rintro expr _ ⟨words', rfl, derived⟩
  exact ⟨words ++ words', by simp, derived⟩

theorem readSum_sound (statement : Sound inner.statement (.term 0))
    (operand : Sound inner.operand (.term 6)) : Sound (readSum inner) (.term 4) :=
  have product : Sound (readChain (operatorAt 5) (readOperand inner)) (.term 5) :=
    readChain_sound (by simp) (readOperand_sound statement operand)
  (readChain_sound (by simp) product : Sound (readChain (operatorAt 4) _) (.term 4))

theorem readComparison_sound (statement : Sound inner.statement (.term 0))
    (operand : Sound inner.operand (.term 6)) : Sound (readComparison inner) (.term 3) := by
  have sum := readSum_sound statement operand
  intro given
  refine .start fun _ => .bind (sum given) ?_
  rintro left rest ⟨words, rfl, derived⟩
  refine .next fun token head => ?_
  split
  · next op found =>
    obtain ⟨same, strength⟩ : _ ∧ op.precedence = 3 := of_operatorAt_eq_some found
    obtain ⟨rest, rfl⟩ := exists_of_headD (same ▸ head) (by simp)
    refine .advance (.bind (sum rest) ?_)
    rintro right rest ⟨words', rfl, derived'⟩
    refine .next fun after _ => ?_
    split
    · exact .bind (.throw trivial) fun _ _ (impossible : False) => impossible.elim
    · have compares := Operator.isComparison_iff.mpr strength
      exact .located ⟨_, by simp, .comparison compares op.spelling_sign derived derived'⟩
  · exact .pure ⟨words, rfl, .tighter (by omega) derived⟩

theorem readDisjunction_sound (statement : Sound inner.statement (.term 0))
    (operand : Sound inner.operand (.term 6)) : Sound (readDisjunction inner) (.term 1) :=
  have conjunction : Sound (readChain (operatorAt 2) (readComparison inner)) (.term 2) :=
    readChain_sound (by simp) (readComparison_sound statement operand)
  (readChain_sound (by simp) conjunction : Sound (readChain (operatorAt 1) _) (.term 1))

theorem readDefinitionHead_sound (statement : Sound inner.statement (.term 0))
    (operand : Sound inner.operand (.term 6)) (given : List TokenKind) :
    Runs (readDefinitionHead inner) given (fun found rest =>
      match found with
      | none => rest = given
      | some (name, parameters, body) => ∃ inside defined,
          given = .name name :: .symbol .prime :: .symbol .openParen ::
            (inside ++ .symbol .closeParen :: .symbol .equals ::
              (defined ++ .symbol .semicolon :: rest)) ∧
          Derives (.arguments parameters) inside ∧ Derives (.term 1 body) defined) False := by
  refine .attempt (.get fun cursor same => ?_)
  split
  · next name _ _ _ tail shape =>
    have same : given = .name name :: .symbol .prime :: .symbol .openParen ::
        tail.map Token.kind := by
      rw [← same, Cursor.kinds, shape]
      rfl
    subst same
    refine .advance (.advance (.advance (.bind
      ((readArguments_sound statement _).weaken (fun _ _ taken => taken) fun _ => rfl) ?_)))
    rintro parameters rest ⟨inside, same, derived⟩
    refine .skip ?_ fun _ => .pure rfl
    rintro rest rfl
    refine .bind ((readDisjunction_sound statement operand rest).weaken
      (fun _ _ taken => taken) fun _ => rfl) ?_
    rintro body _ ⟨defined, rfl, derived'⟩
    refine .skip ?_ fun _ => .pure rfl
    rintro rest rfl
    exact .pure ⟨inside, defined, by rw [same], derived, derived'⟩
  · exact .pure rfl

theorem readStatement_sound (statement : Sound inner.statement (.term 0))
    (operand : Sound inner.operand (.term 6)) : Sound (readStatement inner) (.term 0) := by
  intro given
  refine .start fun _ => .bind ((readDefinitionHead_sound statement operand given).weaken
    (fun _ _ found => found) False.elim) ?_
  rintro (_ | ⟨name, parameters, body⟩) rest found
  · subst found
    refine (readDisjunction_sound statement operand rest).weaken ?_ id
    rintro expr _ ⟨words, same, derived⟩
    exact ⟨words, same, .tighter (by omega) derived⟩
  · obtain ⟨inside, defined, rfl, takes, defines⟩ := found
    refine .bind (statement rest) ?_
    rintro value _ ⟨words, rfl, continues⟩
    split
    · next definition made =>
      obtain ⟨names, rfl, rfl⟩ := define?_eq_ok made
      exact .located ⟨_, by simp, .definition name takes defines continues⟩
    · exact .throw trivial

theorem readers_sound (depth : Nat) :
    Sound (readers depth).statement (.term 0) ∧ Sound (readers depth).operand (.term 6) := by
  induction depth with
  | zero => exact ⟨fun _ => .unexpected trivial, fun _ => .unexpected trivial⟩
  | succ depth ih => exact ⟨readStatement_sound ih.1 ih.2, readOperand_sound ih.1 ih.2⟩

end Expr

end Formulary
