import Formulary.Token.Lexer
import Formulary.Proofs.Decimal.Text
import Formulary.Proofs.Evaluation.Outcome

namespace Formulary

/-! Which tokens a text is divided into. A lexeme is read whatever comes behind it, as long as
    that does not carry it on. -/

namespace Text

/-- No range of the one list meets a range of the other. -/
def Ranges.disjoint (ranges others : Ranges) : Bool :=
  ranges.all fun range => others.all fun other => range.2 < other.1 || other.2 < range.1

theorem Ranges.contains_eq_false {ranges others : Ranges} {c : Char}
    (disjoint : ranges.disjoint others = true) (inside : ranges.contains c = true) :
    others.contains c = false := by
  obtain ⟨range, listed, within⟩ := List.any_eq_true.mp inside
  refine List.any_eq_false.mpr fun other listed' within' => ?_
  have apart := List.all_eq_true.mp (List.all_eq_true.mp disjoint range listed) other listed'
  simp only [Bool.or_eq_true, Bool.and_eq_true, decide_eq_true_eq] at apart within within'
  omega

end Text

namespace Token

open Text Digits

theorem isBlank_of_startsName {c : Char} (starts : startsName c = true) : isBlank c = false := by
  have apart : letterRanges.disjoint blankRanges = true := by decide +kernel
  rcases Bool.or_eq_true_iff.mp starts with letter | underscore
  · exact Ranges.contains_eq_false apart letter
  · rw [beq_iff_eq.mp underscore]
    decide +kernel

theorem contains_of_isDigit {c : Char} (digit : isDigit c = true) :
    Ranges.contains [(48, 57)] c = true := by
  simp only [isDigit, Bool.and_eq_true, decide_eq_true_eq] at digit
  simp only [Ranges.contains, List.any_cons, List.any_nil, Bool.or_false, Bool.and_eq_true,
    decide_eq_true_eq]
  exact digit

theorem startsName_of_isDigit {c : Char} (digit : isDigit c = true) : startsName c = false := by
  have apart : Ranges.disjoint [(48, 57)] letterRanges = true := by decide +kernel
  have letter : isLetter c = false := Ranges.contains_eq_false apart (contains_of_isDigit digit)
  simp [startsName, letter, ne_of_isDigit digit (rfl : isDigit '_' = false)]

theorem isBlank_of_isDigit {c : Char} (digit : isDigit c = true) : isBlank c = false :=
  Ranges.contains_eq_false (by decide +kernel) (contains_of_isDigit digit)

theorem isDigit_of_startsName {c : Char} (starts : startsName c = true) : isDigit c = false := by
  by_contra digit
  rw [startsName_of_isDigit (Bool.not_eq_false _ ▸ digit)] at starts
  cases starts

theorem eq_false_of_all (p : Char → Bool) {marks : List Char} {c : Char}
    (none_ : (marks.all fun c => !p c) = true) (listed : c ∈ marks) : p c = false := by
  simpa using List.all_eq_true.mp none_ c listed

/-- What can stand behind a word or a number of a printed formula. -/
inductive Breaks : List Char → Prop
  | nil : Breaks []
  | mark {c : Char} {rest : List Char} (listed : c ∈ [' ', ')', ',', ';', '!', '\'', '(']) :
      Breaks (c :: rest)
  | dot {c : Char} {rest : List Char} (starts : startsName c = true) : Breaks ('.' :: c :: rest)

theorem Breaks.takeWhile_continuesName {rest : List Char} (breaks : Breaks rest) :
    rest.takeWhile continuesName = [] := by
  cases breaks with
  | nil => rfl
  | @mark c rest listed =>
    have stops : continuesName c = false :=
      eq_false_of_all continuesName (by decide +kernel) listed
    rw [List.takeWhile_cons, stops]
    rfl
  | dot =>
    have stops : continuesName '.' = false := by decide +kernel
    rw [List.takeWhile_cons, stops]
    rfl

theorem Breaks.takeWhile_isDigit {rest : List Char} (breaks : Breaks rest) :
    rest.takeWhile isDigit = [] := by
  cases breaks with
  | nil | dot => rfl
  | @mark c rest listed =>
    have stops : isDigit c = false := eq_false_of_all isDigit (by decide) listed
    rw [List.takeWhile_cons, stops]
    rfl

theorem Breaks.fractionLexeme {rest : List Char} (breaks : Breaks rest) :
    fractionLexeme rest = [] := by
  cases breaks with
  | nil => rfl
  | @mark c rest listed =>
    have other : c ≠ '.' := by rintro rfl; simp at listed
    unfold Token.fractionLexeme
    split
    · simp_all
    · rfl
  | dot starts => simp [Token.fractionLexeme, isDigit_of_startsName starts]

theorem Breaks.exponentLexeme {rest : List Char} (breaks : Breaks rest) :
    exponentLexeme rest = [] := by
  cases breaks with
  | nil | dot => rfl
  | @mark c rest listed =>
    have other : (c == 'e' || c == 'E') = false :=
      eq_false_of_all (fun c => c == 'e' || c == 'E') (by decide) listed
    rw [Token.exponentLexeme, other]
    rfl

/-- Content between quotes as it is written. -/
def escaped (content : List Char) : List Char :=
  content.flatMap fun c => if c == '"' then ['\\', '"'] else [c]

/-! Lexemes one by one. -/

section Lexeme

variable {c : Char} {tail rest : List Char} (position : Nat)

theorem startsNumber_of_startsName (starts : startsName c = true) :
    startsNumber (c :: rest) = false := by
  have other : c ≠ '.' := by
    rintro rfl
    have stops : startsName '.' = false := by decide +kernel
    rw [stops] at starts
    cases starts
  unfold startsNumber
  split
  · simp_all
  · next same => exact (List.cons.inj same).1 ▸ isDigit_of_startsName starts
  · rfl

theorem lexeme_name (starts : startsName c = true) (continues : ∀ x ∈ tail, continuesName x = true)
    (breaks : Breaks rest) :
    lexeme position c (tail ++ rest) =
      .ok (.name (String.ofList (c :: tail)), (c :: tail).length) := by
  simp [lexeme, startsNumber_of_startsName starts, starts,
    List.takeWhile_append_of_pos continues, breaks.takeWhile_continuesName]

theorem quotedContent_escaped {content : List Char} (plain : '\\' ∉ content) :
    quotedContent (escaped content ++ '"' :: rest) =
      some (content, (escaped content).length + 1) := by
  induction content with
  | nil => rfl
  | cons c content ih =>
    have ih := ih (List.not_mem_of_not_mem_cons plain)
    have other : c ≠ '\\' := (List.ne_of_not_mem_cons plain).symm
    by_cases quote : c = '"'
    · subst quote
      have written : escaped ('"' :: content) = '\\' :: '"' :: escaped content := by
        simp [escaped]
      simp [written, quotedContent, unescape, ih]
    · have written : escaped (c :: content) = c :: escaped content := by simp [escaped, quote]
      simp [written, quotedContent, other, ih]

theorem lexeme_text {content : List Char} (plain : '\\' ∉ content) :
    lexeme position '"' (escaped content ++ '"' :: rest) =
      .ok (.text (String.ofList content), (escaped content).length + 2) := by
  have number : startsNumber ('"' :: (escaped content ++ '"' :: rest)) = false := rfl
  have name : startsName '"' = false := by decide +kernel
  simp [lexeme, number, name, quotedContent_escaped plain]

section Number

open Decimal (pointed powerChars)

theorem exponentLexeme_powerChars (power : Int) (breaks : Breaks rest) :
    exponentLexeme (powerChars power ++ rest) = powerChars power := by
  have digits : (Digits.ofNat power.natAbs ++ rest).takeWhile isDigit =
      Digits.ofNat power.natAbs := by
    rw [List.takeWhile_append_of_pos (allDigits_ofNat _), breaks.takeWhile_isDigit, List.append_nil]
  obtain ⟨first, others, written⟩ := List.exists_cons_of_ne_nil (ofNat_ne_nil power.natAbs)
  unfold powerChars
  split
  · exact breaks.exponentLexeme
  · split <;> simp [exponentLexeme, signedLexeme, digits] <;> simp [written]

theorem takeWhile_isDigit_powerChars (power : Int) (breaks : Breaks rest) :
    (powerChars power ++ rest).takeWhile isDigit = [] := by
  unfold powerChars
  split
  · exact breaks.takeWhile_isDigit
  · split <;> rfl

theorem fractionLexeme_pointed {fraction : List Char} (digits : AllDigits fraction) (power : Int)
    (breaks : Breaks rest) :
    fractionLexeme (pointed fraction ++ (powerChars power ++ rest)) = pointed fraction := by
  cases fraction with
  | nil =>
    change fractionLexeme (powerChars power ++ rest) = []
    unfold powerChars
    split
    · exact breaks.fractionLexeme
    · split <;> rfl
  | cons first fraction =>
    have others : ∀ c ∈ fraction, isDigit c = true := fun c member =>
      digits c (List.mem_cons_of_mem _ member)
    simp [pointed, fractionLexeme, digits first List.mem_cons_self,
      List.takeWhile_append_of_pos others, takeWhile_isDigit_powerChars power breaks]

theorem numberLexeme_numeral (n : Decimal.Numeral) (breaks : Breaks rest) :
    numberLexeme (n.chars ++ rest) = n.chars := by
  have whole : (n.chars ++ rest).takeWhile isDigit = n.whole := by
    rw [Decimal.Numeral.chars, List.append_assoc, List.takeWhile_append_of_pos n.whole_digits]
    have stops : (pointed n.fraction ++ powerChars n.power ++ rest).takeWhile isDigit = [] := by
      cases n.fraction with
      | nil => exact takeWhile_isDigit_powerChars n.power breaks
      | cons => rfl
    rw [stops, List.append_nil]
  have fraction : fractionLexeme ((n.chars ++ rest).drop n.whole.length) = pointed n.fraction := by
    simp [Decimal.Numeral.chars, fractionLexeme_pointed n.fraction_digits n.power breaks]
  have power : exponentLexeme ((n.chars ++ rest).drop
      (n.whole.length + (pointed n.fraction).length)) = powerChars n.power := by
    simp [Decimal.Numeral.chars, ← List.drop_drop, exponentLexeme_powerChars n.power breaks]
  simp only [numberLexeme, whole, fraction, power]
  simp [Decimal.Numeral.chars]

theorem lexeme_number {n : Decimal.Numeral} (fits : n.Fits) (breaks : Breaks rest)
    (written : n.chars = c :: tail) :
    lexeme position c (tail ++ rest) = .ok (.number n.decimal, (c :: tail).length) := by
  have first : isDigit c = true := by
    obtain ⟨first, others, whole⟩ := List.exists_cons_of_ne_nil n.whole_ne_nil
    have same : first = c := by
      rw [Decimal.Numeral.chars, whole] at written
      exact (List.cons.inj written).1
    exact n.whole_digits c (by simp [whole, same])
  have starts : startsNumber (c :: (tail ++ rest)) = true := by
    have other : c ≠ '.' := ne_of_isDigit first rfl
    unfold startsNumber
    split <;> simp_all
  have lexed := numberLexeme_numeral n breaks
  have parsed := Decimal.parseChars?_numeral fits
  rw [written] at lexed parsed
  rw [List.cons_append] at lexed
  simp only [lexeme, starts, if_true, lexed, parsed]

end Number

/-- The text does not begin with the second character of a longer sign, or with digits behind a
    point. -/
def EndsSign (sign : Symbol) (rest : List Char) : Prop :=
  match sign with
  | .tilde | .caret | .less | .greater => ∀ c ∈ rest.head?, c ∉ ['&', '|', '^', '=']
  | .dot => startsNumber ('.' :: rest) = false
  | _ => True

theorem starting?_append {sign : Symbol} (ends : EndsSign sign rest) :
    Symbol.starting? (sign.spelling.toList ++ rest) = some sign := by
  cases rest with
  | nil => cases sign <;> rfl
  | cons c rest =>
    cases sign with
    | tilde | caret | less | greater =>
      have other : ∀ d ∈ ['&', '|', '^', '='], (d == c) = false := fun d listed =>
        beq_eq_false_iff_ne.mpr fun same => ends c rfl (same ▸ listed)
      simp only [List.mem_cons, List.not_mem_nil, or_false, forall_eq_or_imp,
        forall_eq] at other
      simp [Symbol.starting?, Symbol.longestFirst, Symbol.spelling, List.isPrefixOf, other]
    | _ => rfl

theorem first_of_spelled {sign : Symbol} (spelled : sign.spelling.toList = c :: tail) :
    isBlank c = false ∧ startsName c = false ∧ (c == '"') = false ∧ isDigit c = false := by
  have listed : c ∈ sign.spelling.toList := by simp [spelled]
  have other := eq_false_of_all
    (fun c => isBlank c || (startsName c || (c == '"' || isDigit c)))
    (by cases sign <;> decide +kernel) listed
  simpa only [Bool.or_eq_false_iff] using other

theorem startsNumber_symbol {sign : Symbol} (ends : EndsSign sign rest)
    (spelled : sign.spelling.toList = c :: tail) : startsNumber (c :: (tail ++ rest)) = false := by
  have none := (first_of_spelled spelled).2.2.2
  cases sign with
  | dot =>
    obtain ⟨rfl, rfl⟩ : '.' = c ∧ [] = tail := by simpa [Symbol.spelling] using spelled
    exact ends
  | _ =>
    have other : c ≠ '.' := by
      rintro rfl
      simp [Symbol.spelling] at spelled
    unfold startsNumber
    split <;> simp_all

theorem lexeme_symbol {sign : Symbol} (ends : EndsSign sign rest)
    (spelled : sign.spelling.toList = c :: tail) :
    lexeme position c (tail ++ rest) = .ok (.symbol sign, (c :: tail).length) := by
  obtain ⟨-, name, quote, -⟩ := first_of_spelled spelled
  have found := starting?_append ends
  rw [spelled, List.cons_append] at found
  simp only [lexeme, startsNumber_symbol ends spelled, name, quote, found, Bool.false_eq_true,
    if_false, ← spelled, String.length_toList]

end Lexeme

/-- Words that are read as one name. -/
def isName (word : String) : Bool :=
  match word.toList with
  | [] => false
  | c :: rest => startsName c && rest.all continuesName

theorem isName_iff {word : String} :
    isName word = true ↔ ∃ c tail, word.toList = c :: tail ∧ startsName c = true ∧
      ∀ x ∈ tail, continuesName x = true := by
  unfold isName
  split
  · simp_all
  · simp_all

/-- The text is divided into tokens of these kinds, wherever it stands. -/
def Scans (text : List Char) (kinds : List TokenKind) : Prop :=
  ∀ ⦃fuel⦄ (position : Nat), text.length ≤ fuel →
    ∃ tokens, scanFrom fuel position text = .ok tokens ∧ tokens.map kind = kinds ++ [.finish]

namespace Scans

variable {c : Char} {tail rest : List Char} {kinds : List TokenKind}

theorem nil : Scans [] [] := by
  intro fuel position _
  cases fuel <;> exact ⟨_, rfl, rfl⟩

theorem blank (space : isBlank c = true) (others : Scans rest kinds) : Scans (c :: rest) kinds := by
  intro fuel position enough
  obtain ⟨fuel, rfl⟩ := Nat.exists_eq_add_one_of_ne_zero (Nat.ne_zero_of_lt enough)
  rw [scanFrom, if_pos space]
  exact others _ (Nat.le_of_succ_le_succ enough)

theorem token {kind : TokenKind} (tail : List Char) (visible : isBlank c = false)
    (found : ∀ position, lexeme position c (tail ++ rest) = .ok (kind, (c :: tail).length))
    (others : Scans rest kinds) : Scans (c :: tail ++ rest) (kind :: kinds) := by
  intro fuel position enough
  obtain ⟨fuel, rfl⟩ := Nat.exists_eq_add_one_of_ne_zero (Nat.ne_zero_of_lt enough)
  have left : (c :: (tail ++ rest)).drop (c :: tail).length = rest := by simp
  simp only [List.cons_append, List.length_cons, List.length_append] at enough
  let stop := position + byteLength ((c :: (tail ++ rest)).take (c :: tail).length)
  obtain ⟨tokens, scanned, same⟩ := others stop (show rest.length ≤ fuel by omega)
  refine ⟨⟨kind, position, stop⟩ :: tokens, ?_, by rw [List.map_cons, same]; rfl⟩
  rw [List.cons_append, scanFrom, if_neg (by simp [visible]), found]
  change (scanFrom fuel stop ((c :: (tail ++ rest)).drop _) >>= fun others => _) = _
  rw [left, scanned]
  rfl

theorem symbol (sign : Symbol) (ends : EndsSign sign rest) (others : Scans rest kinds) :
    Scans (sign.spelling.toList ++ rest) (.symbol sign :: kinds) := by
  obtain ⟨c, tail, spelled⟩ : ∃ c tail, sign.spelling.toList = c :: tail := by
    cases sign <;> exact ⟨_, _, rfl⟩
  rw [spelled]
  exact token tail (first_of_spelled spelled).1
    (fun position => lexeme_symbol position ends spelled) others

theorem text {content : String} (plain : '\\' ∉ content.toList) (others : Scans rest kinds) :
    Scans ('"' :: escaped content.toList ++ '"' :: rest) (.text content :: kinds) := by
  have quote : isBlank '"' = false := by decide +kernel
  rw [List.append_cons]
  refine token (escaped content.toList ++ ['"']) quote (fun position => ?_) others
  rw [List.append_assoc, List.singleton_append, lexeme_text position plain]
  simp

theorem name {word : String} (named : isName word = true) (breaks : Breaks rest)
    (others : Scans rest kinds) : Scans (word.toList ++ rest) (.name word :: kinds) := by
  obtain ⟨c, tail, spelled, starts, continues⟩ := isName_iff.mp named
  have same : word = String.ofList (c :: tail) := by rw [← spelled, String.ofList_toList]
  rw [spelled, same]
  exact token tail (isBlank_of_startsName starts)
    (fun position => lexeme_name position starts continues breaks) others

theorem number {n : Decimal.Numeral} (fits : n.Fits) (breaks : Breaks rest)
    (others : Scans rest kinds) : Scans (n.chars ++ rest) (.number n.decimal :: kinds) := by
  obtain ⟨c, tail, whole⟩ := List.exists_cons_of_ne_nil n.whole_ne_nil
  obtain ⟨tail, written⟩ : ∃ tail, n.chars = c :: tail := by
    rw [Decimal.Numeral.chars, whole]
    exact ⟨_, rfl⟩
  rw [written]
  exact token tail (isBlank_of_isDigit (n.whole_digits c (by simp [whole])))
    (fun position => lexeme_number position fits breaks written) others

end Scans

/-! What comes out of any text: names that are names, and numbers that are not negative. -/

theorem startsNumber_cases {text : List Char} (starts : startsNumber text = true) :
    ∃ c rest, isDigit c = true ∧ (text = c :: rest ∨ text = '.' :: c :: rest) := by
  unfold startsNumber at starts
  split at starts
  · next c rest => exact ⟨c, rest, starts, .inr rfl⟩
  · next c rest _ => exact ⟨c, rest, starts, .inl rfl⟩
  · cases starts

theorem startsNumber_numberLexeme {text : List Char} (starts : startsNumber text = true) :
    startsNumber (numberLexeme text) = true := by
  obtain ⟨c, rest, digit, rfl | rfl⟩ := startsNumber_cases starts
  · have other : c ≠ '.' := ne_of_isDigit digit rfl
    simp only [numberLexeme, List.takeWhile_cons, digit, if_true, List.cons_append]
    unfold startsNumber
    split <;> simp_all
  · have point : isDigit '.' = false := rfl
    simp [numberLexeme, fractionLexeme, digit, point, startsNumber]

theorem readSigned_nonneg {c : Char} {rest : List Char} {n : Int} (digit : isDigit c = true)
    (read : Decimal.readSigned (c :: rest) = some n) : 0 ≤ n := by
  unfold Decimal.readSigned at read
  split at read
  · next same => exact absurd (List.cons.inj same).1 (ne_of_isDigit digit rfl)
  · next same => exact absurd (List.cons.inj same).1 (ne_of_isDigit digit rfl)
  · obtain ⟨m, -, rfl⟩ := Option.map_eq_some_iff.mp read
    exact Int.natCast_nonneg m

theorem readPoint_nonneg {text : List Char} {n : Int} {places : Nat}
    (starts : startsNumber text = true) (read : Decimal.readPoint text = some (n, places)) :
    0 ≤ n := by
  obtain ⟨c, rest, digit, rfl | rfl⟩ := startsNumber_cases starts
  · have other : (c != '.') = true := bne_iff_ne.mpr (ne_of_isDigit digit rfl)
    simp only [Decimal.readPoint, List.takeWhile_cons, other, if_true] at read
    split at read
    all_goals
      obtain ⟨m, signed, same⟩ := Option.map_eq_some_iff.mp read
      cases same
      exact readSigned_nonneg digit signed
  · obtain ⟨m, signed, same⟩ := Option.map_eq_some_iff.mp
      (show (Decimal.readSigned (c :: rest)).map _ = some (n, places) from read)
    cases same
    exact readSigned_nonneg digit signed

theorem startsNumber_takeWhile {text : List Char} (starts : startsNumber text = true) :
    startsNumber (text.takeWhile fun c => !(c == 'e' || c == 'E')) = true := by
  obtain ⟨c, rest, digit, rfl | rfl⟩ := startsNumber_cases starts
  · have other : c ≠ '.' := ne_of_isDigit digit rfl
    simp only [List.takeWhile_cons, unmarked_of_isDigit digit, if_true]
    unfold startsNumber
    split <;> simp_all
  · have point : (!('.' == 'e' || '.' == 'E')) = true := rfl
    simp only [List.takeWhile_cons, point, unmarked_of_isDigit digit, if_true]
    exact digit

theorem parseChars?_lexical {text : List Char} {d : Decimal} (starts : startsNumber text = true)
    (read : Decimal.parseChars? text = some d) :
    d.isNegative = false ∧ Decimal.scaleFits d.scale = true := by
  simp only [Decimal.parseChars?] at read
  split at read
  · next exponent mantissa places _ point =>
      split at read
      · next fits =>
          cases read
          have positive := readPoint_nonneg (startsNumber_takeWhile starts) point
          exact ⟨by simpa [Decimal.isNegative] using positive, fits⟩
      · cases read
  · cases read

end Token

/-- Kinds that a text can give rise to. -/
def TokenKind.isLexical : TokenKind → Bool
  | .number value => !value.isNegative && Decimal.scaleFits value.scale
  | .name word => Token.isName word
  | _ => true

namespace Token

theorem lexeme_isLexical {position length : Nat} {c : Char} {rest : List Char} {kind : TokenKind}
    (found : lexeme position c rest = .ok (kind, length)) : kind.isLexical = true := by
  unfold lexeme at found
  split at found
  · next starts =>
      dsimp only at found
      split at found
      · next value read =>
          cases found
          obtain ⟨positive, fits⟩ := parseChars?_lexical (startsNumber_numberLexeme starts) read
          simp [TokenKind.isLexical, positive, fits]
      · cases found
  split at found
  · next starts =>
      cases found
      exact isName_iff.mpr ⟨c, _, String.toList_ofList, starts,
        List.all_eq_true.mp List.all_takeWhile⟩
  split at found
  all_goals
    split at found
    · cases found
      rfl
    · cases found

/-- What holds of the end mark, and stays true when a blank or a lexeme is put in front, holds of
    every text that is divided into tokens. -/
theorem scanFrom_induction {motive : Nat → List Char → List Token → Prop}
    (finish : ∀ position text, motive position text [⟨.finish, ⟨position, position⟩⟩])
    (blank : ∀ {position c rest tokens}, Text.isBlank c = true →
      motive (position + c.utf8Size) rest tokens → motive position (c :: rest) tokens)
    (lexed : ∀ {position c rest kind length tokens}, ¬Text.isBlank c = true →
      lexeme position c rest = .ok (kind, length) →
      motive (position + byteLength ((c :: rest).take length)) ((c :: rest).drop length) tokens →
        motive position (c :: rest)
          (⟨kind, ⟨position, position + byteLength ((c :: rest).take length)⟩⟩ :: tokens))
    {fuel position : Nat} {text : List Char} {tokens : List Token}
    (scanned : scanFrom fuel position text = .ok tokens) : motive position text tokens := by
  fun_induction scanFrom fuel position text generalizing tokens with
  | case1 fuel position c rest space ih => exact blank space (ih scanned)
  | case2 fuel position c rest visible ih =>
    obtain ⟨⟨kind, length⟩, found, scanned⟩ := bind_eq_ok.mp scanned
    obtain ⟨others, rest, same⟩ := bind_eq_ok.mp scanned
    cases same
    exact lexed visible found (ih _ rest)
  | case3 =>
    cases scanned
    exact finish _ _

theorem scanFrom_isLexical {fuel position : Nat} {text : List Char} {tokens : List Token}
    (scanned : scanFrom fuel position text = .ok tokens) :
    ∀ token ∈ tokens, token.kind.isLexical = true := by
  refine scanFrom_induction (motive := fun _ _ tokens => ∀ token ∈ tokens,
    token.kind.isLexical = true) ?_ (fun _ others => others) ?_ scanned
  · intro position text
    simp [TokenKind.isLexical]
  · intro position c rest kind length tokens _ found others
    exact List.forall_mem_cons.mpr ⟨lexeme_isLexical found, others⟩

end Token

end Formulary
