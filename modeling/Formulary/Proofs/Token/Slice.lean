import Formulary.Proofs.Token.Scan

namespace Formulary

/-! The text that a row of tokens stands for. It lies between the start of the first token and the
    end of the last one, and on its own it is divided into the same tokens. -/

theorem byteLength_append (front rest : List Char) :
    byteLength (front ++ rest) = byteLength front + byteLength rest := by
  induction front with
  | nil => simp [byteLength]
  | cons c front ih =>
    simp only [byteLength, List.cons_append, List.foldr_cons] at ih ⊢
    omega

theorem dropBytes_append (front rest : List Char) :
    dropBytes (byteLength front) (front ++ rest) = some rest := by
  induction front with
  | nil => cases rest <;> rfl
  | cons c front ih =>
    have bytes : byteLength (c :: front) = c.utf8Size + byteLength front := rfl
    have positive := c.utf8Size_pos
    obtain ⟨count, same⟩ : ∃ count, byteLength (c :: front) = count + 1 :=
      ⟨byteLength (c :: front) - 1, by omega⟩
    rw [same, List.cons_append, dropBytes, if_pos (by omega)]
    rwa [show count + 1 - c.utf8Size = byteLength front by omega]

theorem takeBytes_append (front rest : List Char) :
    takeBytes (byteLength front) (front ++ rest) = some front := by
  induction front with
  | nil => cases rest <;> rfl
  | cons c front ih =>
    have bytes : byteLength (c :: front) = c.utf8Size + byteLength front := rfl
    have positive := c.utf8Size_pos
    obtain ⟨count, same⟩ : ∃ count, byteLength (c :: front) = count + 1 :=
      ⟨byteLength (c :: front) - 1, by omega⟩
    rw [same, List.cons_append, takeBytes, if_pos (by omega),
      show count + 1 - c.utf8Size = byteLength front by omega, ih]
    rfl

theorem Span.slice_append {source : String} {before covered after : List Char} {start stop : Nat}
    (text : source.toList = before ++ (covered ++ after)) (starts : start = byteLength before)
    (stops : stop = start + byteLength covered) :
    Span.slice ⟨start, stop⟩ source = some (String.ofList covered) := by
  have order : start ≤ stop := by omega
  have width : stop - start = byteLength covered := by omega
  have dropped : dropBytes start (before ++ (covered ++ after)) = some (covered ++ after) :=
    starts ▸ dropBytes_append before (covered ++ after)
  simp [slice, text, order, width, dropped, takeBytes_append]

namespace Token

open Digits

/-- A lexeme leads its text, and stays the same when the text is cut behind it. -/
structure Leads (lexeme : List Char → List Char) : Prop where
  leads : ∀ text, lexeme text <+: text
  steady : ∀ text n, (lexeme text).length ≤ n → lexeme (text.take n) = lexeme text

namespace Leads

theorem nothing : Leads fun _ => [] where
  leads _ := List.nil_prefix
  steady _ _ _ := rfl

theorem takeWhile (p : Char → Bool) : Leads (·.takeWhile p) where
  leads _ := List.takeWhile_prefix p
  steady _ _ bound := by rw [← List.take_takeWhile, List.take_of_length_le bound]

theorem append {first second : List Char → List Char} (one : Leads first) (other : Leads second) :
    Leads fun text => first text ++ second (text.drop (first text).length) where
  leads text := by
    obtain ⟨rest, same⟩ := one.leads text
    have left : text.drop (first text).length = rest := by
      have dropped : (first text ++ rest).drop (first text).length = rest := List.drop_left
      rwa [same] at dropped
    obtain ⟨rest', same'⟩ := other.leads rest
    exact ⟨rest', by rw [left, List.append_assoc, same', same]⟩
  steady text n bound := by
    simp only [List.length_append] at bound
    rw [one.steady text n (by omega), List.drop_take, other.steady _ _ (by omega)]

theorem marked (mark : Char → Bool) {lexeme behind other : List Char → List Char}
    (empty : lexeme [] = [])
    (step : ∀ c rest, lexeme (c :: rest) =
      if mark c then if behind rest = [] then [] else c :: behind rest else other (c :: rest))
    (one : Leads behind) (two : Leads other) : Leads lexeme where
  leads text := by
    cases text with
    | nil => simp [empty]
    | cons c rest =>
      rw [step]
      split
      · split
        · exact List.nil_prefix
        · exact List.cons_prefix_cons.mpr ⟨rfl, one.leads rest⟩
      · exact two.leads _
  steady text n bound := by
    cases text with
    | nil => rw [List.take_nil]
    | cons c rest =>
      cases n with
      | zero => rw [List.take_zero, empty, List.length_eq_zero_iff.mp (Nat.le_zero.mp bound)]
      | succ n =>
        rw [step] at bound
        rw [List.take_succ_cons, step, step]
        by_cases found : mark c = true
        · simp only [found, if_true] at bound ⊢
          by_cases nothing : behind rest = []
          · simp [one.steady rest n (by simp [nothing]), nothing]
          · simp only [nothing, if_false, List.length_cons] at bound
            simp [one.steady rest n (by omega), nothing]
        · simp only [found, Bool.false_eq_true, if_false] at bound ⊢
          rw [← two.steady _ _ bound, List.take_succ_cons]

theorem signedLexeme : Leads signedLexeme := by
  refine marked (fun c => c == '+' || c == '-') rfl (fun c rest => ?_)
    (.takeWhile isDigit) (.takeWhile isDigit)
  simp only [Token.signedLexeme]
  cases rest.takeWhile isDigit <;> rfl

theorem exponentLexeme : Leads exponentLexeme := by
  refine marked (fun c => c == 'e' || c == 'E') rfl (fun c rest => ?_) signedLexeme nothing
  simp only [Token.exponentLexeme]
  cases Token.signedLexeme rest <;> rfl

theorem fractionLexeme : Leads fractionLexeme := by
  refine marked (fun c => c == '.') rfl (fun c rest => ?_) (.takeWhile isDigit) nothing
  by_cases point : c = '.'
  · subst point
    cases rest with
    | nil => rfl
    | cons digit rest =>
      by_cases found : isDigit digit = true <;> simp [Token.fractionLexeme, found]
  · simp [Token.fractionLexeme, point]

theorem numberLexeme : Leads numberLexeme := by
  have all := ((takeWhile isDigit).append fractionLexeme).append exponentLexeme
  simp only [List.length_append] at all
  exact all

end Leads

theorem quotedContent_take {text content : List Char} {length : Nat}
    (found : quotedContent text = some (content, length)) :
    length ≤ text.length ∧
      ∀ n, length ≤ n → quotedContent (text.take n) = some (content, length) := by
  fun_induction quotedContent text generalizing content length with
  | case1 => cases found
  | case2 rest =>
    cases found
    refine ⟨by simp, fun n bound => ?_⟩
    obtain ⟨n, rfl⟩ := Nat.exists_eq_add_of_le bound
    simp [Nat.add_comm 1, quotedContent]
  | case3 c rest ih =>
    obtain ⟨⟨content, length⟩, inner, same⟩ := Option.map_eq_some_iff.mp found
    cases same
    obtain ⟨inside, steady⟩ := ih inner
    refine ⟨by simpa using inside, fun n bound => ?_⟩
    obtain ⟨n, rfl⟩ := Nat.exists_eq_add_of_le' (Nat.le_of_add_left_le bound)
    simp [quotedContent, steady n (by omega)]
  | case4 c rest notQuote notEscape ih =>
    obtain ⟨⟨content, length⟩, inner, same⟩ := Option.map_eq_some_iff.mp found
    cases same
    obtain ⟨inside, steady⟩ := ih inner
    refine ⟨by simpa using inside, fun n bound => ?_⟩
    obtain ⟨n, rfl⟩ := Nat.exists_eq_add_of_le' (Nat.le_of_add_left_le bound)
    have escape : c ≠ '\\' := by
      rintro rfl
      cases rest with
      | nil => cases inner
      | cons next rest => exact notEscape next rest rfl rfl
    have inner := steady n (by omega)
    rw [List.take_succ_cons, quotedContent.eq_4 c _ notQuote fun _ _ same => absurd same escape]
    rw [inner]
    rfl

theorem starting?_take {text : List Char} {sign : Symbol}
    (found : Symbol.starting? text = some sign) :
    sign.spelling.length ≤ text.length ∧
      ∀ n, sign.spelling.length ≤ n → Symbol.starting? (text.take n) = some sign := by
  obtain ⟨leads, before, after, listed, others⟩ := List.find?_eq_some_iff_append.mp found
  rw [ List.isPrefixOf_iff_prefix] at leads
  refine ⟨?_, fun n bound => ?_⟩
  · rw [← String.length_toList]
    exact leads.length_le
  rw [← String.length_toList] at bound
  refine List.find?_eq_some_iff_append.mpr ⟨?_, before, after, listed, fun other member => ?_⟩
  · exact List.isPrefixOf_iff_prefix.mpr (List.prefix_take_iff.mpr ⟨leads, bound⟩)
  · have apart := others other member
    simp only [Bool.not_eq_true', Bool.eq_false_iff, ne_eq, List.isPrefixOf_iff_prefix] at apart ⊢
    exact fun longer => apart (longer.trans ( List.take_prefix n text))

theorem startsNumber_mono {front text : List Char} (leads : front <+: text)
    (starts : startsNumber front = true) : startsNumber text = true := by
  obtain ⟨rest, rfl⟩ := leads
  obtain ⟨c, tail, digit, rfl | rfl⟩ := startsNumber_cases starts
  · have other : c ≠ '.' := ne_of_isDigit digit rfl
    simp only [List.cons_append]
    unfold startsNumber
    split <;> simp_all
  · exact digit

theorem startsNumber_take {text : List Char} {n : Nat} (bound : (numberLexeme text).length ≤ n) :
    startsNumber (text.take n) = startsNumber text := by
  rw [Bool.eq_iff_iff]
  constructor
  · exact startsNumber_mono ( List.take_prefix n text)
  · intro starts
    exact startsNumber_mono (List.prefix_take_iff.mpr ⟨Leads.numberLexeme.leads text, bound⟩)
      (startsNumber_numberLexeme starts)

theorem lexeme_ne_finish {position length : Nat} {c : Char} {rest : List Char} {kind : TokenKind}
    (found : lexeme position c rest = .ok (kind, length)) : kind ≠ .finish := by
  rintro rfl
  unfold lexeme at found
  dsimp only at found
  repeat' split at found
  all_goals cases found

/-- A lexeme is not empty and lies inside the text, which can be cut anywhere behind it. -/
theorem lexeme_take {position length : Nat} {c : Char} {rest : List Char} {kind : TokenKind}
    (found : lexeme position c rest = .ok (kind, length)) :
    0 < length ∧ length ≤ (c :: rest).length ∧
      ∀ position n, length ≤ n + 1 → lexeme position c (rest.take n) = .ok (kind, length) := by
  unfold lexeme at found
  split at found
  · next starts =>
      dsimp only at found
      split at found
      · next value read =>
          cases found
          have some : numberLexeme (c :: rest) ≠ [] := by
            intro nothing
            have starts := startsNumber_numberLexeme starts
            rw [nothing] at starts
            cases starts
          refine ⟨List.length_pos_of_ne_nil some, (Leads.numberLexeme.leads _).length_le, ?_⟩
          intro position n bound
          have lexed := Leads.numberLexeme.steady _ _ bound
          have begun := (startsNumber_take bound).trans starts
          rw [List.take_succ_cons] at lexed begun
          simp only [lexeme, begun, if_true, lexed, read]
      · cases found
  · next other =>
      have unnumbered : ∀ n, startsNumber (c :: rest.take n) = false := by
        intro n
        rw [Bool.eq_false_iff]
        intro starts
        exact other (startsNumber_mono
          (List.cons_prefix_cons.mpr ⟨rfl, List.take_prefix n rest⟩) starts)
      split at found
      · next starts =>
          cases found
          refine ⟨Nat.succ_pos _, Nat.succ_le_succ ( List.takeWhile_prefix _).length_le, ?_⟩
          intro position n bound
          have word := (Leads.takeWhile continuesName).steady rest n (Nat.le_of_succ_le_succ bound)
          simp [lexeme, unnumbered, starts, word]
      · next unnamed =>
          split at found
          · next quote =>
              split at found
              · next content length inner =>
                  cases found
                  obtain ⟨inside, steady⟩ := quotedContent_take inner
                  refine ⟨Nat.succ_pos _, Nat.succ_le_succ inside, fun position n bound => ?_⟩
                  have inner := steady n (Nat.le_of_succ_le_succ bound)
                  simp [lexeme, unnumbered, unnamed, quote, inner]
              · cases found
          · next unquoted =>
              split at found
              · next sign spelled =>
                  cases found
                  obtain ⟨inside, steady⟩ := starting?_take spelled
                  refine ⟨by cases sign <;> decide, inside, fun position n bound => ?_⟩
                  have spelled := steady (n + 1) bound
                  rw [List.take_succ_cons] at spelled
                  simp [lexeme, unnumbered, unnamed, unquoted, spelled]
              · cases found

/-- Where the last of the tokens ends; without tokens, the position itself. -/
def endAfter (position : Nat) (tokens : List Token) : Nat :=
  tokens.foldl (fun _ token => token.span.stop) position

theorem endAfter_append (position : Nat) (front rest : List Token) :
    endAfter position (front ++ rest) = endAfter (endAfter position front) rest :=
  List.foldl_append

/-- From the start of the first token to the end of the last one. -/
def extent : List Token → Span
  | [] => ⟨0, 0⟩
  | first :: rest => ⟨first.span.start, endAfter first.span.stop rest⟩

/-- The text in front of a token is passed over, and what is left begins with the token. -/
theorem scanFrom_drop {fuel position : Nat} {text : List Char} {before after : List Token}
    {token : Token} (scanned : scanFrom fuel position text = .ok (before ++ token :: after)) :
    ∃ fuel passed rest, text = passed ++ rest ∧ token.span.start = position + byteLength passed ∧
      scanFrom fuel token.span.start rest = .ok (token :: after) := by
  fun_induction scanFrom fuel position text generalizing before with
  | case1 fuel position c rest blank ih =>
    obtain ⟨fuel, passed, rest, rfl, starts, left⟩ := ih scanned
    exact ⟨fuel, c :: passed, rest, rfl, by rw [starts]; exact Nat.add_assoc _ _ _, left⟩
  | case2 fuel position c rest visible ih =>
    obtain ⟨⟨kind, length⟩, found, divided⟩ := bind_eq_ok.mp scanned
    obtain ⟨others, divided, same⟩ := bind_eq_ok.mp divided
    replace same := Except.ok.inj same
    cases before with
    | nil =>
      obtain ⟨rfl, rfl⟩ := List.cons.inj same
      refine ⟨fuel + 1, [], c :: rest, rfl, rfl, ?_⟩
      rw [scanFrom, if_neg visible]
      exact scanned
    | cons first before =>
      obtain ⟨-, rfl⟩ := List.cons.inj same
      obtain ⟨fuel, passed, rest', dropped, starts, left⟩ := ih _ divided
      refine ⟨fuel, (c :: rest).take length ++ passed, rest', ?_, ?_, left⟩
      · rw [List.append_assoc, ← dropped, List.take_append_drop]
      · rw [starts, byteLength_append, Nat.add_assoc]
  | case3 fuel position text _ =>
    obtain ⟨rfl, same⟩ | ⟨-, none⟩ := List.singleton_eq_append_iff.mp (Except.ok.inj scanned)
    · obtain ⟨rfl, rfl⟩ := List.cons.inj same
      exact ⟨0, [], text, rfl, rfl, by cases text <;> rfl⟩
    · cases none

/-- The text up to the end of a token is divided into the tokens up to it. -/
theorem scanFrom_take {fuel position : Nat} {text : List Char} {front rest : List Token}
    {token : Token} (scanned : scanFrom fuel position text = .ok (front ++ token :: rest)) :
    ∃ covered left, text = covered ++ left ∧
      endAfter position front = position + byteLength covered ∧ Scans covered (front.map kind) := by
  refine scanFrom_induction (motive := fun position text tokens => ∀ {front rest : List Token}
    {token : Token}, tokens = front ++ token :: rest → ∃ covered left, text = covered ++ left ∧
      endAfter position front = position + byteLength covered ∧ Scans covered (front.map kind))
    ?_ ?_ ?_ scanned rfl
  · intro position text front rest token row
    obtain ⟨rfl, -⟩ | ⟨-, none⟩ := List.singleton_eq_append_iff.mp row
    · exact ⟨[], text, rfl, rfl, .nil⟩
    · cases none
  · intro position c text tokens blank ih front rest token row
    cases front with
    | nil => exact ⟨[], _, rfl, rfl, .nil⟩
    | cons first front =>
      obtain ⟨covered, left, rfl, ends, scans⟩ := ih row
      exact ⟨c :: covered, left, rfl, ends.trans (Nat.add_assoc _ _ _), scans.blank blank⟩
  · intro position c text kind length tokens visible found ih front rest token row
    cases front with
    | nil => exact ⟨[], _, rfl, rfl, .nil⟩
    | cons first front =>
      obtain ⟨rfl, same⟩ := List.cons.inj row
      obtain ⟨covered, left, dropped, ends, scans⟩ := ih same
      obtain ⟨positive, inside, steady⟩ := lexeme_take found
      obtain ⟨length, rfl⟩ := Nat.exists_eq_add_one_of_ne_zero (Nat.ne_of_gt positive)
      -- The lexeme found in the whole text is found in the part that is covered, too.
      obtain ⟨tail, behind, rfl, rfl⟩ : ∃ tail behind, text = tail ++ behind ∧
          tail.length = length :=
        ⟨text.take length, text.drop length, (List.take_append_drop length text).symm,
          List.length_take_of_le (Nat.le_of_succ_le_succ inside)⟩
      rw [List.drop_succ_cons, List.drop_left] at dropped
      subst dropped
      refine ⟨c :: tail ++ covered, left, by simp, ?_, .token tail (by simpa using visible)
        (fun position => ?_) scans⟩
      · refine ends.trans ?_
        rw [List.take_succ_cons, List.take_left, byteLength_append, Nat.add_assoc]
      · have found := steady position (tail ++ covered).length (by simp)
        rwa [← List.append_assoc, List.take_left] at found

theorem slice_extent {source : String} {tokens segment : List Token} {rest : Token}
    {before after : List Token} (scanned : scan source = .ok tokens)
    (row : tokens = before ++ (segment ++ rest :: after)) (some : segment ≠ []) :
    ∃ covered, (extent segment).slice source = .some (String.ofList covered) ∧
      Scans covered (segment.map kind) := by
  obtain ⟨first, others, rfl⟩ := List.exists_cons_of_ne_nil some
  rw [row] at scanned
  obtain ⟨fuel, passed, text, same, starts, divided⟩ := scanFrom_drop scanned
  have divided : scanFrom fuel first.span.start text =
      .ok ((first :: others) ++ rest :: after) := divided
  obtain ⟨covered, left, rfl, ends, scans⟩ := scanFrom_take divided
  rw [Nat.zero_add] at starts
  exact ⟨covered, Span.slice_append same starts ends, scans⟩

def Ordered (tokens : List Token) : Prop :=
  tokens.Pairwise fun one two => one.span.stop ≤ two.span.start

namespace Ordered

variable {token : Token} {front rest : List Token}

theorem tail (ordered : Ordered (token :: rest)) : Ordered rest := (List.pairwise_cons.mp ordered).2

theorem left (ordered : Ordered (front ++ rest)) : Ordered front :=
  (List.pairwise_append.mp ordered).1

theorem right (ordered : Ordered (front ++ rest)) : Ordered rest :=
  (List.pairwise_append.mp ordered).2.1

end Ordered

theorem endAfter_eq (position : Nat) (tokens : List Token) :
    endAfter position tokens = position ∨
      ∃ token ∈ tokens, endAfter position tokens = token.span.stop := by
  induction tokens generalizing position with
  | nil => exact .inl rfl
  | cons token tokens ih =>
    rcases ih token.span.stop with ends | ⟨last, member, ends⟩
    · exact .inr ⟨token, List.mem_cons_self, ends⟩
    · exact .inr ⟨last, List.mem_cons_of_mem _ member, ends⟩

theorem extent_stop {tokens : List Token} (some : tokens ≠ []) :
    ∃ token ∈ tokens, (extent tokens).stop = token.span.stop := by
  obtain ⟨first, rest, rfl⟩ := List.exists_cons_of_ne_nil some
  rcases endAfter_eq first.span.stop rest with ends | ⟨last, member, ends⟩
  · exact ⟨first, List.mem_cons_self, ends⟩
  · exact ⟨last, List.mem_cons_of_mem _ member, ends⟩

theorem extent_start {tokens : List Token} (some : tokens ≠ []) :
    ∃ token ∈ tokens, (extent tokens).start = token.span.start := by
  obtain ⟨first, rest, rfl⟩ := List.exists_cons_of_ne_nil some
  exact ⟨first, List.mem_cons_self, rfl⟩

theorem scanFrom_ordered {fuel position : Nat} {text : List Char} {tokens : List Token}
    (scanned : scanFrom fuel position text = .ok tokens) :
    Ordered tokens ∧ ∀ token ∈ tokens, position ≤ token.span.start := by
  refine scanFrom_induction (motive := fun position _ tokens => Ordered tokens ∧
    ∀ token ∈ tokens, position ≤ token.span.start) ?_ ?_ ?_ scanned
  · intro position text
    exact ⟨.cons (by simp) .nil, by simp⟩
  · rintro position c rest tokens _ ⟨ordered, later⟩
    exact ⟨ordered, fun token member => Nat.le_of_add_right_le (later token member)⟩
  · rintro position c rest kind length tokens _ _ ⟨ordered, later⟩
    refine ⟨.cons later ordered, List.forall_mem_cons.mpr ⟨Nat.le_refl _, ?_⟩⟩
    exact fun token member => Nat.le_of_add_right_le (later token member)

end Token

end Formulary
