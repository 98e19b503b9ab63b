import Formulary.Proofs.Token.Slice

namespace Formulary

/-! A text that is divided into tokens is not changed by it. Its tokens lie in it one behind the
    other, there is white space and nothing else between them, and each of them is read as the same
    token when it stands alone. A text that cannot be divided has a first character with which no
    token begins, and the error names its place. -/

theorem byteLength_eq (text : List Char) : byteLength text = (String.ofList text).utf8ByteSize := by
  induction text with
  | nil => rfl
  | cons c text ih =>
    rw [String.ofList_cons, String.utf8ByteSize_append, String.utf8ByteSize_singleton, ← ih]
    rfl

theorem byteLength_pos {text : List Char} (some : text ≠ []) : 0 < byteLength text := by
  obtain ⟨c, rest, rfl⟩ := List.exists_cons_of_ne_nil some
  exact Nat.add_pos_left c.utf8Size_pos _

/-- An offset between two characters of a text, or at one of its ends. -/
def IsBoundary (source : String) (offset : Nat) : Prop := String.Pos.Raw.IsValid source ⟨offset⟩

namespace IsBoundary

variable {source : String} {before after : List Char} {offset : Nat}

theorem of_append (text : source.toList = before ++ after) :
    IsBoundary source (byteLength before) := by
  refine String.Pos.Raw.isValid_iff_exists_append.mpr
    ⟨String.ofList before, String.ofList after, ?_, ?_⟩
  · rw [← String.ofList_append, ← text, String.ofList_toList]
  · rw [byteLength_eq]
    rfl

theorem le (boundary : IsBoundary source offset) : offset ≤ source.utf8ByteSize :=
  String.Pos.Raw.IsValid.le_utf8ByteSize boundary

end IsBoundary

/-- The error has no position, or one that cuts no character of the source. -/
def ParseError.PointsInto (error : ParseError) (source : String) : Prop :=
  ∀ position ∈ error.position?, IsBoundary source position

namespace Token

open Text

/-- A text that is one token of the kind, and nothing else. -/
structure Alone (text : List Char) (kind : TokenKind) : Prop where
  nonempty : text ≠ []
  not_finish : kind ≠ .finish
  scan_eq : scan (String.ofList text) =
    .ok [⟨kind, ⟨0, byteLength text⟩⟩, ⟨.finish, ⟨byteLength text, byteLength text⟩⟩]

theorem lexeme_position? {position : Nat} {c : Char} {rest : List Char} {error : ParseError}
    (failed : lexeme position c rest = .error error) : error.position? = some position := by
  simp only [lexeme] at failed
  repeat' split at failed
  all_goals cases failed <;> rfl

theorem scanFrom_nil (fuel position : Nat) :
    scanFrom fuel position [] = .ok [⟨.finish, ⟨position, position⟩⟩] := by
  cases fuel <;> rfl

theorem lexeme_alone {position length : Nat} {c : Char} {rest : List Char} {kind : TokenKind}
    (visible : ¬ isBlank c = true) (found : lexeme position c rest = .ok (kind, length)) :
    Alone ((c :: rest).take length) kind := by
  obtain ⟨positive, inside, steady⟩ := lexeme_take found
  obtain ⟨length, rfl⟩ := Nat.exists_eq_add_one_of_ne_zero (Nat.ne_of_gt positive)
  have tail : (rest.take length).length = length :=
    List.length_take_of_le (Nat.le_of_succ_le_succ inside)
  have cut := steady 0 length (Nat.le_refl _)
  rw [List.take_succ_cons]
  refine ⟨by simp, lexeme_ne_finish found, ?_⟩
  have whole : (c :: rest.take length).length = length + 1 := by rw [List.length_cons, tail]
  rw [scan, String.toList_ofList, whole, scanFrom, if_neg visible, cut]
  change (scanFrom length _ _ >>= fun others => _) = _
  rw [← whole, List.drop_length, List.take_length, scanFrom_nil, Nat.zero_add]
  rfl

/-- A text from a position on, as a row of tokens with white space in front of each. -/
inductive Divides : Nat → List Char → List Token → Prop
  | finish {position : Nat} (blanks : List Char) (blank : blanks.all isBlank = true) :
      Divides position blanks
        [⟨.finish, ⟨position + byteLength blanks, position + byteLength blanks⟩⟩]
  | token {position : Nat} {covered rest : List Char} {kind : TokenKind} {tokens : List Token}
      (blanks : List Char) (blank : blanks.all isBlank = true) (alone : Alone covered kind)
      (others : Divides (position + byteLength blanks + byteLength covered) rest tokens) :
      Divides position (blanks ++ (covered ++ rest))
        (⟨kind, ⟨position + byteLength blanks,
          position + byteLength blanks + byteLength covered⟩⟩ :: tokens)

theorem Divides.blank {position : Nat} {c : Char} {rest : List Char} {tokens : List Token}
    (space : isBlank c = true) (divides : Divides (position + c.utf8Size) rest tokens) :
    Divides position (c :: rest) tokens := by
  have further (blanks : List Char) : position + c.utf8Size + byteLength blanks =
      position + byteLength (c :: blanks) := Nat.add_assoc _ _ _
  cases divides with
  | finish blanks blank =>
    rw [further]
    exact finish (c :: rest) (by simp [space, blank])
  | token blanks blank alone others =>
    rw [further] at others ⊢
    exact token (c :: blanks) (by simp [space, blank]) alone others

/-- The error has a position in the text, which starts at `start`, that cuts no character. -/
def FailsIn (start : Nat) (text : List Char) (error : ParseError) : Prop :=
  ∃ passed rest, text = passed ++ rest ∧ error.position? = some (start + byteLength passed)

theorem FailsIn.further {start : Nat} {front rest : List Char} {error : ParseError}
    (fails : FailsIn (start + byteLength front) rest error) :
    FailsIn start (front ++ rest) error := by
  obtain ⟨passed, rest, rfl, position⟩ := fails
  refine ⟨front ++ passed, rest, (List.append_assoc _ _ _).symm, ?_⟩
  rw [position, byteLength_append, Nat.add_assoc]

theorem scanFrom_settles {fuel position : Nat} {text : List Char} (enough : text.length ≤ fuel) :
    Settles (Divides position text) (FailsIn position text) (scanFrom fuel position text) := by
  fun_induction scanFrom fuel position text with
  | case1 fuel position c rest space ih =>
    refine (ih (Nat.le_of_succ_le_succ enough)).weaken (fun _ => .blank space) fun error fails => ?_
    have fails : FailsIn (position + byteLength [c]) rest error := fails
    exact fails.further
  | case2 fuel position c rest visible ih =>
    have lexed : Settles (fun lexed => lexeme position c rest = .ok lexed)
        (FailsIn position (c :: rest)) (lexeme position c rest) := by
      cases found : lexeme position c rest with
      | ok lexed => rfl
      | error error => exact ⟨[], c :: rest, rfl, lexeme_position? found⟩
    refine lexed.bind ?_
    rintro ⟨kind, length⟩ found
    have shorter : ((c :: rest).drop length).length ≤ fuel := by
      have positive := (lexeme_take found).1
      simp only [List.length_drop, List.length_cons] at enough ⊢
      omega
    have whole := List.take_append_drop length (c :: rest)
    refine ((ih length shorter).weaken (fun _ => id) fun _ fails => ?_).bind ?_
    · exact whole ▸ fails.further
    · intro others divides
      have row := Divides.token [] rfl (lexeme_alone visible found) divides
      rwa [List.nil_append, whole] at row
  | case3 fuel position text ended =>
    cases text with
    | nil => exact .finish [] rfl
    | cons c rest =>
      obtain ⟨fuel, rfl⟩ := Nat.exists_eq_add_one_of_ne_zero (Nat.ne_zero_of_lt enough)
      exact absurd rfl (ended fuel c rest rfl)

/-- The token has a place in the source that is not empty and does not cut a character, and the
    text there is this token when it stands alone. -/
structure LiesIn (token : Token) (source : String) : Prop where
  nonempty : token.span.start < token.span.stop
  starts : IsBoundary source token.span.start
  stops : IsBoundary source token.span.stop
  again : ∃ text, token.span.slice source = some text ∧
    scan text = .ok [⟨token.kind, ⟨0, text.utf8ByteSize⟩⟩,
      ⟨.finish, ⟨text.utf8ByteSize, text.utf8ByteSize⟩⟩]

/-- From the end of the one span to the start of the other there is white space only. -/
def BlankBetween (source : String) (one two : Span) : Prop :=
  ∃ gap, Span.slice ⟨one.stop, two.start⟩ source = some gap ∧ isBlankText gap = true

/-- The tokens cover the source up to white space: the last one marks the end, the others lie in the
    source in their order and without overlaps. -/
structure Covers (source : String) (tokens : List Token) : Prop where
  words : ∃ words, tokens = words ++ [⟨.finish, ⟨source.utf8ByteSize, source.utf8ByteSize⟩⟩] ∧
    ∀ token ∈ words, token.kind ≠ .finish ∧ token.LiesIn source
  ordered : Ordered tokens
  gaps : (⟨0, 0⟩ :: tokens.map span).IsChain (BlankBetween source)

theorem Divides.places {source : String} {before : List Char} {position : Nat} {text : List Char}
    {tokens : List Token} (divides : Divides position text tokens)
    (whole : source.toList = before ++ text) (starts : position = byteLength before) :
    (∃ words, tokens = words ++ [⟨.finish, ⟨source.utf8ByteSize, source.utf8ByteSize⟩⟩] ∧
      ∀ token ∈ words, token.kind ≠ .finish ∧ token.LiesIn source) ∧
    ∀ start, (⟨start, position⟩ :: tokens.map span).IsChain (BlankBetween source) := by
  induction divides generalizing before with
  | @finish position blanks blank =>
    have ends : position + byteLength blanks = source.utf8ByteSize := by
      rw [starts, ← byteLength_append, ← whole, byteLength_eq, String.ofList_toList]
    have sliced : Span.slice ⟨position, position + byteLength blanks⟩ source =
        some (String.ofList blanks) :=
      Span.slice_append (whole.trans (by rw [List.append_nil])) starts rfl
    refine ⟨⟨[], by rw [ends]; rfl, by simp⟩, fun start => ?_⟩
    exact .cons_cons ⟨_, sliced, by simpa [isBlankText] using blank⟩ (.singleton _)
  | @token position covered rest kind tokens blanks blank alone others ih =>
    have passed : position + byteLength blanks = byteLength (before ++ blanks) := by
      rw [starts, byteLength_append]
    have reached : position + byteLength blanks + byteLength covered =
        byteLength (before ++ blanks ++ covered) := by
      rw [starts, byteLength_append, byteLength_append]
    have text : source.toList = before ++ blanks ++ (covered ++ rest) := by
      rw [whole, List.append_assoc]
    have text' : source.toList = before ++ blanks ++ covered ++ rest := by
      rw [whole, List.append_assoc, List.append_assoc]
    obtain ⟨⟨words, rfl, lie⟩, chain⟩ := ih text' reached
    have lies : LiesIn ⟨kind, ⟨position + byteLength blanks,
        position + byteLength blanks + byteLength covered⟩⟩ source :=
      { nonempty := Nat.lt_add_of_pos_right (byteLength_pos alone.nonempty)
        starts := passed ▸ .of_append text
        stops := reached ▸ .of_append text'
        again := by
          refine ⟨String.ofList covered, Span.slice_append text passed rfl, ?_⟩
          rw [← byteLength_eq]
          exact alone.scan_eq }
    refine ⟨⟨_ :: words, rfl, List.forall_mem_cons.mpr ⟨⟨alone.not_finish, lies⟩, lie⟩⟩,
      fun start => ?_⟩
    exact .cons_cons ⟨_, Span.slice_append whole starts rfl, by simpa [isBlankText] using blank⟩
      (chain _)

theorem scan_settles (source : String) :
    Settles (Covers source) (·.PointsInto source) (scan source) := by
  have outcome : Settles (Divides 0 source.toList) (FailsIn 0 source.toList) (scan source) :=
    scanFrom_settles (Nat.le_refl _)
  cases scanned : scan source with
  | error error =>
    obtain ⟨passed, rest, text, known⟩ := outcome.of_error scanned
    rintro position same
    obtain rfl := Option.some.inj (known.symm.trans same)
    rw [Nat.zero_add]
    exact .of_append text
  | ok tokens =>
    obtain ⟨words, gaps⟩ := (outcome.of_ok scanned).places (List.nil_append source.toList).symm rfl
    exact ⟨words, (scanFrom_ordered scanned).1, gaps 0⟩

theorem Covers.boundaries {source : String} {tokens : List Token} (covers : Covers source tokens) :
    ∀ token ∈ tokens, IsBoundary source token.span.start ∧ IsBoundary source token.span.stop := by
  obtain ⟨words, rfl, lie⟩ := covers.words
  have whole : IsBoundary source source.utf8ByteSize := String.Pos.Raw.isValid_rawEndPos
  refine List.forall_mem_append.mpr ⟨fun token member => ?_, ?_⟩
  · exact ⟨(lie token member).2.starts, (lie token member).2.stops⟩
  · simpa using whole

end Token

end Formulary
