import Formulary.Proofs.Expr.Retrying
import Formulary.Proofs.Expr.RoundTrip

namespace Formulary

/-! The spans of a tree that was read from a source. -/

namespace Token

/-- An end mark is the last token of a source and no other. -/
theorem scanFrom_finish {fuel position : Nat} {text : List Char} {tokens : List Token}
    (scanned : scanFrom fuel position text = .ok tokens) :
    ∃ words last, tokens = words ++ [last] ∧ last.kind = .finish ∧
      ∀ word ∈ words, word.kind ≠ .finish := by
  refine scanFrom_induction (motive := fun _ _ tokens => ∃ (words : List Token) (last : Token),
    tokens = words ++ [last] ∧ last.kind = .finish ∧ ∀ word ∈ words, word.kind ≠ .finish) ?_
    (fun _ others => others) ?_ scanned
  · intro position text
    exact ⟨[], _, rfl, rfl, by simp⟩
  · rintro position c rest kind length _ _ found ⟨words, last, rfl, finish, inner⟩
    exact ⟨_ :: words, last, rfl, finish,
      List.forall_mem_cons.mpr ⟨lexeme_ne_finish found, inner⟩⟩

theorem append_finish {words words' rest : List Token} {last : Token}
    (same : words ++ rest = words' ++ [last]) (finish : last.kind = .finish)
    (inner : ∀ word ∈ words, word.kind ≠ .finish) (inner' : ∀ word ∈ words', word.kind ≠ .finish)
    (ends : (rest.map kind).headD .finish = .finish) : words = words' := by
  induction words generalizing words' with
  | nil =>
    cases words' with
    | nil => rfl
    | cons word words' =>
      cases same
      exact absurd ends (inner' word List.mem_cons_self)
  | cons word words ih =>
    cases words' with
    | nil =>
      obtain ⟨rfl, -⟩ := List.cons.inj same
      exact absurd finish (inner word List.mem_cons_self)
    | cons word' words' =>
      obtain ⟨rfl, tails⟩ := List.cons.inj same
      rw [ih tails (List.forall_mem_cons.mp inner).2 (List.forall_mem_cons.mp inner').2]

end Token

namespace Expr

open ParseM TokenKind
open Token (Scans)

theorem readAll_recounts (depth : Nat) (cursor : Cursor) :
    Recounts (readAll depth) cursor fun expr after readings =>
      Locates (.term 0) cursor expr after readings ∧ after.next.kind = .finish := by
  refine .bind ((readers_recounted depth).1 cursor) fun expr after readings located => .next ?_
  split
  · next finish => exact .pure ⟨by simpa using located, finish⟩
  · exact .unexpected

theorem parseWithSpans_reads {source : String} {expr : Expr} {spans : SpanMap}
    (read : parseWithSpans source = .ok (expr, spans)) :
    ∃ words last readings, Token.scan source = .ok (words ++ [last]) ∧
      Reads (.term 0 expr) words readings ∧
      spans = SpanMap.empty.recordAll (readings.map Reading.entry) := by
  obtain ⟨tokens, scanned, parsed⟩ := bind_eq_ok.mp read
  obtain ⟨words, last, rfl, finish, inner⟩ := Token.scanFrom_finish scanned
  have parsed : ofTokens (words ++ [last]) = .ok (expr, spans) := by
    split at parsed
    · cases parsed
    · exact parsed
  unfold ofTokens at parsed
  split at parsed
  · next run =>
    cases parsed
    obtain ⟨readings, ⟨⟨taken, passes, reads⟩, ends⟩, rfl⟩ := readAll_recounts _ _ run
    have inside : ∀ word ∈ taken, word.kind ≠ .finish := fun word member same =>
      reads.derives.finish_notMem (same ▸ List.mem_map_of_mem member)
    rw [Cursor.next_kind] at ends
    obtain rfl := Token.append_finish passes.1.symm finish inside inner ends
    exact ⟨taken, last, readings, scanned, reads, rfl⟩
  · cases parsed

/-- The text under a tree that was read on the way is read as the tree. -/
theorem parse_slice {source : String} {words : List Token} {last : Token} {reading : Reading}
    (scanned : Token.scan source = .ok (words ++ [last])) (stems : reading.Stems words) :
    ∃ text, reading.span.slice source = some text ∧ parse text = .ok reading.expr := by
  obtain ⟨segment, ⟨before, after, row⟩, some, place, derived⟩ := stems
  obtain ⟨next, rest, more⟩ : ∃ next rest, after ++ [last] = next :: rest :=
    List.exists_cons_of_ne_nil (by simp)
  have row : words ++ [last] = before ++ (segment ++ next :: rest) := by
    rw [← row, ← more]
    simp
  obtain ⟨covered, sliced, scans⟩ := Token.slice_extent scanned row some
  exact ⟨String.ofList covered, place ▸ sliced, parse_of_scans scans derived⟩

/-- Every part of a tree that was read from a source has a span, and the text under the span is
    read as the part again. -/
theorem parseWithSpans_slice {source : String} {expr : Expr} {spans : SpanMap}
    (read : parseWithSpans source = .ok (expr, spans)) :
    ∀ tree ∈ expr.subtrees, ∃ span text again, spans.spanOf? tree = some span ∧
      span.slice source = some text ∧ parse text = .ok again ∧ (again == tree) = true := by
  intro tree member
  obtain ⟨words, last, readings, scanned, reads, rfl⟩ := parseWithSpans_reads read
  obtain ⟨node, kept, same⟩ := List.mem_map.mp (reads.nodes_perm.mem_iff.mpr member)
  have found : (readings.find? (·.expr == tree)).isSome = true :=
    List.find?_isSome.mpr ⟨node, (List.mem_filter.mp kept).1, same ▸ BEq.rfl⟩
  obtain ⟨reading, found⟩ := Option.isSome_iff_exists.mp found
  obtain ⟨text, sliced, parsed⟩ := parse_slice scanned
    (reads.stems reading (List.mem_of_find?_eq_some found))
  have equal := List.find?_some found
  refine ⟨reading.span, text, reading.expr, ?_, sliced, parsed, equal⟩
  simp [Reading.spanOf?_recordAll, Reading.first, found]

theorem parseWithSpans_any {source : String} {p : Expr × SpanMap → Bool}
    (holds : (parseWithSpans source).toOption.any p = true) :
    ∃ expr spans, parseWithSpans source = .ok (expr, spans) ∧ p (expr, spans) = true := by
  rcases read : parseWithSpans source with _ | ⟨expr, spans⟩ <;> rw [read] at holds
  · cases holds
  · exact ⟨expr, spans, rfl, holds⟩

/-- A parameter in parentheses, one number in two spellings, letters of more than one byte, and a
    comparison that is first taken for a definition. -/
def rates : String := "f'((x)) = x * 2.50 ; f'(né) = -f'( 2.5 )! ^ né"

theorem rates_slice :
    ∃ expr spans, parseWithSpans rates = .ok (expr, spans) ∧ expr.size = 13 ∧
      ∀ tree ∈ expr.subtrees, ∃ span text again, spans.spanOf? tree = some span ∧
        span.slice rates = some text ∧ parse text = .ok again ∧ (again == tree) = true := by
  have reads : (parseWithSpans rates).toOption.any (·.1.size == 13) = true := by decide +kernel
  obtain ⟨expr, spans, read, size⟩ := parseWithSpans_any reads
  exact ⟨expr, spans, read, beq_iff_eq.mp size, parseWithSpans_slice read⟩

/-- The span of a tree is that of the first equal tree that was read. Parameters, and what follows
    `f'(…) =` in a comparison, are read before the nodes that are equal to them, so a tree among
    them can have a span that is not that of its first node. All other trees have the span of their
    first node. The nodes are the parts of the tree, and equal ones are in the order of the
    source. -/
theorem parseWithSpans_first {source : String} {expr : Expr} {spans : SpanMap}
    (read : parseWithSpans source = .ok (expr, spans)) :
    ∃ words last readings, Token.scan source = .ok (words ++ [last]) ∧
      Reads (.term 0 expr) words readings ∧
      ((Reading.nodes readings).map Reading.expr).Perm expr.subtrees ∧
      (Reading.nodes readings).Pairwise Reading.Apart ∧
      (∀ tree, spans.spanOf? tree = Reading.first readings tree) ∧
      ∀ tree, (∀ part ∈ expr.subtrees, part.forestalls tree = false) →
        spans.spanOf? tree = Reading.first (Reading.nodes readings) tree := by
  obtain ⟨words, last, readings, scanned, reads, rfl⟩ := parseWithSpans_reads read
  have ordered : Token.Ordered words := (Token.scanFrom_ordered scanned).1.left
  have found (tree : Expr) : (SpanMap.empty.recordAll (readings.map Reading.entry)).spanOf? tree =
      Reading.first readings tree := by
    simp [Reading.spanOf?_recordAll]
  refine ⟨words, last, readings, scanned, reads, reads.nodes_perm, reads.nodes_apart ordered, found,
    fun tree clear => ?_⟩
  rw [found, reads.first_nodes clear]

theorem sums_first :
    ∃ expr spans words last readings,
      parseWithSpans "f'(x) = (a + 1) * x; f'(a + 1.0) = 3" = .ok (expr, spans) ∧
      Token.scan "f'(x) = (a + 1) * x; f'(a + 1.0) = 3" = .ok (words ++ [last]) ∧
      Reads (.term 0 expr) words readings ∧
      Reading.first (Reading.nodes readings) (.binary .add [.var "a", .number ⟨1, 0⟩]) =
        some ⟨9, 14⟩ ∧
      spans.spanOf? (.binary .add [.var "a", .number ⟨1, 0⟩]) = some ⟨9, 14⟩ := by
  have reads : (parseWithSpans "f'(x) = (a + 1) * x; f'(a + 1.0) = 3").toOption.any (fun found =>
      found.1.subtrees.all (!·.forestalls (.binary .add [.var "a", .number ⟨1, 0⟩])) &&
      found.2.spanOf? (.binary .add [.var "a", .number ⟨1, 0⟩]) == some ⟨9, 14⟩) = true := by
    decide +kernel
  obtain ⟨expr, spans, read, holds⟩ := parseWithSpans_any reads
  simp only [Bool.and_eq_true, List.all_eq_true, Bool.not_eq_true', beq_iff_eq] at holds
  obtain ⟨words, last, readings, scanned, derived, -, -, -, first⟩ := parseWithSpans_first read
  exact ⟨expr, spans, words, last, readings, read, scanned, derived,
    (first _ holds.1).symm.trans holds.2, holds.2⟩

/-- The tree has another span than the first node that is equal to it. -/
def Misplaces (source : String) (tree : Expr) (first recorded : Span) : Prop :=
  ∃ expr spans words last readings, parseWithSpans source = .ok (expr, spans) ∧
    Token.scan source = .ok (words ++ [last]) ∧ Reads (.term 0 expr) words readings ∧
    tree ∈ expr.subtrees ∧ Reading.first (Reading.nodes readings) tree = some first ∧
    spans.spanOf? tree = some recorded

theorem misplaces_of_reads {source : String} {tree expr : Expr} {first recorded : Span}
    {words : List Token} {last : Token} {readings : List Reading}
    (scanned : Token.scan source = .ok (words ++ [last])) (finish : last.kind = .finish)
    (reads : Reads (.term 0 expr) words readings) (part : tree ∈ expr.subtrees)
    (node : Reading.first (Reading.nodes readings) tree = some first)
    (found : (parseWithSpans source).toOption.any
      (fun read => read.2.spanOf? tree == some recorded) = true) :
    Misplaces source tree first recorded := by
  have kinds : beforeFinish ((words ++ [last]).map Token.kind) = words.map Token.kind := by
    rw [List.map_append]
    exact beforeFinish_append reads.derives.finish_notMem finish
  obtain ⟨spans, parsed⟩ := ofTokens_of_derives (kinds ▸ reads.derives)
  have many : ¬ (words ++ [last]).length ≤ 1 := by
    have some := List.length_pos_of_ne_nil reads.ne_nil
    simp only [List.length_append, List.length_singleton]
    omega
  have read : parseWithSpans source = .ok (expr, spans) :=
    bind_eq_ok.mpr ⟨words ++ [last], scanned, by simpa only [many, if_false] using parsed⟩
  rw [read] at found
  exact ⟨expr, spans, words, last, readings, read, scanned, reads, part, node, beq_iff_eq.mp found⟩

def callAt (n : Nat) : List Token :=
  [⟨.name "f", ⟨n, n + 1⟩⟩, ⟨.symbol .prime, ⟨n + 1, n + 2⟩⟩, ⟨.symbol .openParen, ⟨n + 2, n + 3⟩⟩,
    ⟨.number ⟨1, 0⟩, ⟨n + 3, n + 4⟩⟩, ⟨.symbol .closeParen, ⟨n + 4, n + 5⟩⟩]

theorem callAt_reads (n : Nat) :
    Reads (.term 9 (.call "f" [.number ⟨1, 0⟩] true)) (callAt n)
      [⟨.number ⟨1, 0⟩, ⟨n + 3, n + 4⟩, true⟩,
        ⟨.call "f" [.number ⟨1, 0⟩] true, ⟨n, n + 5⟩, true⟩] := by
  have argument : Reads (.arguments [.number ⟨1, 0⟩]) [⟨.number ⟨1, 0⟩, ⟨n + 3, n + 4⟩⟩]
      [⟨.number ⟨1, 0⟩, ⟨n + 3, n + 4⟩, true⟩] := .last ((Reads.leaf rfl).loosen (by decide))
  have marked : [⟨.symbol .prime, ⟨n + 1, n + 2⟩⟩].map Token.kind =
      if true then [.symbol .prime] else [] := rfl
  exact .call marked rfl argument

def definingTokens : List Token :=
  [⟨.name "f", ⟨0, 1⟩⟩, ⟨.symbol .prime, ⟨1, 2⟩⟩, ⟨.symbol .openParen, ⟨2, 3⟩⟩, ⟨.name "x", ⟨3, 4⟩⟩,
    ⟨.symbol .closeParen, ⟨4, 5⟩⟩, ⟨.symbol .equals, ⟨6, 7⟩⟩, ⟨.number ⟨2, 0⟩, ⟨8, 9⟩⟩,
    ⟨.symbol .semicolon, ⟨9, 10⟩⟩, ⟨.name "x", ⟨11, 12⟩⟩]

set_option maxRecDepth 100000 in
/-- A call that is compared, and is a part of what it is compared with, has the span of that part.
    A parameter has its own span, and not that of a node. -/
theorem spans_misplace :
    Misplaces "f'(1) = f'(1)" (.call "f" [.number ⟨1, 0⟩] true) ⟨0, 5⟩ ⟨8, 13⟩ ∧
      Misplaces "f'(x) = 2; x" (.var "x") ⟨11, 12⟩ ⟨3, 4⟩ := by
  constructor
  · have spelled : Symbol.spelling .equals = Operator.equal.symbol := rfl
    have compared := Reads.binary (.comparison rfl) spelled
      (rfl : _ = callAt 0 ++ ⟨.symbol .equals, ⟨6, 7⟩⟩ :: callAt 8)
      ((callAt_reads 0).loosen (by decide)) ((callAt_reads 8).loosen (by decide))
    have scanned : Token.scan "f'(1) = f'(1)" =
        .ok ((callAt 0 ++ ⟨.symbol .equals, ⟨6, 7⟩⟩ :: callAt 8) ++ [⟨.finish, ⟨13, 13⟩⟩]) := rfl
    exact misplaces_of_reads scanned rfl (compared.loosen (by decide))
      (by simp [subtrees, subtreesAll]) (by decide +kernel) (by decide +kernel)
  · have parameter : Reads (.arguments (["x"].map .var)) [⟨.name "x", ⟨3, 4⟩⟩] _ :=
      .last ((Reads.leaf rfl).loosen (by decide))
    have two : Reads (.term 1 (.number ⟨2, 0⟩)) [⟨.number ⟨2, 0⟩, ⟨8, 9⟩⟩] _ :=
      (Reads.leaf rfl).loosen (by decide)
    have x : Reads (.term 0 (.var "x")) [⟨.name "x", ⟨11, 12⟩⟩] _ :=
      (Reads.leaf rfl).loosen (by decide)
    have defined : Reads (.term 0 (.define "f" ["x"] (.number ⟨2, 0⟩) (.var "x")))
      definingTokens _ := .definition rfl parameter two x
    have scanned : Token.scan "f'(x) = 2; x" = .ok (definingTokens ++ [⟨.finish, ⟨12, 12⟩⟩]) := rfl
    exact misplaces_of_reads scanned rfl defined (by simp [subtrees]) (by decide +kernel)
      (by decide +kernel)

end Expr

end Formulary
