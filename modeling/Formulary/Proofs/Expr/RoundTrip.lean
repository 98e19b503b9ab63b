import Formulary.Proofs.Expr.Printed
import Formulary.Proofs.Expr.Recognition

namespace Formulary

/-! Printing a tree and reading the text again. -/

namespace Expr

open Token (Scans isName)

theorem parse_eq_ok {source : String} {expr : Expr} :
    parse source = .ok expr ↔ ∃ tokens spans, Token.scan source = .ok tokens ∧
      1 < tokens.length ∧ ofTokens tokens = .ok (expr, spans) := by
  constructor
  · intro read
    obtain ⟨⟨found, spans⟩, located, same⟩ := bind_eq_ok.mp read
    obtain ⟨tokens, scanned, parsed⟩ := bind_eq_ok.mp located
    cases same
    by_cases many : tokens.length ≤ 1
    · simp only [many, if_true] at parsed
      cases parsed
    · exact ⟨tokens, spans, scanned, by omega, by simpa [many] using parsed⟩
  · rintro ⟨tokens, spans, scanned, many, read⟩
    refine bind_eq_ok.mpr ⟨(expr, spans), bind_eq_ok.mpr ⟨tokens, scanned, ?_⟩, rfl⟩
    simpa [Nat.not_le.mpr many] using read

theorem parse_of_scans {text : List Char} {words : List TokenKind} {expr : Expr}
    (scans : Scans text words) (derived : Derives (.term 0 expr) words) :
    parse (String.ofList text) = .ok expr := by
  obtain ⟨tokens, scanned, kinds⟩ := scans 0 (Nat.le_refl _)
  have words_eq : TokenKind.beforeFinish (tokens.map Token.kind) = words := by
    rw [kinds]
    exact TokenKind.beforeFinish_append derived.finish_notMem rfl
  obtain ⟨spans, parsed⟩ := ofTokens_of_derives (words_eq ▸ derived)
  have many : 1 < tokens.length := by
    obtain ⟨kind, rest, rfl, -⟩ := derived.first_token
    have length := congrArg List.length kinds
    simp at length
    omega
  have scanned : Token.scan (String.ofList text) = .ok tokens := by
    rwa [Token.scan, String.toList_ofList]
  exact parse_eq_ok.mpr ⟨tokens, spans, scanned, many, parsed⟩

theorem parse_of_writes {text : List Char} {expr : Expr} (writes : Writes text 0 expr) :
    ∃ read, parse (String.ofList text) = .ok read ∧ (read == expr) = true := by
  obtain ⟨read, words, same, derived, prints, -⟩ := writes
  have scans := prints .nil .nil
  simp only [List.append_nil] at scans
  exact ⟨read, parse_of_scans scans derived, same⟩

/-- A tree that has a written form, and whose written form keeps what it is, is read back from
    it, whether or not it was read from a text before. -/
theorem parse_display (expr : Expr) (lexical : ∀ part ∈ expr.subtrees, part.isLexical = true)
    (faithful : ∀ part ∈ expr.subtrees, part.isFaithful = true) :
    ∃ read, parse expr.display = .ok read ∧ (read == expr) = true :=
  parse_of_writes ((writes_chars expr fun part member =>
    ⟨lexical part member, faithful part member⟩).loosen expr.precedence_le (Nat.zero_le _))

/-- A definition over a power, a difference and a number written with other digits than it is
    stored with, in front of comparisons, a text with quotes, a member and calls. -/
def tariff : Expr :=
  .define "f" ["x"]
    (.binary .sub [.unary .negate (.binary .power [.var "x", .number ⟨2, 0⟩]),
      .binary .sub [.number ⟨12, -2⟩, .unary .factorial (.unary .negate (.var "n"))]])
    (.binary .and [.unary .not (.binary .equal [.call "f" [.var "y", .number ⟨5, 9⟩] true,
        .binary .less [.member (.var "p") "price", .number ⟨0, 3⟩]]),
      .call "g" [.text "say \"hi\"", .call "h" [] false] false])

theorem tariff_display :
    (∀ part ∈ tariff.subtrees, part.isLexical = true) ∧
      (∀ part ∈ tariff.subtrees, part.isFaithful = true) ∧
      ∃ read, parse tariff.display = .ok read ∧ (read == tariff) = true :=
  have lexical : ∀ part ∈ tariff.subtrees, part.isLexical = true := by decide +kernel
  have faithful : ∀ part ∈ tariff.subtrees, part.isFaithful = true := by decide +kernel
  ⟨lexical, faithful, parse_display tariff lexical faithful⟩

end Expr

/-- All parts of the trees have written forms. -/
def Phrase.Lexical : Phrase → Prop
  | .term _ expr => ∀ part ∈ expr.subtrees, part.isLexical = true
  | .arguments exprs => ∀ expr ∈ exprs, ∀ part ∈ expr.subtrees, part.isLexical = true

open Formulary.Expr (forall_subtrees) in
theorem Derives.lexical {phrase : Phrase} {tokens : List TokenKind}
    (derived : Derives phrase tokens) (kinds : ∀ kind ∈ tokens, kind.isLexical = true) :
    phrase.Lexical := by
  induction derived with
  | definition word _ _ _ takes defines continues =>
    simp only [List.forall_mem_cons, List.forall_mem_append] at kinds
    have names := takes kinds.2.2.2.1
    simp only [Phrase.Lexical, List.forall_mem_map, Expr.subtrees,
      List.forall_mem_singleton] at names
    have body := defines kinds.2.2.2.2.2.2.1
    have value := continues kinds.2.2.2.2.2.2.2.2
    refine forall_subtrees.mpr ⟨?_, by simpa [Expr.children] using ⟨body, value⟩⟩
    simpa [Expr.isLexical] using ⟨kinds.1, names⟩
  | tighter _ _ ih => exact ih kinds
  | chain _ _ _ _ _ first second | comparison _ _ _ _ first second | power _ _ first second =>
    simp only [List.forall_mem_append, List.forall_mem_cons] at kinds
    have left := first kinds.1
    have right := second kinds.2.2
    exact forall_subtrees.mpr ⟨rfl, by simpa [Expr.children] using ⟨left, right⟩⟩
  | sign _ _ _ ih =>
    have inner := ih (List.forall_mem_cons.mp kinds).2
    exact forall_subtrees.mpr ⟨rfl, by simpa [Expr.children, Phrase.Lexical] using inner⟩
  | factorial _ ih =>
    have inner := ih (List.forall_mem_append.mp kinds).1
    exact forall_subtrees.mpr ⟨rfl, by simpa [Expr.children, Phrase.Lexical] using inner⟩
  | member word _ ih =>
    simp only [List.forall_mem_append, List.forall_mem_cons] at kinds
    exact forall_subtrees.mpr
      ⟨kinds.2.2.1, by simpa [Expr.children, Phrase.Lexical] using ih kinds.1⟩
  | number | var =>
    exact forall_subtrees.mpr ⟨kinds _ List.mem_cons_self, by simp [Expr.children]⟩
  | text => exact forall_subtrees.mpr ⟨rfl, by simp [Expr.children]⟩
  | call word _ ih =>
    simp only [List.forall_mem_append, List.forall_mem_cons] at kinds
    exact forall_subtrees.mpr ⟨kinds.1, ih kinds.2.2.1⟩
  | primed word _ ih =>
    simp only [List.forall_mem_append, List.forall_mem_cons] at kinds
    exact forall_subtrees.mpr ⟨kinds.1, ih kinds.2.2.2.1⟩
  | parentheses _ ih =>
    simp only [List.forall_mem_append, List.forall_mem_cons] at kinds
    exact ih kinds.2.1
  | none => simp [Phrase.Lexical]
  | last _ ih => simpa [Phrase.Lexical] using ih kinds
  | more _ _ first others =>
    simp only [List.forall_mem_append, List.forall_mem_cons] at kinds
    exact List.forall_mem_cons.mpr ⟨first kinds.1, others kinds.2.2⟩

namespace Expr

theorem parse_lexical {source : String} {expr : Expr} (read : parse source = .ok expr) :
    ∀ part ∈ expr.subtrees, part.isLexical = true := by
  obtain ⟨tokens, spans, scanned, -, parsed⟩ := parse_eq_ok.mp read
  refine (derives_of_ofTokens parsed).lexical fun kind member => ?_
  obtain ⟨rest, same, -⟩ := TokenKind.exists_beforeFinish (tokens.map Token.kind)
  have listed := List.mem_append_left rest member
  rw [← same] at listed
  obtain ⟨token, found, rfl⟩ := List.mem_map.mp listed
  exact Token.scanFrom_isLexical scanned token found

/-- A tree that was read from a text is read back from its written form, as long as no text of it
    has a backslash, no comparison has a comparison on its left and the body of no definition
    is a definition. -/
theorem parse_display_parse {source : String} {expr : Expr} (read : parse source = .ok expr)
    (faithful : ∀ part ∈ expr.subtrees, part.isFaithful = true) :
    ∃ again, parse expr.display = .ok again ∧ (again == expr) = true :=
  parse_of_writes ((writes_chars expr fun part member =>
    ⟨parse_lexical read part member, faithful part member⟩).loosen expr.precedence_le
      (Nat.zero_le _))

theorem toOption_any_iff {source : String} {p : Expr → Bool} :
    (parse source).toOption.any p = true ↔ ∃ expr, parse source = .ok expr ∧ p expr = true := by
  cases parse source <;> simp [Except.toOption]

theorem thresholds_display :
    ∃ expr, parse "f'(x) = x > 1.50 & ~(a = (b = -c ^ 2));\n f'(1e30) ^^ \"it's\" = t.name" =
        .ok expr ∧ (∀ part ∈ expr.subtrees, part.isFaithful = true) ∧
      ∃ again, parse expr.display = .ok again ∧ (again == expr) = true := by
  have reads : (parse "f'(x) = x > 1.50 & ~(a = (b = -c ^ 2));\n f'(1e30) ^^ \"it's\" = t.name"
      ).toOption.any (·.subtrees.all isFaithful) = true := by decide +kernel
  obtain ⟨expr, read, faithful⟩ := toOption_any_iff.mp reads
  rw [List.all_eq_true] at faithful
  exact ⟨expr, read, faithful, parse_display_parse read faithful⟩

/-- The source is read as a tree that is not read back from its written form. -/
def Loses (source : String) : Prop :=
  ∃ expr, parse source = .ok expr ∧
    ¬ ∃ again, parse expr.display = .ok again ∧ (again == expr) = true

theorem loses_of_any {source : String}
    (lost : (parse source).toOption.any
      (fun expr => !(parse expr.display).toOption.any (· == expr)) = true) : Loses source := by
  obtain ⟨expr, read, lost⟩ := toOption_any_iff.mp lost
  exact ⟨expr, read, by simpa [← toOption_any_iff] using lost⟩

/-- Each of the three conditions is needed: there are losses at a text with a backslash, at a
    comparison of a comparison and at a definition inside a definition. -/
theorem display_loses :
    Loses "\"a\\\\b\"" ∧ Loses "(a = b) = c" ∧
      Loses "f'(x) = (g'(y) = y; g'(x)); f'(a)" :=
  ⟨loses_of_any (by decide +kernel), loses_of_any (by decide +kernel),
    loses_of_any (by decide +kernel)⟩

end Expr

end Formulary
