import Mathlib.Order.Basic
import Formulary.Expr.Parser

namespace Formulary

/-! The grammar of formulas, stated apart from the reader. Levels are numbered by binding
    strength, as operators are:

    0 statements, 1 disjunctions, 2 conjunctions, 3 comparisons, 4 sums, 5 products,
    6 operands with signs, 7 powers, 8 operands with factorials and members, 9 single words,
    calls and parentheses. -/

/-- What a row of tokens can stand for. -/
inductive Phrase where
  | term (level : Nat) (expr : Expr)
  | arguments (exprs : List Expr)

/-- Operators whose chains group from the left. -/
def Operator.LeansLeft (op : Operator) : Prop := op.isComparison = false ∧ op ≠ .power

theorem Operator.leansLeft_iff {op : Operator} :
    op.LeansLeft ↔ op.precedence ∈ [1, 2, 4, 5] := by
  cases op <;> simp [LeansLeft, isComparison, precedence]

theorem Operator.isComparison_iff {op : Operator} :
    op.isComparison = true ↔ op.precedence = 3 := by
  cases op <;> simp [isComparison, precedence]

open TokenKind (name symbol) in
/-- The tokens are derived from the grammar, and the phrase holds the tree they denote. -/
inductive Derives : Phrase → List TokenKind → Prop
  | definition {parameters : List String} {body value : Expr}
      {inside defined after : List TokenKind} (word : String)
      (takes : Derives (.arguments (parameters.map .var)) inside)
      (defines : Derives (.term 1 body) defined)
      (continues : Derives (.term 0 value) after) :
      Derives (.term 0 (.define word parameters body value))
        (name word :: symbol .prime :: symbol .openParen ::
          (inside ++ symbol .closeParen :: symbol .equals ::
            (defined ++ symbol .semicolon :: after)))
  | tighter {level : Nat} {expr : Expr} {tokens : List TokenKind} (loose : level < 9)
      (inner : Derives (.term (level + 1) expr) tokens) : Derives (.term level expr) tokens
  | chain {op : Operator} {sign : Symbol} {left right : Expr} {before after : List TokenKind}
      {level : Nat} (leans : op.LeansLeft) (strength : op.precedence = level)
      (spelled : sign.spelling = op.symbol)
      (first : Derives (.term level left) before)
      (second : Derives (.term (level + 1) right) after) :
      Derives (.term level (.binary op [left, right])) (before ++ symbol sign :: after)
  | comparison {op : Operator} {sign : Symbol} {left right : Expr}
      {before after : List TokenKind} (compares : op.isComparison = true)
      (spelled : sign.spelling = op.symbol)
      (first : Derives (.term 4 left) before) (second : Derives (.term 4 right) after) :
      Derives (.term 3 (.binary op [left, right])) (before ++ symbol sign :: after)
  | sign {op : UnaryOperator} {sign : Symbol} {operand : Expr} {tokens : List TokenKind}
      (leads : op ≠ .factorial) (spelled : sign.spelling = op.symbol)
      (inner : Derives (.term 6 operand) tokens) :
      Derives (.term 6 (.unary op operand)) (symbol sign :: tokens)
  | power {base exponent : Expr} {before after : List TokenKind}
      (first : Derives (.term 8 base) before) (second : Derives (.term 6 exponent) after) :
      Derives (.term 7 (.binary .power [base, exponent])) (before ++ symbol .caret :: after)
  | factorial {operand : Expr} {tokens : List TokenKind}
      (inner : Derives (.term 8 operand) tokens) :
      Derives (.term 8 (.unary .factorial operand)) (tokens ++ [symbol .bang])
  | member {target : Expr} {tokens : List TokenKind} (word : String)
      (inner : Derives (.term 8 target) tokens) :
      Derives (.term 8 (.member target word)) (tokens ++ [symbol .dot, name word])
  | number (value : Decimal) : Derives (.term 9 (.number value)) [.number value]
  | text (content : String) : Derives (.term 9 (.text content)) [.text content]
  | var (word : String) : Derives (.term 9 (.var word)) [name word]
  | call {arguments : List Expr} {inside : List TokenKind} (word : String)
      (given : Derives (.arguments arguments) inside) :
      Derives (.term 9 (.call word arguments false))
        (name word :: symbol .openParen :: (inside ++ [symbol .closeParen]))
  | primed {arguments : List Expr} {inside : List TokenKind} (word : String)
      (given : Derives (.arguments arguments) inside) :
      Derives (.term 9 (.call word arguments true))
        (name word :: symbol .prime :: symbol .openParen :: (inside ++ [symbol .closeParen]))
  | parentheses {expr : Expr} {inside : List TokenKind}
      (inner : Derives (.term 0 expr) inside) :
      Derives (.term 9 expr) (symbol .openParen :: (inside ++ [symbol .closeParen]))
  | none : Derives (.arguments []) []
  | last {expr : Expr} {tokens : List TokenKind} (only : Derives (.term 0 expr) tokens) :
      Derives (.arguments [expr]) tokens
  | more {expr next : Expr} {others : List Expr} {before after : List TokenKind}
      (first : Derives (.term 0 expr) before)
      (rest : Derives (.arguments (next :: others)) after) :
      Derives (.arguments (expr :: next :: others)) (before ++ symbol .comma :: after)

namespace Derives

variable {expr : Expr} {tokens rest : List TokenKind} {level : Nat}

theorem loosen {loose : Nat} (derived : Derives (.term level expr) tokens) (bound : level ≤ 9)
    (looser : loose ≤ level) : Derives (.term loose expr) tokens := by
  induction level with
  | zero => exact Nat.le_zero.mp looser ▸ derived
  | succ level ih =>
    rcases Nat.le_succ_iff.mp looser with looser | same
    · exact ih (.tighter (by omega) derived) (by omega) looser
    · exact same ▸ derived

theorem first_token (derived : Derives (.term level expr) tokens) :
    ∃ kind rest, tokens = kind :: rest ∧ kind ≠ .symbol .closeParen ∧
      (7 ≤ level → Expr.signOperator kind = .none) := by
  generalize shape : Phrase.term level expr = phrase at derived
  induction derived generalizing level expr with
  | tighter _ _ ih =>
    cases shape
    obtain ⟨kind, rest, rfl, other, unsigned⟩ := ih rfl
    exact ⟨kind, rest, rfl, other, fun tight => unsigned (by omega)⟩
  | chain leans strength _ _ _ first _ =>
    cases shape
    obtain ⟨kind, rest, rfl, other, unsigned⟩ := first rfl
    exact ⟨kind, _, rfl, other, unsigned⟩
  | comparison _ _ _ _ first _ | power _ _ first _ | factorial _ first | member _ _ first =>
    cases shape
    obtain ⟨kind, rest, rfl, other, unsigned⟩ := first rfl
    exact ⟨kind, _, rfl, other, fun tight => unsigned (by omega)⟩
  | @sign op sign _ _ _ spelled _ _ =>
    cases shape
    refine ⟨_, _, rfl, ?_, fun tight => absurd tight (by omega)⟩
    rintro ⟨⟩
    cases op <;> simp [Symbol.spelling, UnaryOperator.symbol] at spelled
  | none | last | more => cases shape
  | _ => exact ⟨_, _, rfl, by simp, fun _ => rfl⟩

/-- What derives a phrase of a level that leans to the left: one tighter phrase, or such a
    phrase with an operator of the level and a tighter phrase behind it. -/
theorem chain_induction {motive : ∀ expr tokens, Derives (.term level expr) tokens → Prop}
    (level_mem : level ∈ [1, 2, 4, 5])
    (single : ∀ {expr tokens} (loose : level < 9) (inner : Derives (.term (level + 1) expr) tokens),
      motive expr tokens (.tighter loose inner))
    (step : ∀ {op sign left right before after} (leans : op.LeansLeft)
      (strength : op.precedence = level) (spelled : Symbol.spelling sign = op.symbol)
      (first : Derives (.term level left) before)
      (second : Derives (.term (level + 1) right) after), motive left before first →
      motive (.binary op [left, right]) (before ++ .symbol sign :: after)
        (.chain leans strength spelled first second))
    {expr : Expr} {tokens : List TokenKind} (derived : Derives (.term level expr) tokens) :
    motive expr tokens derived := by
  have all {phrase : Phrase} {tokens : List TokenKind} (derived : Derives phrase tokens) :
      ∀ {expr} (shape : phrase = .term level expr), motive expr tokens (shape ▸ derived) := by
    induction derived with
    | tighter loose inner _ =>
      rintro _ ⟨⟩
      exact single loose inner
    | chain leans strength spelled first second ih _ =>
      rintro _ ⟨⟩
      exact step leans strength spelled first second (ih rfl)
    | _ =>
      rintro _ ⟨⟩
      try simp at level_mem
  exact all derived rfl

theorem suffix_induction {motive : ∀ expr tokens, Derives (.term 8 expr) tokens → Prop}
    (single : ∀ {expr tokens} (loose : 8 < 9) (inner : Derives (.term 9 expr) tokens),
      motive expr tokens (.tighter loose inner))
    (factorial : ∀ {operand tokens} (inner : Derives (.term 8 operand) tokens),
      motive operand tokens inner →
      motive (.unary .factorial operand) (tokens ++ [.symbol .bang]) (.factorial inner))
    (member : ∀ {target tokens} (word : String) (inner : Derives (.term 8 target) tokens),
      motive target tokens inner →
      motive (.member target word) (tokens ++ [.symbol .dot, .name word]) (.member word inner))
    {expr : Expr} {tokens : List TokenKind} (derived : Derives (.term 8 expr) tokens) :
    motive expr tokens derived := by
  have all {phrase : Phrase} {tokens : List TokenKind} (derived : Derives phrase tokens) :
      ∀ {expr} (shape : phrase = .term 8 expr), motive expr tokens (shape ▸ derived) := by
    induction derived with
    | tighter loose inner _ =>
      rintro _ ⟨⟩
      exact single loose inner
    | factorial inner ih =>
      rintro _ ⟨⟩
      exact factorial inner (ih rfl)
    | member word inner ih =>
      rintro _ ⟨⟩
      exact member word inner (ih rfl)
    | chain leans strength _ _ _ _ _ =>
      rintro _ ⟨⟩
      have level := Operator.leansLeft_iff.mp leans
      simp [strength] at level
    | _ => rintro _ ⟨⟩
  exact all derived rfl

end Derives

end Formulary
