import Formulary.Proofs.Expr.Printed
import Formulary.Proofs.Expr.Records
import Formulary.Proofs.Token.Slice

namespace Formulary

/-! The trees that are read from a row of tokens, in the order in which they are completed, with
    their places. -/

/-- A tree that was read, and where. It is kept if it becomes a node of the tree of the whole. -/
structure Reading where
  expr : Expr
  span : Span
  kept : Bool

namespace Reading

def node (expr : Expr) (tokens : List Token) : Reading := ⟨expr, Token.extent tokens, true⟩

def aside (reading : Reading) : Reading := { reading with kept := false }

def entry (reading : Reading) : Expr × Span := (reading.expr, reading.span)

theorem entry_aside (readings : List Reading) :
    (readings.map aside).map entry = readings.map entry := by
  simp [aside, entry]

/-- The span of the first reading of a tree. -/
def first (readings : List Reading) (expr : Expr) : Option Span :=
  (readings.find? (·.expr == expr)).map span

theorem first_append (one two : List Reading) (expr : Expr) :
    first (one ++ two) expr = (first one expr).or (first two expr) := by
  rw [first, List.find?_append, Option.map_or]
  rfl

theorem first_aside (readings : List Reading) (expr : Expr) :
    first (readings.map aside) expr = first readings expr := by
  rw [first, List.find?_map, Option.map_map]
  rfl

theorem first_eq_none {readings : List Reading} {expr : Expr} :
    first readings expr = none ↔ ∀ reading ∈ readings, (reading.expr == expr) = false := by
  simp [first]

theorem spanOf?_recordAll (map : SpanMap) (readings : List Reading) (expr : Expr) :
    (map.recordAll (readings.map entry)).spanOf? expr =
      (map.spanOf? expr).or (first readings expr) := by
  rw [SpanMap.spanOf?_recordAll, List.find?_map, Option.map_map]
  rfl

def nodes (readings : List Reading) : List Reading := readings.filter kept

theorem nodes_append (one two : List Reading) : nodes (one ++ two) = nodes one ++ nodes two :=
  List.filter_append one two

@[simp] theorem nodes_aside (readings : List Reading) : nodes (readings.map aside) = [] := by
  simp [nodes, aside]

@[simp] theorem nodes_node (expr : Expr) (tokens : List Token) :
    nodes [node expr tokens] = [node expr tokens] := rfl

theorem nodes_close {readings : List Reading} {parts : List Expr} (expr : Expr)
    (tokens : List Token) (same : ((nodes readings).map Reading.expr).Perm parts) :
    ((nodes (readings ++ [node expr tokens])).map Reading.expr).Perm (expr :: parts) := by
  rw [nodes_append, nodes_node, List.map_append]
  exact (List.perm_append_singleton expr _).trans (same.cons expr)

/-- The trees are different, or the first one ends before the second one starts. -/
def Apart (one two : Reading) : Prop :=
  (one.expr == two.expr) = true → one.span.stop ≤ two.span.start

/-- The tree is denoted by some of the tokens, which follow one another, and lies where they lie. -/
def Stems (reading : Reading) (tokens : List Token) : Prop :=
  ∃ segment, segment <:+: tokens ∧ segment ≠ [] ∧ reading.span = Token.extent segment ∧
    Derives (.term 0 reading.expr) (segment.map Token.kind)

namespace Stems

variable {reading : Reading} {part : List Token}

theorem mono {tokens : List Token} (stems : reading.Stems part) (inside : part <:+: tokens) :
    reading.Stems tokens := by
  obtain ⟨segment, within, rest⟩ := stems
  exact ⟨segment, within.trans inside, rest⟩

theorem front {rest : List Token} (stems : reading.Stems part) : reading.Stems (part ++ rest) :=
  stems.mono (List.prefix_append part rest).isInfix

theorem back {rest : List Token} (stems : reading.Stems part) : reading.Stems (rest ++ part) :=
  stems.mono (List.suffix_append rest part).isInfix

theorem apart {other : Reading} {front rest : List Token} (ordered : Token.Ordered (front ++ rest))
    (one : reading.Stems front) (two : other.Stems rest) :
    reading.span.stop ≤ other.span.start := by
  obtain ⟨segment, within, some, place, -⟩ := one
  obtain ⟨segment', within', some', place', -⟩ := two
  obtain ⟨last, member, stops⟩ := Token.extent_stop some
  obtain ⟨first, member', starts⟩ := Token.extent_start some'
  rw [place, place', stops, starts]
  exact (List.pairwise_append.mp ordered).2.2 last (within.subset member) first
    (within'.subset member')

theorem cons {token : Token} (stems : reading.Stems part) : reading.Stems (token :: part) :=
  stems.mono (List.suffix_cons token part).isInfix

end Stems

end Reading

/-- Trees of a single token. -/
def Expr.leaf? : TokenKind → Option Expr
  | .number value => some (.number value)
  | .text content => some (.text content)
  | .name word => some (.var word)
  | _ => none

theorem Expr.self_mem_subtrees (expr : Expr) : expr ∈ expr.subtrees :=
  expr.subtrees_eq ▸ List.mem_cons_self

theorem Expr.size_eq (expr : Expr) : expr.size = 1 + sizeAll expr.children := by
  cases expr <;> simp [size, sizeAll, children]

theorem Expr.size_le_sizeAll {expr : Expr} {exprs : List Expr} (member : expr ∈ exprs) :
    expr.size ≤ sizeAll exprs := by
  induction exprs with
  | nil => simp at member
  | cons first rest ih =>
    rcases List.mem_cons.mp member with rfl | later
    · exact Nat.le_add_right _ _
    · exact Nat.le_add_left_of_le (ih later)

theorem Expr.size_lt_of_mem {part child expr : Expr} (member : child ∈ expr.children)
    (below : part ∈ child.subtrees) : part.size < expr.size := by
  induction expr using parts_induction generalizing part child with
  | step expr ih =>
    have smaller : child.size < expr.size := by
      rw [size_eq expr]
      exact Nat.lt_one_add_iff.mpr (size_le_sizeAll member)
    rw [subtrees_eq] at below
    rcases List.mem_cons.mp below with rfl | below
    · exact smaller
    · obtain ⟨grandchild, member', below⟩ := List.mem_flatMap.mp below
      exact (ih child member member' below).trans smaller

namespace Expr

def isPrimedCall : Expr → Bool
  | call _ _ primed => primed
  | _ => false

mutual

/-- What is left of a statement behind `f'(…) =` at its beginning, what is left of that, and so on.
    Of `f'(x) = a & b`, a conjunction whose first operand is a comparison, `a & b` is left. -/
def tails : Expr → List Expr
  | binary op operands => tailsOf op operands
  | _ => []

def tailsOf (op : Operator) : List Expr → List Expr
  | [left, right] =>
    if op = .equal ∧ left.isPrimedCall then right :: right.tails
    else if op.precedence < 3 then left.tails.map fun tail => binary op [tail, right]
    else []
  | _ => []

end

theorem mem_tails_compare (word : String) (arguments : List Expr) (right : Expr) :
    right ∈ (binary .equal [call word arguments true, right]).tails := List.mem_cons_self

theorem mem_tails_operand {op : Operator} {left tail : Expr} (loose : op.precedence < 3)
    (member : tail ∈ left.tails) (right : Expr) :
    binary op [tail, right] ∈ (binary op [left, right]).tails := by
  have other : op ≠ .equal := by
    rintro rfl
    exact absurd loose (by decide)
  rw [tails, tailsOf, if_neg (fun both => other both.1), if_pos loose]
  exact List.mem_map_of_mem member

theorem tails_cases {expr tail : Expr} (member : tail ∈ expr.tails) :
    (∃ left right, expr = binary .equal [left, right] ∧ expr.tails = right :: right.tails) ∨
    ∃ op left right first, expr = binary op [left, right] ∧ op.precedence < 3 ∧
      first ∈ left.tails ∧ tail = binary op [first, right] := by
  cases expr with
  | binary op operands =>
    rcases operands with _ | ⟨left, _ | ⟨right, _ | _⟩⟩
    · cases member
    · cases member
    · rw [tails, tailsOf] at member
      split at member
      · next compares =>
        rw [tails, tailsOf, if_pos compares]
        exact .inl ⟨left, right, by rw [compares.1], rfl⟩
      · split at member
        · next loose =>
          obtain ⟨first, listed, rfl⟩ := List.mem_map.mp member
          exact .inr ⟨op, left, right, first, rfl, loose, listed, rfl⟩
        · cases member
    · cases member
  | _ => cases member

theorem tails_trans {expr tail rest : Expr} (member : tail ∈ expr.tails)
    (further : rest ∈ tail.tails) : rest ∈ expr.tails := by
  induction expr using parts_induction generalizing tail rest with
  | step expr ih =>
    rcases tails_cases member with ⟨left, right, rfl, all⟩ |
      ⟨op, left, right, first, rfl, loose, listed, rfl⟩
    · rw [all] at member ⊢
      rcases List.mem_cons.mp member with rfl | listed
      · exact List.mem_cons_of_mem _ further
      · exact List.mem_cons_of_mem _ (ih right (by simp [children]) listed further)
    · rcases tails_cases further with ⟨_, _, ⟨⟩, -⟩ | ⟨_, _, _, next, ⟨⟩, -, listed', rfl⟩
      · exact absurd loose (by decide)
      · exact mem_tails_operand loose (ih left (by simp [children]) listed listed') right

def parameters : Expr → List Expr
  | define _ names _ _ => names.map var
  | _ => []

/-- The tree is read before the nodes of the statement that are equal to it may be read: as a
    parameter, or behind `f'(…) =` at the beginning. -/
def forestalls (expr tree : Expr) : Bool :=
  expr.parameters.any (· == tree) || expr.tails.any fun tail => tail.subtrees.any (· == tree)

theorem forestalls_eq_false {expr tree : Expr} : expr.forestalls tree = false ↔
    (∀ name ∈ expr.parameters, (name == tree) = false) ∧
      ∀ tail ∈ expr.tails, ∀ part ∈ tail.subtrees, (part == tree) = false := by
  simp [forestalls]

theorem forestalls_tail {expr tail tree : Expr}
    (clear : ∀ part ∈ expr.subtrees, part.forestalls tree = false) (member : tail ∈ expr.tails) :
    ∀ part ∈ tail.subtrees, part.forestalls tree = false := by
  induction expr using parts_induction generalizing tail with
  | step expr ih =>
    rw [forall_subtrees] at clear
    -- A tail has new trees only along its left edge, and these are tails themselves.
    rcases tails_cases member with ⟨left, right, rfl, all⟩ |
      ⟨op, left, right, first, rfl, loose, listed, rfl⟩
    · have listed : right ∈ (binary .equal [left, right]).children := by simp [children]
      rw [all] at member
      rcases List.mem_cons.mp member with rfl | further
      · exact clear.2 tail listed
      · exact ih right listed (clear.2 right listed) further
    · have whole := (forestalls_eq_false.mp clear.1).2
      simp only [children, List.forall_mem_cons] at clear ih
      refine forall_subtrees.mpr ⟨forestalls_eq_false.mpr ⟨by simp [parameters], ?_⟩, ?_⟩
      · exact fun rest further => whole rest (tails_trans member further)
      · simpa [children] using ⟨ih.1 clear.2.1 listed, clear.2.2.1⟩

end Expr

/-- The trees of a phrase and all trees below them. -/
def Phrase.subtrees : Phrase → List Expr
  | .term _ expr => expr.subtrees
  | .arguments exprs => exprs.flatMap Expr.subtrees

/-- The levels of an operation and of its two operands. -/
inductive Operator.Joins : Operator → Nat → Nat → Nat → Prop
  | chain {op : Operator} (leans : op.LeansLeft) :
      Joins op op.precedence op.precedence (op.precedence + 1)
  | comparison {op : Operator} (compares : op.isComparison = true) : Joins op 3 4 4
  | power : Joins .power 7 8 6

open TokenKind (name symbol) in
open Reading (node) in
/-- The tokens are read as the phrase, and these trees are read on the way. Parameters are read
    like other arguments. What follows the name, the arguments and the equals sign of a comparison
    is first read as the body of a definition, up to where the comparison ends, and then again. -/
inductive Reads : Phrase → List Token → List Reading → Prop
  | definition {word : String} {names : List String} {body value : Expr}
      {tokens inside defined after : List Token} {s₁ s₂ s₃ s₄ s₅ s₆ : Span}
      {heads bodies values : List Reading}
      (row : tokens = ⟨name word, s₁⟩ :: ⟨symbol .prime, s₂⟩ :: ⟨symbol .openParen, s₃⟩ ::
        (inside ++ ⟨symbol .closeParen, s₄⟩ :: ⟨symbol .equals, s₅⟩ ::
          (defined ++ ⟨symbol .semicolon, s₆⟩ :: after)))
      (takes : Reads (.arguments (names.map .var)) inside heads)
      (defines : Reads (.term 1 body) defined bodies)
      (continues : Reads (.term 0 value) after values) :
      Reads (.term 0 (.define word names body value)) tokens
        (heads.map Reading.aside ++ bodies ++ values ++
          [node (.define word names body value) tokens])
  | tried {word : String} {arguments : List Expr} {expr tail : Expr}
      {tokens inside after : List Token} {s₁ s₂ s₃ s₄ s₅ : Span}
      {heads tails readings : List Reading}
      (row : tokens = ⟨name word, s₁⟩ :: ⟨symbol .prime, s₂⟩ :: ⟨symbol .openParen, s₃⟩ ::
        (inside ++ ⟨symbol .closeParen, s₄⟩ :: ⟨symbol .equals, s₅⟩ :: after))
      (takes : Reads (.arguments arguments) inside heads)
      (defines : Reads (.term 1 tail) after tails)
      (inner : Reads (.term 1 expr) tokens readings) (left : tail ∈ expr.tails)
      (again : ∀ tree span, Reading.first heads tree = some span →
        Reading.first readings tree = some span) :
      Reads (.term 0 expr) tokens ((heads ++ tails).map Reading.aside ++ readings)
  | tighter {level : Nat} {expr : Expr} {tokens : List Token} {readings : List Reading}
      (loose : level < 9) (inner : Reads (.term (level + 1) expr) tokens readings) :
      Reads (.term level expr) tokens readings
  | binary {op : Operator} {sign : Symbol} {level one two : Nat} {left right : Expr}
      {tokens before after : List Token} {s : Span} {lefts rights : List Reading}
      (joins : op.Joins level one two) (spelled : sign.spelling = op.symbol)
      (row : tokens = before ++ ⟨symbol sign, s⟩ :: after)
      (first : Reads (.term one left) before lefts)
      (second : Reads (.term two right) after rights) :
      Reads (.term level (.binary op [left, right])) tokens
        (lefts ++ rights ++ [node (.binary op [left, right]) tokens])
  | sign {op : UnaryOperator} {sign : Symbol} {operand : Expr} {tokens after : List Token}
      {s : Span} {readings : List Reading}
      (leads : op ≠ .factorial) (spelled : sign.spelling = op.symbol)
      (row : tokens = ⟨symbol sign, s⟩ :: after)
      (inner : Reads (.term 6 operand) after readings) :
      Reads (.term 6 (.unary op operand)) tokens (readings ++ [node (.unary op operand) tokens])
  | factorial {operand : Expr} {tokens before : List Token} {s : Span} {readings : List Reading}
      (row : tokens = before ++ [⟨symbol .bang, s⟩])
      (inner : Reads (.term 8 operand) before readings) :
      Reads (.term 8 (.unary .factorial operand)) tokens
        (readings ++ [node (.unary .factorial operand) tokens])
  | member {word : String} {target : Expr} {tokens before : List Token} {s s' : Span}
      {readings : List Reading}
      (row : tokens = before ++ [⟨symbol .dot, s⟩, ⟨name word, s'⟩])
      (inner : Reads (.term 8 target) before readings) :
      Reads (.term 8 (.member target word)) tokens
        (readings ++ [node (.member target word) tokens])
  | leaf {token : Token} {expr : Expr} (found : Expr.leaf? token.kind = some expr) :
      Reads (.term 9 expr) [token] [node expr [token]]
  | call {word : String} {primed : Bool} {arguments : List Expr}
      {tokens mark inside : List Token} {s s' s'' : Span} {readings : List Reading}
      (marked : mark.map Token.kind = if primed then [symbol .prime] else [])
      (row : tokens = ⟨name word, s⟩ :: (mark ++ ⟨symbol .openParen, s'⟩ ::
        (inside ++ [⟨symbol .closeParen, s''⟩])))
      (given : Reads (.arguments arguments) inside readings) :
      Reads (.term 9 (.call word arguments primed)) tokens
        (readings ++ [node (.call word arguments primed) tokens])
  | parentheses {expr : Expr} {tokens inside : List Token} {s s' : Span}
      {readings : List Reading}
      (row : tokens = ⟨symbol .openParen, s⟩ :: (inside ++ [⟨symbol .closeParen, s'⟩]))
      (inner : Reads (.term 0 expr) inside readings) :
      Reads (.term 9 expr) tokens (readings ++ [(node expr tokens).aside])
  | none : Reads (.arguments []) [] []
  | last {expr : Expr} {tokens : List Token} {readings : List Reading}
      (only : Reads (.term 0 expr) tokens readings) : Reads (.arguments [expr]) tokens readings
  | more {expr next : Expr} {others : List Expr} {tokens before after : List Token} {s : Span}
      {one rest : List Reading} (row : tokens = before ++ ⟨symbol .comma, s⟩ :: after)
      (first : Reads (.term 0 expr) before one)
      (second : Reads (.arguments (next :: others)) after rest) :
      Reads (.arguments (expr :: next :: others)) tokens (one ++ rest)

namespace Reads

variable {phrase : Phrase} {tokens : List Token} {readings : List Reading}

theorem derives (reads : Reads phrase tokens readings) :
    Derives phrase (tokens.map Token.kind) := by
  induction reads with
  | definition row _ _ _ takes defines continues =>
    subst row
    simpa using Derives.definition _ takes defines continues
  | tried _ _ _ _ _ _ _ _ inner => exact .tighter (by omega) inner
  | tighter loose _ inner => exact .tighter loose inner
  | binary joins spelled row _ _ first second =>
    subst row
    rw [List.map_append, List.map_cons]
    cases joins with
    | chain leans => exact .chain leans rfl spelled first second
    | comparison compares => exact .comparison compares spelled first second
    | power =>
      rw [Operator.eq_sign_of_spelled spelled]
      exact .power first second
  | sign leads spelled row _ inner =>
    subst row
    exact .sign leads spelled inner
  | factorial row _ inner =>
    subst row
    simpa using Derives.factorial inner
  | member row _ inner =>
    subst row
    simpa using Derives.member _ inner
  | @leaf token expr found =>
    obtain ⟨kind, span⟩ := token
    cases kind <;> cases found
    · exact .number _
    · exact .text _
    · exact .var _
  | @call _ primed _ _ mark _ _ _ _ _ marked row _ given =>
    subst row
    simp only [List.map_cons, List.map_append, marked]
    cases primed with
    | true => exact .primed _ given
    | false => exact .call _ given
  | parentheses row _ inner =>
    subst row
    simpa using Derives.parentheses inner
  | none => exact .none
  | last _ only => exact .last only
  | more row _ _ first second =>
    subst row
    simpa using Derives.more first second

theorem level_le {level : Nat} {expr : Expr} (reads : Reads (.term level expr) tokens readings) :
    level ≤ 9 := by
  generalize shape : Phrase.term level expr = phrase at reads
  cases reads with
  | binary joins =>
    cases shape
    cases joins with
    | chain leans =>
      have listed := Operator.leansLeft_iff.mp leans
      simp only [List.mem_cons, List.not_mem_nil, or_false] at listed
      omega
    | _ => decide
  | tighter loose => cases shape; omega
  | _ => cases shape <;> decide

theorem statement {level : Nat} {expr : Expr} (reads : Reads (.term level expr) tokens readings) :
    Derives (.term 0 expr) (tokens.map Token.kind) :=
  reads.derives.loosen reads.level_le (Nat.zero_le _)

theorem loosen {level loose : Nat} {expr : Expr} (reads : Reads (.term level expr) tokens readings)
    (looser : loose ≤ level) : Reads (.term loose expr) tokens readings := by
  induction level with
  | zero => exact Nat.le_zero.mp looser ▸ reads
  | succ level ih =>
    rcases Nat.le_succ_iff.mp looser with looser | same
    · exact ih (reads.tighter reads.level_le) looser
    · exact same ▸ reads

theorem ne_nil {level : Nat} {expr : Expr} (reads : Reads (.term level expr) tokens readings) :
    tokens ≠ [] := by
  rintro rfl
  obtain ⟨kind, rest, same, -⟩ := reads.derives.first_token
  cases same

theorem node_stems {level : Nat} {expr : Expr} (reads : Reads (.term level expr) tokens readings) :
    (Reading.node expr tokens).Stems tokens :=
  ⟨tokens, List.infix_rfl, reads.ne_nil, rfl, reads.statement⟩

/-- Every tree that is read on the way stems from some of the tokens. -/
theorem stems (reads : Reads phrase tokens readings) :
    ∀ reading ∈ readings, reading.Stems tokens := by
  induction reads with
  | definition row takes defines continues heads bodies values =>
    have whole := (Reads.definition row takes defines continues).node_stems
    subst row
    simp only [List.forall_mem_append, List.forall_mem_map, List.forall_mem_singleton]
    exact ⟨⟨⟨fun reading member => (heads reading member).front.cons.cons.cons,
      fun reading member => (bodies reading member).front.cons.cons.back.cons.cons.cons⟩,
      fun reading member => (values reading member).cons.back.cons.cons.back.cons.cons.cons⟩,
      whole⟩
  | tried row _ _ _ _ _ heads tails readings =>
    subst row
    simp only [List.forall_mem_append, List.forall_mem_map]
    exact ⟨⟨fun reading member => (heads reading member).front.cons.cons.cons,
      fun reading member => (tails reading member).cons.cons.back.cons.cons.cons⟩, readings⟩
  | tighter _ _ readings | last _ readings => exact readings
  | binary joins spelled row first second lefts rights =>
    have whole := (Reads.binary joins spelled row first second).node_stems
    subst row
    simp only [List.forall_mem_append, List.forall_mem_singleton]
    exact ⟨⟨fun reading member => (lefts reading member).front,
      fun reading member => (rights reading member).cons.back⟩, whole⟩
  | sign leads spelled row inner readings =>
    have whole := (Reads.sign leads spelled row inner).node_stems
    subst row
    simp only [List.forall_mem_append, List.forall_mem_singleton]
    exact ⟨fun reading member => (readings reading member).cons, whole⟩
  | factorial row inner readings =>
    have whole := (Reads.factorial row inner).node_stems
    subst row
    simp only [List.forall_mem_append, List.forall_mem_singleton]
    exact ⟨fun reading member => (readings reading member).front, whole⟩
  | member row inner readings =>
    have whole := (Reads.member row inner).node_stems
    subst row
    simp only [List.forall_mem_append, List.forall_mem_singleton]
    exact ⟨fun reading member => (readings reading member).front, whole⟩
  | leaf found => exact List.forall_mem_singleton.mpr (Reads.leaf found).node_stems
  | call marked row given readings =>
    have whole := (Reads.call marked row given).node_stems
    subst row
    simp only [List.forall_mem_append, List.forall_mem_singleton]
    exact ⟨fun reading member => (readings reading member).front.cons.back.cons, whole⟩
  | parentheses row inner readings =>
    have whole := (Reads.parentheses row inner).node_stems
    subst row
    simp only [List.forall_mem_append, List.forall_mem_singleton]
    exact ⟨fun reading member => (readings reading member).front.cons, whole⟩
  | none => simp
  | more row _ _ one rest =>
    subst row
    simp only [List.forall_mem_append]
    exact ⟨fun reading member => (one reading member).front,
      fun reading member => (rest reading member).cons.back⟩

/-- The trees that are kept are the nodes of the result, each of them once. -/
theorem nodes_perm (reads : Reads phrase tokens readings) :
    ((Reading.nodes readings).map Reading.expr).Perm phrase.subtrees := by
  induction reads with
  | definition _ _ _ _ _ bodies values =>
    refine Reading.nodes_close _ _ ?_
    simpa [Reading.nodes_append, Phrase.subtrees] using bodies.append values
  | tried _ _ _ _ _ _ _ _ readings => simpa [Reading.nodes_append, Phrase.subtrees] using readings
  | tighter _ _ readings => exact readings
  | binary _ _ _ _ _ lefts rights =>
    refine Reading.nodes_close _ _ ?_
    simpa [Reading.nodes_append, Expr.subtreesAll_eq, Phrase.subtrees] using lefts.append rights
  | sign _ _ _ _ readings | factorial _ _ readings | member _ _ readings =>
    exact Reading.nodes_close _ _ readings
  | @leaf token expr found =>
    have alone : expr.subtrees = [expr] := by
      obtain ⟨kind, span⟩ := token
      cases kind <;> cases found <;> rfl
    rw [Phrase.subtrees, alone]
    exact .refl _
  | call _ _ _ readings =>
    refine Reading.nodes_close _ _ ?_
    simpa [Expr.subtreesAll_eq, Phrase.subtrees] using readings
  | parentheses _ _ readings =>
    rw [Reading.nodes_append]
    simpa [Reading.nodes, Reading.aside, Phrase.subtrees] using readings
  | none => exact .nil
  | last _ readings => simpa [Phrase.subtrees] using readings
  | more _ _ _ one rest => simpa [Reading.nodes_append, Phrase.subtrees] using one.append rest

/-- A tree that is a single name is the only one that is read on the way to it. -/
theorem eq_var {level : Nat} {word : String}
    (reads : Reads (.term level (.var word)) tokens readings) :
    ∀ reading ∈ readings, reading.expr = .var word := by
  generalize shape : Phrase.term level (.var word) = phrase at reads
  induction reads generalizing level with
  | tried _ _ _ _ left =>
    cases shape
    cases left
  | tighter _ _ ih =>
    cases shape
    exact ih rfl
  | leaf =>
    cases shape
    simp [Reading.node]
  | parentheses _ _ ih =>
    cases shape
    exact List.forall_mem_append.mpr ⟨ih rfl, by simp [Reading.node, Reading.aside]⟩
  | _ => cases shape

theorem mem_of_vars {names : List String}
    (reads : Reads (.arguments (names.map .var)) tokens readings) :
    ∀ reading ∈ readings, reading.expr ∈ names.map .var := by
  induction names generalizing tokens readings with
  | nil =>
    cases reads
    simp
  | cons word names ih =>
    cases names with
    | nil =>
      cases reads with
      | last only => simpa using only.eq_var
    | cons next names =>
      cases reads with
      | more _ first second =>
        refine List.forall_mem_append.mpr ⟨fun reading member => ?_, fun reading member => ?_⟩
        · rw [first.eq_var reading member]
          exact List.mem_cons_self
        · exact List.mem_cons_of_mem _ (ih second reading member)

/-- A tree that is not forestalled is found where its first node is. -/
theorem first_nodes (reads : Reads phrase tokens readings) {tree : Expr}
    (clear : ∀ part ∈ phrase.subtrees, part.forestalls tree = false) :
    Reading.first (Reading.nodes readings) tree = Reading.first readings tree := by
  induction reads with
  | @definition _ names _ _ _ _ _ _ _ _ _ _ _ _ heads _ _ _ takes _ _ _ bodies values =>
    simp only [Phrase.subtrees, Expr.subtrees, List.forall_mem_cons,
      List.forall_mem_append] at clear
    have none : Reading.first (heads.map Reading.aside) tree = .none := by
      rw [Reading.first_aside, Reading.first_eq_none]
      exact fun reading member => (Expr.forestalls_eq_false.mp clear.1).1 _
        (takes.mem_of_vars reading member)
    simp only [Reading.nodes_append, Reading.first_append, Reading.nodes_aside, none,
      bodies clear.2.1, values clear.2.2]
    rfl
  | @tried _ _ whole tail _ _ _ _ _ _ _ _ heads tails readings _ _ defines _ left again _ tailed
      readings_ih =>
      have apart := (Expr.forestalls_eq_false.mp (clear whole whole.self_mem_subtrees)).2 tail left
      have none : Reading.first tails tree = .none := by
        rw [← tailed (Expr.forestalls_tail clear left), Reading.first_eq_none]
        exact fun reading member => apart _
          (defines.nodes_perm.mem_iff.mp (List.mem_map_of_mem member))
      rw [Reading.nodes_append, Reading.nodes_aside, List.nil_append, readings_ih clear,
        Reading.first_append, Reading.first_aside, Reading.first_append, none, Option.or_none]
      cases found : Reading.first heads tree with
      | some span => exact again tree span found
      | none => rfl
  | tighter _ _ readings => exact readings clear
  | binary _ _ _ _ _ lefts rights =>
    simp only [Phrase.subtrees, Expr.subtrees, Expr.subtreesAll, List.forall_mem_cons,
      List.forall_mem_append] at clear
    simp only [Reading.nodes_append, Reading.first_append, lefts clear.2.1, rights clear.2.2.1,
      Reading.nodes_node]
  | sign _ _ _ _ readings | factorial _ _ readings | member _ _ readings =>
    simp only [Phrase.subtrees, Expr.subtrees, List.forall_mem_cons] at clear
    simp only [Reading.nodes_append, Reading.first_append, readings clear.2, Reading.nodes_node]
  | leaf => rfl
  | call _ _ _ readings =>
    simp only [Phrase.subtrees, Expr.subtrees, Expr.subtreesAll_eq, List.forall_mem_cons] at clear
    simp only [Reading.nodes_append, Reading.first_append, readings clear.2, Reading.nodes_node]
  | @parentheses whole _ _ _ _ inside _ inner readings =>
    have kept := inner.nodes_perm.mem_iff.mpr whole.self_mem_subtrees
    obtain ⟨reading, member, same⟩ := List.mem_map.mp kept
    rw [Reading.nodes_append, Reading.first_append, Reading.first_append, readings clear]
    -- Where the tree in parentheses is looked for, it was found without them.
    cases found : Reading.first inside tree with
    | some span => rfl
    | none =>
      have other := Reading.first_eq_none.mp found reading (List.mem_filter.mp member).1
      rw [same] at other
      simp [Reading.first, Reading.nodes, Reading.aside, Reading.node, other]
  | none => rfl
  | last _ readings =>
    simp only [Phrase.subtrees, List.flatMap_cons, List.flatMap_nil, List.append_nil] at clear
    exact readings clear
  | more _ _ _ one rest =>
    rw [Phrase.subtrees, List.flatMap_cons, List.forall_mem_append] at clear
    rw [Reading.nodes_append, Reading.first_append, Reading.first_append, one clear.1,
      rest clear.2]

theorem nodes_close_apart {level : Nat} {expr : Expr}
    (reads : Reads (.term level expr) tokens (readings ++ [.node expr tokens]))
    (parts : (Reading.nodes readings).Pairwise Reading.Apart) :
    (Reading.nodes (readings ++ [.node expr tokens])).Pairwise Reading.Apart := by
  rw [Reading.nodes_append, Reading.nodes_node]
  refine List.pairwise_append.mpr ⟨parts, List.pairwise_singleton _ _, ?_⟩
  intro part member whole same equal
  obtain rfl := List.mem_singleton.mp same
  -- The whole is read last and is larger than its parts, so it is equal to none of them.
  have perm := reads.nodes_perm
  rw [Reading.nodes_append, Reading.nodes_node, List.map_append, Phrase.subtrees,
    Expr.subtrees_eq] at perm
  have below := ((List.perm_append_singleton _ _).symm.trans perm).cons_inv.mem_iff.mp
    (List.mem_map_of_mem member)
  obtain ⟨child, listed, below⟩ := List.mem_flatMap.mp below
  have smaller := Expr.size_lt_of_mem listed below
  exact absurd (Expr.size_eq_of_beq equal) (Nat.ne_of_lt smaller)

theorem nodes_append_apart {phrase' : Phrase} {front rest : List Token} {one two : List Reading}
    (first : Reads phrase front one) (second : Reads phrase' rest two) {sign : Token}
    (ordered : Token.Ordered (front ++ sign :: rest))
    (lefts : (Reading.nodes one).Pairwise Reading.Apart)
    (rights : (Reading.nodes two).Pairwise Reading.Apart) :
    (Reading.nodes (one ++ two)).Pairwise Reading.Apart := by
  rw [Reading.nodes_append]
  refine List.pairwise_append.mpr ⟨lefts, rights, fun reading member other member' _ => ?_⟩
  exact Reading.Stems.apart ordered (first.stems reading (List.mem_filter.mp member).1)
    (second.stems other (List.mem_filter.mp member').1).cons

/-- Of two equal trees that are kept, the one that was read first ends before the other starts. -/
theorem nodes_apart (reads : Reads phrase tokens readings) (ordered : Token.Ordered tokens) :
    (Reading.nodes readings).Pairwise Reading.Apart := by
  induction reads with
  | definition row takes defines continues heads bodies values =>
    refine nodes_close_apart (.definition row takes defines continues) ?_
    subst row
    have later := ordered.tail.tail.tail.right.tail.tail
    rw [List.append_assoc, Reading.nodes_append, Reading.nodes_aside, List.nil_append]
    exact nodes_append_apart defines continues later (bodies later.left) (values later.right.tail)
  | tried _ _ _ _ _ _ _ _ readings =>
    rw [Reading.nodes_append, Reading.nodes_aside, List.nil_append]
    exact readings ordered
  | tighter _ _ readings | last _ readings => exact readings ordered
  | binary joins spelled row first second lefts rights =>
    refine nodes_close_apart (.binary joins spelled row first second) ?_
    subst row
    exact nodes_append_apart first second ordered (lefts ordered.left) (rights ordered.right.tail)
  | sign leads spelled row inner readings =>
    refine nodes_close_apart (.sign leads spelled row inner) ?_
    subst row
    exact readings ordered.tail
  | factorial row inner readings =>
    refine nodes_close_apart (.factorial row inner) ?_
    subst row
    exact readings ordered.left
  | member row inner readings =>
    refine nodes_close_apart (.member row inner) ?_
    subst row
    exact readings ordered.left
  | leaf => exact List.pairwise_singleton _ _
  | call marked row given readings =>
    refine nodes_close_apart (.call marked row given) ?_
    subst row
    exact readings ordered.tail.right.tail.left
  | parentheses row _ readings =>
    subst row
    rw [Reading.nodes_append]
    simpa [Reading.nodes, Reading.aside] using readings ordered.tail.left
  | none => exact .nil
  | more row first second one rest =>
    subst row
    exact nodes_append_apart first second ordered (one ordered.left) (rest ordered.right.tail)

end Reads

end Formulary
