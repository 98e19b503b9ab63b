import Formulary.Proofs.Expr.Complete
import Formulary.Proofs.Expr.Names
import Formulary.Proofs.Token.Scan

namespace Formulary.Expr

/-! The written form of a tree derives the tree again, with numbers that are equal to its own:
    each operand is written so that it stands for a phrase as tight as its place requires. -/

open Token (Breaks EndsSign Scans isName)

mutual

/-- What holds of a tree when it holds of its parts, holds of all trees. -/
theorem parts_induction {motive : Expr → Prop}
    (step : ∀ expr : Expr, (∀ part ∈ expr.children, motive part) → motive expr)
    (expr : Expr) : motive expr :=
  match expr with
  | number _ | text _ | var _ => step _ (by simp [children])
  | unary _ operand => step _ (by simpa [children] using parts_induction step operand)
  | binary _ operands => step _ (parts_induction_all step operands)
  | member target _ => step _ (by simpa [children] using parts_induction step target)
  | call _ arguments _ => step _ (parts_induction_all step arguments)
  | define _ _ body value =>
    step _ (by simpa [children] using ⟨parts_induction step body, parts_induction step value⟩)

theorem parts_induction_all {motive : Expr → Prop}
    (step : ∀ expr : Expr, (∀ part ∈ expr.children, motive part) → motive expr)
    (exprs : List Expr) : ∀ part ∈ exprs, motive part :=
  match exprs with
  | [] => by simp
  | expr :: rest => by simpa using ⟨parts_induction step expr, parts_induction_all step rest⟩

end

theorem subtrees_eq (expr : Expr) : expr.subtrees = expr :: expr.children.flatMap subtrees := by
  cases expr <;> simp [subtrees, children, subtreesAll_eq]

theorem forall_subtrees {p : Expr → Prop} {expr : Expr} :
    (∀ part ∈ expr.subtrees, p part) ↔
      p expr ∧ ∀ child ∈ expr.children, ∀ part ∈ child.subtrees, p part := by
  simp only [subtrees_eq expr, List.forall_mem_cons, List.mem_flatMap]
  grind

theorem precedence_le (expr : Expr) : expr.precedence ≤ 9 := by
  unfold precedence
  split
  · split <;> decide
  all_goals try decide
  next op _ => cases op <;> decide

def isComparison : Expr → Bool
  | binary op _ => op.isComparison
  | _ => false

def isDefinition : Expr → Bool
  | define _ _ _ _ => true
  | _ => false

/-- Whether the node has a written form: its number is not negative, its names are names, and
    an operator stands between two operands. -/
def isLexical : Expr → Bool
  | number value => !value.isNegative && Decimal.scaleFits value.scale
  | text _ | unary _ _ => true
  | var name | member _ name | call name _ _ => isName name
  | binary _ operands => operands.length == 2
  | define name parameters _ _ => isName name && parameters.all isName

/-- Whether the written form of the node keeps what it is: a text has no backslash, what a
    comparison has on its left is no comparison, and the body of a definition is no
    definition. -/
def isFaithful : Expr → Bool
  | text content => !content.toList.contains '\\'
  | binary op (left :: _) => !(op.isComparison && left.isComparison)
  | define _ _ body _ => !body.isDefinition
  | _ => true

/-- The text is divided into these tokens in front of whatever ends words and numbers. -/
def Prints (text : List Char) (words : List TokenKind) : Prop :=
  ∀ ⦃rest kinds⦄, Breaks rest → Scans rest kinds → Scans (text ++ rest) (words ++ kinds)

/-- The text begins with a character that completes no sign in front of it. -/
def Leads (text : List Char) : Prop := ∃ c tail, text = c :: tail ∧ c ∉ ['&', '|', '^', '=']

theorem Leads.append {text : List Char} (leads : Leads text) (rest : List Char) :
    Leads (text ++ rest) := by
  obtain ⟨c, tail, rfl, other⟩ := leads
  exact ⟨c, tail ++ rest, rfl, other⟩

/-- The text derives the tree at the level, up to the way its numbers are stored. -/
def Writes (text : List Char) (level : Nat) (expr : Expr) : Prop :=
  ∃ read words, equal read expr = true ∧ Derives (.term level read) words ∧ Prints text words ∧
    Leads text

section Prints

variable {text other : List Char} {words others : List TokenKind}

theorem Prints.parenthesized (prints : Prints text words) :
    Prints ('(' :: text ++ [')'])
      (.symbol .openParen :: (words ++ [.symbol .closeParen])) := by
  intro rest kinds _ scans
  have closed : Scans (')' :: rest) (.symbol .closeParen :: kinds) :=
    .symbol .closeParen trivial scans
  have inside := prints (.mark (by simp)) closed
  have opened : Scans ('(' :: (text ++ ')' :: rest)) (.symbol .openParen :: _) :=
    .symbol .openParen trivial inside
  simpa using opened

theorem Prints.between (op : Operator) (prints : Prints text words) (second : Prints other others) :
    Prints (text ++ (' ' :: op.symbol.toList ++ [' ']) ++ other)
      (words ++ .symbol op.sign :: others) := by
  intro rest kinds breaks scans
  have space : Text.isBlank ' ' = true := by decide
  have apart : EndsSign op.sign (' ' :: (other ++ rest)) := by
    cases op <;> simp [Operator.sign, EndsSign]
  have signed := Scans.symbol op.sign apart (.blank space (second breaks scans))
  have whole := prints (.mark (by simp)) (.blank space signed)
  simpa [op.spelling_sign] using whole

theorem Prints.signed {op : UnaryOperator} {sign : Symbol} (leads : op ≠ .factorial)
    (spelled : sign.spelling = op.symbol) (prints : Prints text words) (first : Leads text) :
    Prints (op.symbol.toList ++ text) (.symbol sign :: words) := by
  intro rest kinds breaks scans
  have apart : EndsSign sign (text ++ rest) := by
    obtain ⟨c, tail, same, other⟩ := first.append rest
    rw [same]
    cases op with
    | negate =>
      obtain rfl : sign = .minus := Symbol.spelling_injective spelled
      trivial
    | not =>
      obtain rfl : sign = .tilde := Symbol.spelling_injective spelled
      simpa [EndsSign] using other
    | factorial => exact absurd rfl leads
  have whole := Scans.symbol sign apart (prints breaks scans)
  simpa [spelled] using whole

theorem Prints.bang (prints : Prints text words) :
    Prints (text ++ ['!']) (words ++ [.symbol .bang]) := by
  intro rest kinds _ scans
  have marked : Scans ('!' :: rest) (.symbol .bang :: kinds) := .symbol .bang trivial scans
  simpa using prints (.mark (by simp)) marked

theorem Prints.name {word : String} (named : isName word = true) :
    Prints word.toList [.name word] :=
  fun _ _ breaks scans => .name named breaks scans

theorem Leads.name {word : String} (named : isName word = true) : Leads word.toList := by
  obtain ⟨c, tail, spelled, starts, _⟩ := Token.isName_iff.mp named
  refine ⟨c, tail, spelled, ?_⟩
  intro listed
  have sign : Token.startsName c = false :=
    Token.eq_false_of_all Token.startsName (by decide +kernel) listed
  rw [sign] at starts
  cases starts

theorem Prints.dotted {word : String} (named : isName word = true) (prints : Prints text words) :
    Prints (text ++ '.' :: word.toList) (words ++ [.symbol .dot, .name word]) := by
  intro rest kinds breaks scans
  obtain ⟨c, tail, spelled, starts, _⟩ := Token.isName_iff.mp named
  have named := Scans.name named breaks scans
  have apart : EndsSign .dot (word.toList ++ rest) := by
    rw [spelled]
    exact Token.isDigit_of_startsName starts
  have dotted : Scans ('.' :: (word.toList ++ rest)) (.symbol .dot :: .name word :: kinds) :=
    .symbol .dot apart named
  have breaks : Breaks ('.' :: (word.toList ++ rest)) := by
    rw [spelled]
    exact .dot starts
  simpa using prints breaks dotted

theorem Prints.called {word : String} (named : isName word = true) (prints : Prints text words) :
    Prints (word.toList ++ '(' :: text ++ [')'])
      (.name word :: .symbol .openParen :: (words ++ [.symbol .closeParen])) := by
  intro rest kinds breaks scans
  have inside := prints.parenthesized breaks scans
  simpa using Scans.name named (.mark (by simp)) inside

theorem Prints.primed {word : String} (named : isName word = true) (prints : Prints text words) :
    Prints (word.toList ++ '\'' :: '(' :: text ++ [')'])
      (.name word :: .symbol .prime :: .symbol .openParen :: (words ++ [.symbol .closeParen])) := by
  intro rest kinds breaks scans
  have inside := prints.parenthesized breaks scans
  have primed : Scans ('\'' :: _) (.symbol .prime :: _) := .symbol .prime trivial inside
  simpa using Scans.name named (.mark (by simp)) primed

theorem Prints.listed (prints : Prints text words) (second : Prints other others) :
    Prints (text ++ [',', ' '] ++ other) (words ++ .symbol .comma :: others) := by
  intro rest kinds breaks scans
  have space : Text.isBlank ' ' = true := by decide
  have behind : Scans (',' :: ' ' :: (other ++ rest)) (.symbol .comma :: (others ++ kinds)) :=
    .symbol .comma trivial (.blank space (second breaks scans))
  simpa using prints (.mark (by simp)) behind

theorem Prints.defined {word : String} {inside body value : List Char}
    {insideWords bodyWords valueWords : List TokenKind} (named : isName word = true)
    (takes : Prints inside insideWords) (defines : Prints body bodyWords)
    (continues : Prints value valueWords) :
    Prints (word.toList ++ '\'' :: '(' :: inside ++ ")".toList ++ " = ".toList ++ body ++
        "; ".toList ++ value)
      (.name word :: .symbol .prime :: .symbol .openParen ::
        (insideWords ++ .symbol .closeParen :: .symbol .equals ::
          (bodyWords ++ .symbol .semicolon :: valueWords))) := by
  intro rest kinds breaks scans
  have space : Text.isBlank ' ' = true := by decide
  have after :
      Scans (';' :: ' ' :: (value ++ rest)) (.symbol .semicolon :: (valueWords ++ kinds)) :=
    .symbol .semicolon trivial (.blank space (continues breaks scans))
  have body := defines (.mark (by simp)) after
  have equals : Scans ('=' :: ' ' :: _) (.symbol .equals :: _) :=
    .symbol .equals trivial (.blank space body)
  simpa using takes.primed named (.mark (by simp)) (.blank space equals)

end Prints

section Writes

variable {expr left right : Expr} {text other : List Char} {level : Nat} {word : String}

theorem Writes.loosen {loose : Nat} (writes : Writes text level expr) (bound : level ≤ 9)
    (looser : loose ≤ level) : Writes text loose expr := by
  obtain ⟨read, words, same, derived, rest⟩ := writes
  exact ⟨read, words, same, derived.loosen bound looser, rest⟩

/-- An operand stands in parentheses where it is too loose for its place. -/
theorem Writes.operand (writes : Writes expr.chars expr.precedence expr) (bound : level ≤ 9) :
    Writes (parenthesize (expr.precedence < level) expr.chars) level expr := by
  obtain ⟨read, words, same, derived, prints, leads⟩ := writes
  by_cases loose : expr.precedence < level
  · have inside := derived.loosen expr.precedence_le (Nat.zero_le _)
    simp only [parenthesize, loose, decide_true, if_true]
    exact ⟨read, _, same, (Derives.parentheses inside).loosen (Nat.le_refl 9) bound,
      prints.parenthesized, '(', _, rfl, by simp⟩
  · simp only [parenthesize, loose, decide_false, Bool.false_eq_true, if_false]
    exact ⟨read, words, same, derived.loosen expr.precedence_le (by omega), prints, leads⟩

theorem writes_number {value : Decimal} (positive : value.isNegative = false)
    (fits : Decimal.scaleFits value.scale = true) : Writes value.chars 9 (number value) := by
  obtain ⟨n, written, fits, same⟩ := Decimal.writes_chars positive fits
  obtain ⟨c, tail, whole⟩ := List.exists_cons_of_ne_nil n.whole_ne_nil
  have digit : Digits.isDigit c = true := n.whole_digits c (by simp [whole])
  rw [written]
  refine ⟨number n.decimal, [.number n.decimal], Decimal.beq_iff.mpr same, .number _,
    fun rest kinds breaks scans => .number fits breaks scans, c, _,
    by rw [Decimal.Numeral.chars, whole]; rfl, ?_⟩
  intro listed
  have sign : Digits.isDigit c = false :=
    Token.eq_false_of_all Digits.isDigit (by decide) listed
  rw [sign] at digit
  cases digit

theorem writes_text {content : String} (plain : '\\' ∉ content.toList) :
    Writes (quote content.toList) 9 (.text content) := by
  refine ⟨.text content, [.text content], beq_self_eq_true content, .text content, ?_,
    '"', _, rfl, by simp⟩
  intro rest kinds _ scans
  have scanned := Scans.text plain scans
  simpa [quote, Token.escaped] using scanned

theorem writes_var (named : isName word = true) : Writes word.toList 9 (var word) :=
  ⟨var word, _, beq_self_eq_true word, .var word, .name named, .name named⟩

theorem Writes.factorial (writes : Writes text 8 expr) :
    Writes (text ++ ['!']) 8 (unary .factorial expr) := by
  obtain ⟨read, words, same, derived, prints, leads⟩ := writes
  exact ⟨unary .factorial read, _, same, .factorial derived, prints.bang, leads.append _⟩

theorem Writes.signed {op : UnaryOperator} (front : op ≠ .factorial) (writes : Writes text 6 expr) :
    Writes (op.symbol.toList ++ text) 6 (unary op expr) := by
  obtain ⟨read, words, same, derived, prints, leads⟩ := writes
  obtain ⟨sign, spelled⟩ : ∃ sign : Symbol, sign.spelling = op.symbol := by
    cases op
    · exact ⟨.minus, rfl⟩
    · exact ⟨.tilde, rfl⟩
    · exact ⟨.bang, rfl⟩
  have first : Leads op.symbol.toList := by
    cases op
    · exact ⟨'-', [], rfl, by simp⟩
    · exact ⟨'~', [], rfl, by simp⟩
    · exact ⟨'!', [], rfl, by simp⟩
  refine ⟨unary op read, _, ?_, .sign front spelled derived, prints.signed front spelled leads,
    first.append _⟩
  simp [equal, same]

theorem Writes.member (named : isName word = true) (writes : Writes text 8 expr) :
    Writes (text ++ '.' :: word.toList) 8 (member expr word) := by
  obtain ⟨read, words, same, derived, prints, leads⟩ := writes
  refine ⟨Expr.member read word, _, ?_, .member word derived, prints.dotted named, leads.append _⟩
  simp [equal, same]

theorem equal_binary {read read' : Expr} (op : Operator) (same : equal read left = true)
    (same' : equal read' right = true) :
    equal (binary op [read, read']) (binary op [left, right]) = true := by
  simp [equal, equalAll, same, same']

theorem Writes.chain {op : Operator} (leans : op.LeansLeft) (first : Writes text op.precedence left)
    (second : Writes other (op.precedence + 1) right) :
    Writes (text ++ (' ' :: op.symbol.toList ++ [' ']) ++ other) op.precedence
      (binary op [left, right]) := by
  obtain ⟨read, words, same, derived, prints, leads⟩ := first
  obtain ⟨read', words', same', derived', prints', _⟩ := second
  exact ⟨_, _, equal_binary op same same', .chain leans rfl op.spelling_sign derived derived',
    prints.between op prints', (leads.append _).append _⟩

theorem Writes.comparison {op : Operator} (compares : op.isComparison = true)
    (first : Writes text 4 left) (second : Writes other 4 right) :
    Writes (text ++ (' ' :: op.symbol.toList ++ [' ']) ++ other) 3 (binary op [left, right]) := by
  obtain ⟨read, words, same, derived, prints, leads⟩ := first
  obtain ⟨read', words', same', derived', prints', _⟩ := second
  exact ⟨_, _, equal_binary op same same', .comparison compares op.spelling_sign derived derived',
    prints.between op prints', (leads.append _).append _⟩

theorem Writes.power (first : Writes text 8 left) (second : Writes other 6 right) :
    Writes (text ++ (' ' :: Operator.power.symbol.toList ++ [' ']) ++ other) 7
      (binary .power [left, right]) := by
  obtain ⟨read, words, same, derived, prints, leads⟩ := first
  obtain ⟨read', words', same', derived', prints', _⟩ := second
  exact ⟨_, _, equal_binary .power same same', .power derived derived',
    prints.between .power prints', (leads.append _).append _⟩

theorem writes_arguments {exprs : List Expr}
    (each : ∀ expr ∈ exprs, Writes expr.chars expr.precedence expr) :
    ∃ reads words, equalAll reads exprs = true ∧ Derives (.arguments reads) words ∧
      Prints (joined [',', ' '] (argumentChars exprs)) words := by
  induction exprs with
  | nil => exact ⟨[], [], rfl, .none, fun _ _ _ scans => scans⟩
  | cons expr exprs ih =>
    obtain ⟨read, words, same, derived, prints, _⟩ := each expr List.mem_cons_self
    obtain ⟨reads, words', same', derived', prints'⟩ :=
      ih fun expr member => each expr (List.mem_cons_of_mem _ member)
    have derived := derived.loosen expr.precedence_le (Nat.zero_le _)
    have both : equalAll (read :: reads) (expr :: exprs) = true := by
      rw [equalAll, same, same', Bool.and_true]
    cases exprs with
    | nil =>
      cases reads with
      | nil => exact ⟨[read], words, both, .last derived, prints⟩
      | cons => cases same'
    | cons next others =>
      cases reads with
      | nil => cases same'
      | cons read' reads =>
        exact ⟨_, _, both, .more derived derived', prints.listed prints'⟩

theorem equalAll_var {reads : List Expr} {names : List String}
    (same : equalAll reads (names.map var) = true) : reads = names.map var := by
  induction names generalizing reads with
  | nil =>
    cases reads with
    | nil => rfl
    | cons => cases same
  | cons name names ih =>
    cases reads with
    | nil => cases same
    | cons read reads =>
      simp only [List.map_cons, equalAll, Bool.and_eq_true] at same ⊢
      rw [ih same.2]
      cases read with
      | var other =>
        have same : other = name := by simpa [equal] using same.1
        rw [same]
      | _ => simp [equal] at same

theorem Writes.call {arguments : List Expr} (named : isName word = true) (primed : Bool)
    (each : ∀ expr ∈ arguments, Writes expr.chars expr.precedence expr) :
    Writes (call word arguments primed).chars 9 (call word arguments primed) := by
  obtain ⟨reads, words, same, derived, prints⟩ := writes_arguments each
  have equal : equal (.call word reads primed) (.call word arguments primed) = true := by
    simp [equal, same]
  have leads (tail : List Char) : Leads (word.toList ++ tail) := (Leads.name named).append tail
  cases primed with
  | false =>
    refine ⟨_, _, equal, .call word derived, ?_, ?_⟩
    · simpa [chars] using prints.called named
    · simpa [chars] using leads _
  | true =>
    refine ⟨_, _, equal, .primed word derived, ?_, ?_⟩
    · simpa [chars] using prints.primed named
    · simpa [chars] using leads _

theorem Writes.define {parameters : List String} {body value : Expr} (named : isName word = true)
    (names : ∀ name ∈ parameters, isName name = true)
    (defines : Writes body.chars 1 body) (continues : Writes value.chars 0 value) :
    Writes (define word parameters body value).chars 0 (define word parameters body value) := by
  have takes : ∀ expr ∈ parameters.map var, Writes expr.chars expr.precedence expr := by
    simpa [chars, precedence] using fun name member => writes_var (names name member)
  obtain ⟨reads, inside, sameNames, derivedNames, printsNames⟩ := writes_arguments takes
  obtain rfl := equalAll_var sameNames
  obtain ⟨read, words, same, derived, prints, _⟩ := defines
  obtain ⟨read', words', same', derived', prints', _⟩ := continues
  have texts : argumentChars (parameters.map var) = parameters.map String.toList := by
    clear * -
    induction parameters with
    | nil => rfl
    | cons name parameters ih => rw [List.map_cons, argumentChars, ih, chars, List.map_cons]
  rw [texts] at printsNames
  refine ⟨_, _, ?_, .definition word derivedNames derived derived',
    printsNames.defined named prints prints', ?_⟩
  · simp [equal, same, same']
  · simpa [chars] using (Leads.name named).append _

end Writes

theorem precedence_pos {expr : Expr} (other : expr.isDefinition = false) : 1 ≤ expr.precedence := by
  cases expr with
  | number value =>
    simp only [precedence]
    split <;> decide
  | unary op => cases op <;> simp [precedence]
  | binary op => exact op.precedence_pos
  | define => cases other
  | _ => simp [precedence]

theorem precedence_eq_three {expr : Expr} :
    expr.precedence = 3 ↔ expr.isComparison = true := by
  cases expr with
  | number value =>
    simp only [precedence, isComparison]
    split <;> simp
  | unary op => cases op <;> simp [precedence, isComparison]
  | binary op => exact Operator.isComparison_iff.symm
  | _ => simp [precedence, isComparison]

theorem writes_binary {op : Operator} {left right : Expr}
    (apart : op.isComparison = true → left.isComparison = false)
    (first : Writes left.chars left.precedence left)
    (second : Writes right.chars right.precedence right) :
    Writes (binary op [left, right]).chars op.precedence (binary op [left, right]) := by
  have written : (binary op [left, right]).chars =
      parenthesize (left.precedence < op.operandPrecedence true) left.chars ++
        (' ' :: op.symbol.toList ++ [' ']) ++
        parenthesize (right.precedence < op.operandPrecedence false) right.chars := by
    simp [chars, operandChars, joined]
  rw [written]
  by_cases power : op = .power
  · subst power
    exact .power (first.operand (by decide))
      ((second.operand (by decide)).loosen (by decide) (by decide))
  have places : op.operandPrecedence true = op.precedence ∧
      op.operandPrecedence false = op.precedence + 1 := by
    simp [Operator.operandPrecedence, power]
  rw [places.1, places.2]
  by_cases compares : op.isComparison = true
  · -- What stands on the left is no comparison, so that it binds more tightly than one.
    have strength := Operator.isComparison_iff.mp compares
    have tighter : decide (left.precedence < 3) = decide (left.precedence < 4) := by
      have other : left.precedence ≠ 3 := by simp [precedence_eq_three, apart compares]
      simp only [decide_eq_decide]
      omega
    rw [strength, tighter]
    exact .comparison compares (first.operand (by decide)) (second.operand (by decide))
  · have leans : op.LeansLeft := ⟨by simpa using compares, power⟩
    have level := Operator.leansLeft_iff.mp leans
    simp only [List.mem_cons, List.not_mem_nil, or_false] at level
    exact .chain leans (first.operand (by omega)) (second.operand (by omega))

/-- The written form of a tree derives the tree at the level of its binding strength. -/
theorem writes_chars (expr : Expr)
    (well : ∀ part ∈ expr.subtrees, part.isLexical = true ∧ part.isFaithful = true) :
    Writes expr.chars expr.precedence expr := by
  induction expr using parts_induction with
  | step expr ih =>
    obtain ⟨⟨lexical, faithful⟩, below⟩ := forall_subtrees.mp well
    have parts : ∀ part ∈ expr.children, Writes part.chars part.precedence part :=
      fun part member => ih part member (below part member)
    cases expr with
    | number value =>
      simp only [isLexical, Bool.and_eq_true, Bool.not_eq_true'] at lexical
      simpa [chars, precedence, lexical.1] using writes_number lexical.1 lexical.2
    | text content => exact writes_text (by simpa [isFaithful] using faithful)
    | var name => exact writes_var lexical
    | unary op operand =>
      have operand := parts operand List.mem_cons_self
      cases op with
      | factorial =>
        exact ((operand.operand (Nat.le_refl 9)).loosen (by decide) (by decide)).factorial
      | negate => exact .signed (by simp) (operand.operand (by omega))
      | not => exact .signed (by simp) (operand.operand (by omega))
    | binary op operands =>
      obtain ⟨left, right, rfl⟩ := List.length_eq_two.mp (beq_iff_eq.mp lexical)
      simp only [children, List.forall_mem_cons] at parts
      have apart : op.isComparison = true → left.isComparison = false := by
        simpa [isFaithful, imp_iff_not_or] using faithful
      exact writes_binary apart parts.1 parts.2.1
    | member target name =>
      exact .member lexical ((parts target List.mem_cons_self).operand (by omega))
    | call name arguments primed => exact .call lexical primed parts
    | define name parameters body value =>
      simp only [isLexical, Bool.and_eq_true, List.all_eq_true] at lexical
      simp only [children, List.forall_mem_cons] at parts
      have tight : 1 ≤ body.precedence := precedence_pos (by simpa [isFaithful] using faithful)
      exact .define lexical.1 lexical.2 (parts.1.loosen body.precedence_le tight)
        (parts.2.1.loosen value.precedence_le (Nat.zero_le _))

end Formulary.Expr
