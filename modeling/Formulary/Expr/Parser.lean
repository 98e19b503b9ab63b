import Formulary.Expr.Printer
import Formulary.SpanMap
import Formulary.Token.Lexer

namespace Formulary.Expr

/-! Reading of a formula by levels of precedence, from disjunctions down to single words. The
    spans of the trees that were read are kept even when a reading is given up. -/

/-- Tokens not yet read, and the end of the last token read. -/
structure Cursor where
  rest : List Token
  lastEnd : Nat
deriving Inhabited

abbrev ParseM := StateT Cursor (ExceptT ParseError (StateM SpanMap))

namespace Cursor

/-- The next token; after all of them, an end mark. -/
def next (cursor : Cursor) : Token :=
  cursor.rest.headD ⟨.finish, ⟨cursor.lastEnd, cursor.lastEnd⟩⟩

end Cursor

namespace ParseM

def next : ParseM Token := do return (← get).next

def start : ParseM Nat := do return (← next).span.start

def advance : ParseM Unit :=
  modify fun cursor =>
    match cursor.rest with
    | token :: rest => ⟨rest, token.span.stop⟩
    | [] => cursor

/-- Step over the given symbol if it comes next. -/
def skip? (symbol : Symbol) : ParseM Bool := do
  if (← next).isSymbol symbol then
    advance
    return true
  return false

def unexpected (expected : String) : ParseM α := do
  let token ← next
  throw (.unexpectedToken expected token.kind.description token.span.start)

def expect (symbol : Symbol) (expected : String) : ParseM Unit := do
  if !(← skip? symbol) then unexpected expected

/-- Keep the span of a tree from `start` to the last token read. -/
def located (start : Nat) (expr : Expr) : ParseM Expr := do
  let stop := (← get).lastEnd
  modifyThe SpanMap (·.record expr ⟨start, stop⟩)
  return expr

/-- The result of a reading, or nothing and the cursor where it was when the reading fails or
    declines. -/
def attempt (reading : ParseM (Option α)) : ParseM (Option α) := fun cursor spans =>
  match reading cursor spans with
  | (.ok (some result, after), spans') => (.ok (some result, after), spans')
  | (_, spans') => (.ok (none, cursor), spans')

end ParseM

open ParseM

/-- Readings of the parts that can contain further parts of any depth: a whole statement, and
    an operand with its signs. -/
structure Readers where
  statement : ParseM Expr
  operand : ParseM Expr

def orOperator : TokenKind → Option Operator
  | .symbol .bar => some .or
  | .symbol .tildeBar => some .nor
  | .symbol .doubleCaret => some .xor
  | .symbol .tildeCaret => some .xnor
  | _ => none

def andOperator : TokenKind → Option Operator
  | .symbol .ampersand => some .and
  | .symbol .tildeAmpersand => some .nand
  | _ => none

def comparisonOperator : TokenKind → Option Operator
  | .symbol .equals => some .equal
  | .symbol .tildeEquals => some .unequal
  | .symbol .less => some .less
  | .symbol .greater => some .greater
  | .symbol .lessEquals => some .atMost
  | .symbol .greaterEquals => some .atLeast
  | _ => none

def sumOperator : TokenKind → Option Operator
  | .symbol .plus => some .add
  | .symbol .minus => some .sub
  | _ => none

def productOperator : TokenKind → Option Operator
  | .symbol .star => some .mul
  | .symbol .slash => some .div
  | .symbol .percent => some .rem
  | _ => none

def signOperator : TokenKind → Option UnaryOperator
  | .symbol .minus => some .negate
  | .symbol .tilde => some .not
  | _ => none

/-- Statements separated by commas, through the closing parenthesis. -/
def readMoreArguments (inner : Readers) : Nat → ParseM (List Expr)
  | 0 => unexpected "expression"
  | fuel + 1 => do
    let argument ← inner.statement
    if ← skip? .comma then
      return argument :: (← readMoreArguments inner fuel)
    expect .closeParen "',' or ')'"
    return [argument]

/-- Arguments after an opening parenthesis, through the closing one. -/
def readArguments (inner : Readers) : ParseM (List Expr) := do
  if ← skip? .closeParen then return []
  readMoreArguments inner (← get).rest.length

/-- A number, a text, a name, a call, or a statement in parentheses. -/
def readPrimary (inner : Readers) : ParseM Expr := do
  let token ← next
  let expr ← match token.kind with
    | .number value => advance; pure (number value)
    | .text content => advance; pure (text content)
    | .name name => do
      advance
      if ← skip? .openParen then
        pure (call name (← readArguments inner) false)
      else if ← skip? .prime then
        expect .openParen "'(' after prime"
        pure (call name (← readArguments inner) true)
      else
        pure (var name)
    | .symbol .openParen => do
      advance
      let statement ← inner.statement
      expect .closeParen "')'"
      pure statement
    | _ => unexpected "expression"
  located token.span.start expr

/-- Factorials and member names behind an operand that starts at `start`. -/
def readSuffixes (start : Nat) : Nat → Expr → ParseM Expr
  | 0, expr => return expr
  | fuel + 1, expr => do
    if ← skip? .bang then
      readSuffixes start fuel (← located start (unary .factorial expr))
    else if ← skip? .dot then
      match (← next).kind with
      | .name name =>
        advance
        readSuffixes start fuel (← located start (member expr name))
      | _ => unexpected "member name"
    else
      return expr

def readPostfix (inner : Readers) : ParseM Expr := do
  let start ← start
  let expr ← readPrimary inner
  readSuffixes start (← get).rest.length expr

/-- A power; its exponent may carry signs and powers of its own. -/
def readPower (inner : Readers) : ParseM Expr := do
  let start ← start
  let base ← readPostfix inner
  if ← skip? .caret then
    let exponent ← inner.operand
    located start (binary .power [base, exponent])
  else
    return base

/-- A power with any signs in front of it. -/
def readOperand (inner : Readers) : ParseM Expr := do
  let token ← next
  match signOperator token.kind with
  | some op =>
    advance
    let operand ← inner.operand
    located token.span.start (unary op operand)
  | none => readPower inner

/-- Further operands of a level whose chains lean to the left. -/
def readChainFrom (start : Nat) (operator : TokenKind → Option Operator)
    (operand : ParseM Expr) : Nat → Expr → ParseM Expr
  | 0, left => return left
  | fuel + 1, left => do
    match operator (← next).kind with
    | some op =>
      advance
      let right ← operand
      readChainFrom start operator operand fuel (← located start (binary op [left, right]))
    | none => return left

def readChain (operator : TokenKind → Option Operator) (operand : ParseM Expr) :
    ParseM Expr := do
  let start ← start
  let left ← operand
  readChainFrom start operator operand (← get).rest.length left

def readProduct (inner : Readers) : ParseM Expr := readChain productOperator (readOperand inner)

def readSum (inner : Readers) : ParseM Expr := readChain sumOperator (readProduct inner)

/-- At most one comparison: a second one behind it is refused. -/
def readComparison (inner : Readers) : ParseM Expr := do
  let start ← start
  let left ← readSum inner
  match comparisonOperator (← next).kind with
  | some op =>
    advance
    let right ← readSum inner
    let after ← next
    if (comparisonOperator after.kind).isSome then
      throw (.chainedComparison after.span.start)
    located start (binary op [left, right])
  | none => return left

def readConjunction (inner : Readers) : ParseM Expr :=
  readChain andOperator (readComparison inner)

def readDisjunction (inner : Readers) : ParseM Expr :=
  readChain orOperator (readConjunction inner)

/-- Name, parameters and body of a definition through its semicolon, if there is one. -/
def readDefinitionHead (inner : Readers) : ParseM (Option (String × List Expr × Expr)) :=
  attempt do
    match (← get).rest with
    | ⟨.name name, _⟩ :: ⟨.symbol .prime, _⟩ :: ⟨.symbol .openParen, _⟩ :: _ =>
      advance
      advance
      advance
      let parameters ← readArguments inner
      if ← skip? .equals then
        let body ← readDisjunction inner
        if ← skip? .semicolon then
          return some (name, parameters, body)
      return none
    | _ => return none

/-- A local definition with the statement it is for, or an expression. -/
def readStatement (inner : Readers) : ParseM Expr := do
  let start ← start
  match ← readDefinitionHead inner with
  | some (name, parameters, body) =>
    let value ← inner.statement
    match define? name parameters body value with
    | .ok definition => located start definition
    | .error fault => throw (.invalidDefinition start fault)
  | none => readDisjunction inner

/-- Readings of parts nested at most `depth` deep. A part lies inside the tokens of the part
    around it, so the number of tokens bounds the depth. -/
def readers : Nat → Readers
  | 0 => ⟨unexpected "expression", unexpected "expression"⟩
  | depth + 1 =>
    let inner := readers depth
    ⟨readStatement inner, readOperand inner⟩

/-- A statement that takes up all tokens. -/
def readAll (depth : Nat) : ParseM Expr := do
  let expr ← (readers depth).statement
  match (← next).kind with
  | .finish => return expr
  | _ => unexpected "end of input"

/-- The tree of a token list with the spans of its parts. -/
def ofTokens (tokens : List Token) : Except ParseError (Expr × SpanMap) :=
  match readAll tokens.length ⟨tokens, 0⟩ SpanMap.empty with
  | (.ok (expr, _), spans) => .ok (expr, spans)
  | (.error error, _) => .error error

def parseWithSpans (source : String) : Except ParseError (Expr × SpanMap) := do
  let tokens ← Token.scan source
  if tokens.length ≤ 1 then throw .emptySource
  ofTokens tokens

def parse (source : String) : Except ParseError Expr := do
  return (← parseWithSpans source).1

end Formulary.Expr
