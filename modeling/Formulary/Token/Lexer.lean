import Formulary.ParseError
import Formulary.Token.Basic
import Formulary.Text.Blank
import Formulary.Text.Letter
import Formulary.Text.Numeral

namespace Formulary.Token

/-! Division of a source text into tokens. Each lexeme is the longest one of its kind. -/

def startsName (c : Char) : Bool := Text.isLetter c || c == '_'

def continuesName (c : Char) : Bool := Text.isLetter c || Text.isNumeral c || c == '_'

/-- A point with the digits after it. -/
def fractionLexeme : List Char → List Char
  | '.' :: digit :: rest =>
    if Digits.isDigit digit then '.' :: digit :: rest.takeWhile Digits.isDigit else []
  | _ => []

/-- The digits of an exponent with the sign in front of them. -/
def signedLexeme : List Char → List Char
  | [] => []
  | c :: rest =>
    if c == '+' || c == '-' then
      match rest.takeWhile Digits.isDigit with
      | [] => []
      | digits => c :: digits
    else (c :: rest).takeWhile Digits.isDigit

/-- An exponent, when digits follow its mark. -/
def exponentLexeme : List Char → List Char
  | [] => []
  | c :: rest =>
    if c == 'e' || c == 'E' then
      match signedLexeme rest with
      | [] => []
      | signed => c :: signed
    else []

def numberLexeme (text : List Char) : List Char :=
  let whole := text.takeWhile Digits.isDigit
  let fraction := fractionLexeme (text.drop whole.length)
  let exponent := exponentLexeme (text.drop (whole.length + fraction.length))
  whole ++ fraction ++ exponent

def startsNumber : List Char → Bool
  | '.' :: digit :: _ => Digits.isDigit digit
  | c :: _ => Digits.isDigit c
  | [] => false

/-- The character that stands for itself after a backslash, or the one it abbreviates. -/
def unescape : Char → Char
  | 'n' => '\n'
  | 't' => '\t'
  | c => c

/-- Content of a quoted text after its opening quote, and the length of its lexeme. -/
def quotedContent : List Char → Option (List Char × Nat)
  | [] => none
  | '"' :: _ => some ([], 1)
  | '\\' :: c :: rest =>
    (quotedContent rest).map fun (content, length) => (unescape c :: content, length + 2)
  | c :: rest => (quotedContent rest).map fun (content, length) => (c :: content, length + 1)

/-- Kind and length of the lexeme at the start of a text whose first character is `c`. -/
def lexeme (position : Nat) (c : Char) (rest : List Char) : Except ParseError (TokenKind × Nat) :=
  if startsNumber (c :: rest) then
    let digits := numberLexeme (c :: rest)
    match Decimal.parseChars? digits with
    | some value => .ok (.number value, digits.length)
    | none => .error (.invalidNumber (String.ofList digits) position)
  else if startsName c then
    let name := c :: rest.takeWhile continuesName
    .ok (.name (String.ofList name), name.length)
  else if c == '"' then
    match quotedContent rest with
    | some (content, length) => .ok (.text (String.ofList content), length + 1)
    | none => .error (.unterminatedText position)
  else
    match Symbol.starting? (c :: rest) with
    | some symbol => .ok (.symbol symbol, symbol.spelling.length)
    | none => .error (.unexpectedCharacter c position)

/-- Tokens of a text that starts at `position`. Every step consumes a character, so the length
    of the text bounds their number. -/
def scanFrom : Nat → Nat → List Char → Except ParseError (List Token)
  | fuel + 1, position, c :: rest =>
    if Text.isBlank c then scanFrom fuel (position + c.utf8Size) rest
    else do
      let (kind, length) ← lexeme position c rest
      let stop := position + byteLength ((c :: rest).take length)
      let others ← scanFrom fuel stop ((c :: rest).drop length)
      return ⟨kind, ⟨position, stop⟩⟩ :: others
  | _, position, _ => .ok [⟨.finish, ⟨position, position⟩⟩]

/-- Tokens of a source text; the last one marks its end. -/
def scan (source : String) : Except ParseError (List Token) :=
  let text := source.toList
  scanFrom text.length 0 text

end Formulary.Token
