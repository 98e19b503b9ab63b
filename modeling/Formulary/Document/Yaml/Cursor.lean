namespace Formulary.Document.Yaml

/-! The characters of a YAML text, and a cursor that knows the line and the column of what it
    has in front. -/

/-- Characters that a text may hold. -/
def isAllowed (c : Char) : Bool :=
  let n := c.toNat
  n == 0x09 || n == 0x0A || n == 0x0D || (0x20 ≤ n && n ≤ 0x7E) || n == 0x85 ||
    (0xA0 ≤ n && n ≤ 0xFFFD) || 0x10000 ≤ n

/-- The mark of the byte order, which may stand at the start of a line. -/
def byteOrderMark : Char := '\ufeff'

/-- The common line breaks as one character each. -/
def unifyBreaks : List Char → List Char
  | '\r' :: '\n' :: rest => '\n' :: unifyBreaks rest
  | '\r' :: rest => '\n' :: unifyBreaks rest
  | '\u0085' :: rest => '\n' :: unifyBreaks rest
  | c :: rest => c :: unifyBreaks rest
  | [] => []

/-- The characters of a text as they are scanned, with unified line breaks. There are none if
    one of them is not allowed. -/
def charsOf? (content : String) : Option (List Char) :=
  let chars := content.toList
  if chars.all isAllowed then some (unifyBreaks chars) else none

def isBlank (c : Char) : Bool := c == ' ' || c == '\t'

/-- Line breaks; the separators of lines and paragraphs are kept apart from the common one. -/
def isBreak (c : Char) : Bool := c == '\n' || c == '\u2028' || c == '\u2029'

def isGap (c : Char) : Bool := isBlank c || isBreak c

/-- Characters of the names of anchors, tags and directives. -/
def isNameChar (c : Char) : Bool := c.isAlphanum || c == '_' || c == '-'

/-- Marks that divide flow collections. -/
def isFlowMark (c : Char) : Bool := c == ',' || c == '[' || c == ']' || c == '{' || c == '}'

def gapAhead : List Char → Bool
  | [] => true
  | c :: _ => isGap c

def breakAhead : List Char → Bool
  | [] => true
  | c :: _ => isBreak c

/-- A place in a text: what follows it, how many characters precede it, and its line and
    column, both counted from zero. -/
structure Cursor where
  rest : List Char
  index : Nat := 0
  line : Nat := 0
  column : Nat := 0
deriving Inhabited

namespace Cursor

def step (cursor : Cursor) : Cursor :=
  match cursor.rest with
  | [] => cursor
  | c :: rest =>
    if isBreak c then ⟨rest, cursor.index + 1, cursor.line + 1, 0⟩
    else ⟨rest, cursor.index + 1, cursor.line, cursor.column + 1⟩

def advance : Nat → Cursor → Cursor
  | 0, cursor => cursor
  | count + 1, cursor => advance count cursor.step

/-- The cursor at the given rest of its text. -/
def seek (cursor : Cursor) (rest : List Char) : Cursor :=
  cursor.advance (cursor.rest.length - rest.length)

def takeWhile (cursor : Cursor) (p : Char → Bool) : List Char := cursor.rest.takeWhile p

def skipWhile (cursor : Cursor) (p : Char → Bool) : Cursor :=
  cursor.advance (cursor.takeWhile p).length

def sees (cursor : Cursor) (c : Char) : Bool := cursor.rest.head? == some c

def skipComment (cursor : Cursor) : Cursor :=
  if cursor.sees '#' then cursor.skipWhile (!isBreak ·) else cursor

/-- The next line, if nothing but blanks and a comment is left on this one. -/
def nextLine? (cursor : Cursor) : Option Cursor :=
  let cursor := (cursor.skipWhile isBlank).skipComment
  if breakAhead cursor.rest then some cursor.step else none

def atDocumentStart (cursor : Cursor) : Bool :=
  cursor.column == 0 &&
    match cursor.rest with
    | '-' :: '-' :: '-' :: rest => gapAhead rest
    | _ => false

def atDocumentEnd (cursor : Cursor) : Bool :=
  cursor.column == 0 &&
    match cursor.rest with
    | '.' :: '.' :: '.' :: rest => gapAhead rest
    | _ => false

def atDocumentMark (cursor : Cursor) : Bool := cursor.atDocumentStart || cursor.atDocumentEnd

end Cursor

end Formulary.Document.Yaml
