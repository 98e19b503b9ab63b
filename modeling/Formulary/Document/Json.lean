import Formulary.Document.Basic

namespace Formulary.Document.Json

/-! Documents written in JSON. A reader takes what it reads off the front of the text and
    returns the rest. What is well formed but stands for no value, such as half a character, is
    read as a value that can only be passed over. -/

abbrev Reader (α : Type) := List Char → Option (α × List Char)

def isSpace (c : Char) : Bool := c == ' ' || c == '\n' || c == '\t' || c == '\r'

def skip (input : List Char) : List Char := input.dropWhile isSpace

/-- Four hexadecimal digits. -/
def codeUnit : Reader Nat
  | a :: b :: c :: d :: rest => (radix? 16 [a, b, c, d]).map (·, rest)
  | _ => none

/-- Part of a text: a character, or a code unit that is written by its number. -/
inductive Part where
  | char (c : Char)
  | unit (value : Nat)
deriving DecidableEq

def isLeading (unit : Nat) : Bool := 0xD800 ≤ unit && unit < 0xDC00

def isTrailing (unit : Nat) : Bool := 0xDC00 ≤ unit && unit < 0xE000

/-- The characters of the parts. A leading code unit and the trailing one after it are one
    character, and neither stands without the other. -/
def joinParts : List Part → Option (List Char)
  | [] => some []
  | .char c :: rest => (joinParts rest).map (c :: ·)
  | .unit value :: rest =>
    if isTrailing value then none
    else if isLeading value then
      match rest with
      | .unit trailing :: rest =>
        if isTrailing trailing then
          let c := Char.ofNat (0x10000 + (value - 0xD800) * 0x400 + (trailing - 0xDC00))
          (joinParts rest).map (c :: ·)
        else none
      | _ => none
    else (joinParts rest).map (Char.ofNat value :: ·)

/-- What stands after a backslash. -/
def escaped : Reader Part
  | '"' :: rest => some (.char '"', rest)
  | '\\' :: rest => some (.char '\\', rest)
  | '/' :: rest => some (.char '/', rest)
  | 'b' :: rest => some (.char '\x08', rest)
  | 'f' :: rest => some (.char '\x0c', rest)
  | 'n' :: rest => some (.char '\n', rest)
  | 'r' :: rest => some (.char '\r', rest)
  | 't' :: rest => some (.char '\t', rest)
  | 'u' :: rest => (codeUnit rest).map fun (value, rest) => (.unit value, rest)
  | _ => none

/-- The parts up to the closing quote. Control characters must be escaped. -/
def partsWithin : Nat → Reader (List Part)
  | 0, _ => none
  | _ + 1, [] => none
  | _ + 1, '"' :: rest => some ([], rest)
  | fuel + 1, '\\' :: rest => do
    let (part, rest) ← escaped rest
    let (parts, rest) ← partsWithin fuel rest
    return (part :: parts, rest)
  | fuel + 1, c :: rest =>
    if c.toNat < 32 then none
    else do
      let (parts, rest) ← partsWithin fuel rest
      return (.char c :: parts, rest)

/-- A text after its opening quote, which is none if its code units are no characters. -/
def quoted : Reader (Option String) := fun input => do
  let (parts, rest) ← partsWithin (input.length + 1) input
  return ((joinParts parts).map String.ofList, rest)

/-- At least one digit. -/
def digits : Reader (List Char) := fun input =>
  let found := input.takeWhile Char.isDigit
  if found.isEmpty then none else some (found, input.dropWhile Char.isDigit)

def value10 (digits : List Char) : Nat := (radix? 10 digits).getD 0

/-- Digits after a point, if there is one. -/
def fraction : Reader (Option (List Char))
  | '.' :: rest => (digits rest).map fun (found, rest) => (some found, rest)
  | input => some (none, input)

/-- Digits after an exponent mark, if there is one, with the sign between them. -/
def exponent : Reader (Option Int) := fun input =>
  let signed : Reader (Option Int)
    | '-' :: rest => (digits rest).map fun (found, rest) => (some (-(value10 found : Int)), rest)
    | '+' :: rest => (digits rest).map fun (found, rest) => (some (value10 found : Int), rest)
    | input => (digits input).map fun (found, rest) => (some (value10 found : Int), rest)
  match input with
  | 'e' :: rest => signed rest
  | 'E' :: rest => signed rest
  | input => some (none, input)

/-- A number without leading zeros. Negative zero is a float also when it is written as an
    integer. -/
def number : Reader Document := fun input => do
  let (negative, input) := match input with
    | '-' :: rest => (true, rest)
    | input => (false, input)
  let (whole, input) ← digits input
  if 1 < whole.length ∧ whole.head? = some '0' then none
  let (places, input) ← fraction input
  let (shift, input) ← exponent input
  match places, shift with
  | none, none =>
    let n := value10 whole
    let document := if negative ∧ n = 0 then float (scaledFloat true 0 0)
      else ofInt (if negative then -(n : Int) else n)
    return (document, input)
  | places, shift =>
    return (float (writtenFloat negative whole (places.getD []) (shift.getD 0)), input)

def itemsWithin (value : Reader Document) : Nat → Reader (List Document)
  | 0, _ => none
  | fuel + 1, input => do
    let (item, rest) ← value (skip input)
    match skip rest with
    | ',' :: rest =>
      let (items, rest) ← itemsWithin value fuel rest
      return (item :: items, rest)
    | ']' :: rest => return ([item], rest)
    | _ => none

def entriesWithin (value : Reader Document) : Nat → Reader (List (Option String × Document))
  | 0, _ => none
  | fuel + 1, input => do
    let '"' :: rest := skip input | none
    let (name, rest) ← quoted rest
    let ':' :: rest := skip rest | none
    let (item, rest) ← value (skip rest)
    match skip rest with
    | ',' :: rest =>
      let (entries, rest) ← entriesWithin value fuel rest
      return ((name, item) :: entries, rest)
    | '}' :: rest => return ([(name, item)], rest)
    | _ => none

/-- A record, which can only be passed over if one of its names is no text. -/
def record (entries : List (Option String × Document)) : Document :=
  match entries.mapM fun entry => entry.1.map (·, entry.2) with
  | some entries => fields entries
  | none => unreadable

/-- A value that is no list and no record. -/
def scalar : Reader Document
  | '"' :: rest =>
    (quoted rest).map fun (content, rest) =>
      (match content with
        | some content => Document.text content
        | none => unreadable, rest)
  | 't' :: 'r' :: 'u' :: 'e' :: rest => some (bool true, rest)
  | 'f' :: 'a' :: 'l' :: 's' :: 'e' :: rest => some (bool false, rest)
  | 'n' :: 'u' :: 'l' :: 'l' :: rest => some (null, rest)
  | input => number input

/-- Nesting up to which lists and records are read. -/
def maxDepth : Nat := 127

/-- A value inside `level` lists and records. The fuel is more than the characters left, and so
    enough for the parts of a list or record as well as for what they hold. -/
def valueWithin : Nat → Nat → Reader Document
  | 0, _, _ => none
  | fuel + 1, level, input =>
    let bounded (document : Document) := if level < maxDepth then document else unreadable
    match input with
    | '[' :: rest =>
      match skip rest with
      | ']' :: rest => some (bounded (list []), rest)
      | rest => do
        let (items, rest) ← itemsWithin (valueWithin fuel (level + 1)) fuel rest
        return (bounded (list items), rest)
    | '{' :: rest =>
      match skip rest with
      | '}' :: rest => some (bounded (fields []), rest)
      | rest => do
        let (entries, rest) ← entriesWithin (valueWithin fuel (level + 1)) fuel rest
        return (bounded (record entries), rest)
    | input => scalar input

/-- The document of a text, with nothing after it. Values that are nested too deeply can only
    be passed over. -/
def parse? (content : String) : Option Document := do
  let input := content.toList
  let (document, rest) ← valueWithin (input.length + 1) 0 (skip input)
  if (skip rest).isEmpty then some document else none

end Formulary.Document.Json
