import Formulary.Document.Plain
import Formulary.Table

namespace Formulary

open scoped Powers

/-! Structured data as it is written in configuration texts, and the decoding of records,
    lists and alternatives from it. -/

inductive Document where
  | null
  | bool (value : Bool)
  | integer (value : Int)
  | float (value : Float)
  | text (content : String)
  /-- An unquoted scalar, whose reading depends on what is asked of it. -/
  | plain (content : String)
  | list (items : List Document)
  /-- A list of a format that does not write records as lists. -/
  | sequence (items : List Document)
  | fields (entries : List (String × Document))
  /-- A record of a format that does not write alternatives as records. -/
  | mapping (entries : List (String × Document))
  /-- A value that is marked with the name of its kind. -/
  | tagged (tag : String) (content : Document)
  /-- A well-formed value that can be passed over but not be read. -/
  | unreadable
deriving Inhabited

namespace Document

mutual

/-- Nesting of lists and records. -/
def depth : Document → Nat
  | list items => 1 + depthOfItems items
  | sequence items => 1 + depthOfItems items
  | fields entries => 1 + depthOfEntries entries
  | mapping entries => 1 + depthOfEntries entries
  | tagged _ content => 1 + depth content
  | _ => 1

def depthOfItems : List Document → Nat
  | [] => 0
  | item :: rest => max (depth item) (depthOfItems rest)

def depthOfEntries : List (String × Document) → Nat
  | [] => 0
  | (_, item) :: rest => max (depth item) (depthOfEntries rest)

end

/-! Numbers and scalars. -/

/-- Whether an integer fits a signed or an unsigned word of 64 bits. -/
def fitsWord (n : Int) : Bool := -(2 ^ (63 : Nat)) ≤ n && n < 2 ^ (64 : Nat)

/-- An integer written in full. Those that do not fit a word are floats. -/
def ofInt (n : Int) : Document :=
  if fitsWord n then integer n
  else float (writtenFloat (n < 0) (Digits.ofNat n.natAbs) [] 0)

/-- The number `mantissa * 10 ^ (-places)`, of which only the value is known. It is taken to be
    written with all its places, or if it has none and fits no word, with as few digits as
    possible and an exponent. -/
def ofScientific (mantissa : Int) (places : Nat) : Document :=
  let magnitude := mantissa.natAbs
  if places = 0 then
    if fitsWord mantissa then integer mantissa
    else
      let (stripped, zeros) := Digits.stripZeros magnitude
      float (writtenFloat (mantissa < 0) (Digits.ofNat stripped) [] zeros)
  else
    let digits := Digits.ofNat magnitude
    let padded := List.replicate (places - digits.length) '0' ++ digits
    let whole := padded.length - places
    float (writtenFloat (mantissa < 0) (padded.take whole) (padded.drop whole) 0)

/-- The tag by which a format names one of the common kinds of scalars. -/
def commonTag (kind : String) : String := "tag:yaml.org,2002:" ++ kind

def untagged : Document → Document
  | tagged _ content => content
  | document => document

/-- An unquoted scalar under any tag, or a text that is tagged as the kind asked for. -/
def unquoted? (kind : String) : Document → Option String
  | plain content => some content
  | tagged _ (plain content) => some content
  | tagged tag (text content) => if tag == commonTag kind then some content else none
  | _ => none

def bool? : Document → Option Bool
  | bool value => some value
  | document => (document.unquoted? "bool").bind boolWord?

/-- A natural number of at most 64 bits. -/
def nat? : Document → Option Nat
  | integer value => if 0 ≤ value ∧ value < 2 ^ (64 : Nat) then some value.toNat else none
  | document =>
    (document.unquoted? "int").bind fun content =>
      (plainNat? content.toList).filter (· < 2 ^ (64 : Nat))

def text? (document : Document) : Option String :=
  match document.untagged with
  | text content => some content
  | plain content => some content
  | _ => none

def isNull : Document → Bool
  | null => true
  | plain content => content.isEmpty || isNullWord content
  | _ => false

/-- A value or nothing. An unquoted scalar under the tag of nothing has to be a word for it. -/
def option? (value? : Document → Option α) (document : Document) : Option (Option α) :=
  match document with
  | tagged tag (plain content) =>
    if tag == commonTag "null" then if isNullWord content then some none else none
    else (value? document).map some
  | document => if document.isNull then some none else (value? document).map some

/-! Lists, records and alternatives. -/

/-- A list; an empty unquoted scalar stands for the list without items. -/
def list? (item? : Document → Option α) (document : Document) : Option (List α) :=
  match document.untagged with
  | list items => items.mapM item?
  | sequence items => items.mapM item?
  | plain "" => some []
  | _ => none

/-- Names and values of a record; an empty unquoted scalar stands for the record without any. -/
def entries? (document : Document) : Option (List (String × Document)) :=
  match document.untagged with
  | fields entries => some entries
  | mapping entries => some entries
  | plain "" => some []
  | _ => none

/-- A table by name; of equal names the last counts. -/
def table? (item? : Document → Option α) (document : Document) : Option (Table α) := do
  let entries ← document.entries?
  let items ← entries.mapM fun entry => do return (entry.1, ← item? entry.2)
  return Table.ofList items

/-- Parts of a record by the names of its fields. The record is written with names, of which
    unknown ones are ignored and known ones must not repeat, or as the list of its first
    parts. -/
def record? (names : List String) : Document → Option (List (Option Document))
  | list items =>
    if items.length ≤ names.length then
      some (items.map some ++ List.replicate (names.length - items.length) none)
    else none
  | document => do
    let entries ← document.entries?
    names.mapM fun name =>
      match entries.filter (·.1 == name) with
      | [] => some none
      | [entry] => some (some entry.2)
      | _ => none

/-- Name of an alternative and its content. A text, a record with one field and a tag of the
    document's own, which starts with an exclamation mark, name an alternative. -/
def alternative? : Document → Option (String × Option Document)
  | fields [(name, content)] => some (name, some content)
  | tagged tag content =>
    match tag.toList with
    | '!' :: name => some (String.ofList name, some content)
    | _ => content.text?.map (·, none)
  | document => document.text?.map (·, none)

/-- Name of an alternative that has no content. -/
def bareAlternative? (document : Document) : Option String := do
  match ← document.alternative? with
  | (name, none) => some name
  | (name, some content) => if content.isNull then some name else none

/-- A part of a record that has a default. -/
def orDefault (default : α) (value? : Document → Option α) : Option Document → Option α
  | some document => value? document
  | none => some default

end Document

end Formulary
