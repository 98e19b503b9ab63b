namespace Formulary

/-! Ranges of bytes in a source text. Offsets count the bytes of the UTF-8 form. -/

def byteLength (text : List Char) : Nat := text.foldr (·.utf8Size + ·) 0

/-- The text after its first `count` bytes, when they end between two characters. -/
def dropBytes : Nat → List Char → Option (List Char)
  | 0, text => some text
  | _ + 1, [] => none
  | count + 1, c :: rest =>
    if c.utf8Size ≤ count + 1 then dropBytes (count + 1 - c.utf8Size) rest else none

/-- The first `count` bytes of a text, when they end between two characters. -/
def takeBytes : Nat → List Char → Option (List Char)
  | 0, _ => some []
  | _ + 1, [] => none
  | count + 1, c :: rest =>
    if c.utf8Size ≤ count + 1 then
      (takeBytes (count + 1 - c.utf8Size) rest).map (c :: ·)
    else none

/-- The bytes from `start` up to, not including, `stop`. -/
structure Span where
  start : Nat
  stop : Nat
deriving DecidableEq, Inhabited

namespace Span

/-- The smallest span that covers both. -/
def join (a b : Span) : Span := ⟨min a.start b.start, max a.stop b.stop⟩

/-- The text under the span, when the span lies inside the source. -/
def slice (span : Span) (source : String) : Option String := do
  guard (span.start ≤ span.stop)
  let after ← dropBytes span.start source.toList
  let covered ← takeBytes (span.stop - span.start) after
  return String.ofList covered

def text (span : Span) : String := toString span.start ++ ".." ++ toString span.stop

end Span

end Formulary
