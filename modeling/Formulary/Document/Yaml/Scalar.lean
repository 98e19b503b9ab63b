import Formulary.Document.Basic
import Formulary.Document.Yaml.Cursor

namespace Formulary.Document.Yaml

/-! Scalars of YAML: plain ones, quoted ones and blocks. Line breaks inside the first two, and
    inside folded blocks, are folded: one break is a space, and of several the first is left
    out. -/

/-- What the breaks between two words stand for. Only the common break is folded. -/
def foldBreaks : List Char → List Char
  | ['\n'] => [' ']
  | '\n' :: more => more
  | breaks => breaks

/-- What a gap between two words stands for. -/
def foldGap (gap : List Char) : List Char :=
  if gap.any isBreak then foldBreaks (gap.filter isBreak) else gap

/-! Plain scalars. -/

/-- The characters up to the end of a word of a plain scalar. It ends before a gap, before a
    colon with a gap after it, and in a flow collection before the marks of that. There a colon
    in front of such a mark is refused. -/
def plainWord (inFlow : Bool) : List Char → Option (List Char)
  | [] => some []
  | c :: rest =>
    if isGap c then some []
    else if inFlow && c == ':' && rest.head?.any (fun next => isFlowMark next || next == '?') then
      none
    else if (c == ':' && gapAhead rest) || (inFlow && isFlowMark c) then some []
    else (plainWord inFlow rest).map (c :: ·)

/-- Whether a tab stands before the given column of a line. The text is read from the given
    column on. -/
def tabBefore (indent : Nat) : Nat → List Char → Bool
  | _, [] => false
  | column, c :: rest =>
    if isBreak c then tabBefore indent 0 rest
    else (c == '\t' && column < indent) || tabBefore indent (column + 1) rest

/-- The words from a cursor on, with the gap before them, and whether a line break comes after
    the last one. Outside flow collections the words stand at `indent` or deeper. -/
def plainWithin (inFlow : Bool) (indent : Nat) :
    Nat → List Char → Cursor → Option ((List Char × Bool) × Cursor)
  | 0, _, _ => none
  | fuel + 1, gap, cursor => do
    let ended := (([], gap.any isBreak), cursor)
    if cursor.atDocumentMark || cursor.sees '#' then return ended
    let word ← plainWord inFlow cursor.rest
    if word.isEmpty then return ended
    let cursor := cursor.advance word.length
    let next := cursor.takeWhile isGap
    if tabBefore indent 0 (next.dropWhile isBlank) then none
    let cursor := cursor.advance next.length
    let content := foldGap gap ++ word
    if next.isEmpty || (!inFlow && cursor.column < indent) then
      return ((content, next.any isBreak), cursor)
    else
      let ((more, broken), cursor) ← plainWithin inFlow indent fuel next cursor
      return ((content ++ more, broken), cursor)

def plainScalar (inFlow : Bool) (indent : Nat) (cursor : Cursor) :
    Option ((String × Bool) × Cursor) := do
  let ((content, broken), cursor) ←
    plainWithin inFlow indent (cursor.rest.length + 1) [] cursor
  return ((String.ofList content, broken), cursor)

/-! Quoted scalars. -/

abbrev Reader (α : Type) := List Char → Option (α × List Char)

/-- A character by its number in the given count of hexadecimal digits. -/
def numbered (count : Nat) : Reader Char := fun input => do
  let digits := input.take count
  if digits.length < count then none
  let n ← radix? 16 digits
  if h : n.isValidChar then return (Char.ofNatAux n h, input.drop count) else none

/-- What stands after a backslash. -/
def escaped : Reader Char
  | '0' :: rest => some ('\x00', rest)
  | 'a' :: rest => some ('\x07', rest)
  | 'b' :: rest => some ('\x08', rest)
  | 't' :: rest => some ('\t', rest)
  | '\t' :: rest => some ('\t', rest)
  | 'n' :: rest => some ('\n', rest)
  | 'v' :: rest => some ('\x0b', rest)
  | 'f' :: rest => some ('\x0c', rest)
  | 'r' :: rest => some ('\r', rest)
  | 'e' :: rest => some ('\x1b', rest)
  | ' ' :: rest => some (' ', rest)
  | '"' :: rest => some ('"', rest)
  | '/' :: rest => some ('/', rest)
  | '\\' :: rest => some ('\\', rest)
  | 'N' :: rest => some ('\u0085', rest)
  | '_' :: rest => some ('\u00a0', rest)
  | 'L' :: rest => some ('\u2028', rest)
  | 'P' :: rest => some ('\u2029', rest)
  | 'x' :: rest => numbered 2 rest
  | 'u' :: rest => numbered 4 rest
  | 'U' :: rest => numbered 8 rest
  | _ => none

/-- The characters up to a gap or the closing double quote, and whether a line break with a
    backslash before it, which stands for nothing, ends them. -/
def doubleQuotedWord : Nat → Reader (List Char × Bool)
  | 0, _ => none
  | _ + 1, [] => some (([], false), [])
  | fuel + 1, c :: rest =>
    if isGap c || c == '"' then some (([], false), c :: rest)
    else if c == '\\' && rest.head?.any isBreak then some (([], true), rest.drop 1)
    else do
      let (c, rest) ← if c == '\\' then escaped rest else some (c, rest)
      let ((word, broken), rest) ← doubleQuotedWord fuel rest
      return ((c :: word, broken), rest)

/-- The characters up to a gap or the closing single quote; two quotes stand for one. -/
def singleQuotedWord : List Char → List Char × List Char
  | '\x27' :: '\x27' :: rest =>
    let (word, rest) := singleQuotedWord rest
    ('\x27' :: word, rest)
  | c :: rest =>
    if isGap c || c == '\x27' then ([], c :: rest)
    else
      let (word, rest) := singleQuotedWord rest
      (c :: word, rest)
  | [] => ([], [])

/-- The marks of a quoted scalar. -/
inductive Quote where
  | single
  | double
deriving DecidableEq

namespace Quote

def mark : Quote → Char
  | single => '\x27'
  | double => '"'

/-- The characters of a quoted scalar up to a gap or the closing quote, and whether an escaped
    line break ends them. -/
def word (quote : Quote) (input : List Char) : Option ((List Char × Bool) × List Char) :=
  match quote with
  | single =>
    let (word, rest) := singleQuotedWord input
    some ((word, false), rest)
  | double => doubleQuotedWord (input.length + 1) input

end Quote

/-- A quoted scalar after its opening mark. A document mark does not stand inside it. -/
def quotedWithin (quote : Quote) : Nat → Cursor → Option (List Char × Cursor)
  | 0, _ => none
  | fuel + 1, cursor => do
    if cursor.atDocumentMark || cursor.rest.isEmpty then none
    let ((word, broken), rest) ← quote.word cursor.rest
    let cursor := cursor.seek rest
    if cursor.sees quote.mark then return (word, cursor.step)
    let gap := cursor.takeWhile isGap
    let folded := if broken then gap.filter isBreak else foldGap gap
    let (more, cursor) ← quotedWithin quote fuel (cursor.advance gap.length)
    return (word ++ folded ++ more, cursor)

def quotedScalar (quote : Quote) (cursor : Cursor) : Option (String × Cursor) := do
  let (content, cursor) ← quotedWithin quote (cursor.rest.length + 1) cursor.step
  return (String.ofList content, cursor)

/-! Block scalars. -/

/-- What becomes of the line breaks at the end of a block: all are dropped, the first is kept,
    or all are kept. -/
inductive Chomping where
  | strip
  | clip
  | keep
deriving DecidableEq

def Chomping.ofChar? : Char → Option Chomping
  | '-' => some strip
  | '+' => some keep
  | _ => none

/-- A digit that says how much deeper than its parent a block is. -/
def increment? (c : Char) : Option Nat := (digit? 10 c).filter (0 < ·)

/-- Chomping and increment of a block, in either order and both optional. -/
def blockHeader (cursor : Cursor) : (Chomping × Option Nat) × Cursor :=
  match cursor.rest with
  | c :: d :: _ =>
    match Chomping.ofChar? c, increment? d, increment? c, Chomping.ofChar? d with
    | some chomping, some count, _, _ => ((chomping, some count), cursor.advance 2)
    | some chomping, none, _, _ => ((chomping, none), cursor.step)
    | none, _, some count, some chomping => ((chomping, some count), cursor.advance 2)
    | none, _, some count, none => ((.clip, some count), cursor.step)
    | none, _, none, _ => ((.clip, none), cursor)
  | [c] =>
    match Chomping.ofChar? c, increment? c with
    | some chomping, _ => ((chomping, none), cursor.step)
    | none, some count => ((.clip, some count), cursor.step)
    | none, none => ((.clip, none), cursor)
  | [] => ((.clip, none), cursor)

/-- Line breaks and indentation up to the next line with content, and the deepest column that
    was reached. An unknown indentation takes all spaces. Tabs are no indentation. -/
def blockGapWithin (indent : Option Nat) : Nat → Nat → Cursor → Option ((List Char × Nat) × Cursor)
  | 0, _, _ => none
  | fuel + 1, deepest, cursor =>
    let spaces := (cursor.takeWhile (· == ' ')).length
    let cursor := cursor.advance (match indent with
      | some indent => min spaces (indent - cursor.column)
      | none => spaces)
    let deepest := max deepest cursor.column
    let indenting := indent.all (cursor.column < ·)
    match cursor.rest with
    | c :: _ =>
      if indenting && c == '\t' then none
      else if isBreak c then do
        let ((breaks, deepest), cursor) ← blockGapWithin indent fuel deepest cursor.step
        return ((c :: breaks, deepest), cursor)
      else some (([], deepest), cursor)
    | [] => some (([], deepest), cursor)

def blockGap (indent : Option Nat) (cursor : Cursor) : Option ((List Char × Nat) × Cursor) :=
  blockGapWithin indent (cursor.rest.length + 1) 0 cursor

/-- A line break before a line of a block: in a folded block it is dropped, or a space if no
    empty line follows, where neither of its neighbours starts with a blank. -/
def joinLines (folded blankBefore blankAfter : Bool) (lineBreak breaks : List Char) : List Char :=
  if folded && lineBreak == ['\n'] && !blankBefore && !blankAfter then
    if breaks.isEmpty then [' '] else []
  else lineBreak

/-- The lines of a block from a cursor on. `lineBreak` ends the line before, which starts with
    a blank if `blankBefore`, and `breaks` are those of the empty lines after it. -/
def blockLinesWithin (folded : Bool) (chomping : Chomping) (indent : Nat) :
    Nat → Bool → List Char → List Char → Cursor → Option (List Char × Cursor)
  | 0, _, _, _, _ => none
  | fuel + 1, blankBefore, lineBreak, breaks, cursor =>
    if cursor.column == indent && !cursor.rest.isEmpty then do
      let blank := cursor.rest.head?.any isBlank
      let line := cursor.takeWhile (!isBreak ·)
      let joined := joinLines folded blankBefore blank lineBreak breaks
      let cursor := cursor.advance line.length
      let lineBreak' := cursor.rest.take 1
      let ((breaks', _), cursor) ← blockGap (some indent) cursor.step
      let (more, cursor) ←
        blockLinesWithin folded chomping indent fuel blank lineBreak' breaks' cursor
      return (joined ++ breaks ++ line ++ more, cursor)
    else
      let tail := match chomping with
        | .strip => []
        | .clip => lineBreak
        | .keep => lineBreak ++ breaks
      some (tail, cursor)

/-- A block scalar after its indicator, inside a collection with the given indentation. -/
def blockScalar (folded : Bool) (parent : Int) (cursor : Cursor) : Option (String × Cursor) := do
  let ((chomping, increment), cursor) := blockHeader cursor
  let cursor ← cursor.nextLine?
  let given := increment.map fun count => parent.toNat + count
  let ((breaks, deepest), cursor) ← blockGap given cursor
  let indent := given.getD (max deepest (max (parent + 1).toNat 1))
  let (content, cursor) ← blockLinesWithin folded chomping indent (cursor.rest.length + 1)
    false [] breaks cursor
  return (String.ofList content, cursor)

end Formulary.Document.Yaml
