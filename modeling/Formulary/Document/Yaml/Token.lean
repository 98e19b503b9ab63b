import Formulary.Document.Yaml.Scalar

namespace Formulary.Document.Yaml

/-! A YAML text as tokens. The indentation of block collections shows as tokens that open and
    close them. Whether a node is the key of a mapping is only known at the colon after it, so
    the scanner remembers for each flow level where a key may have started. -/

/-- How a scalar is written, as far as it counts for its reading. -/
inductive Style where
  | plain
  | literal
  | other
deriving DecidableEq

inductive Token where
  | version (major minor : Nat)
  | tagHandle (handle expansion : String)
  | documentStart
  | documentEnd
  | blockSequenceStart
  | blockMappingStart
  | blockEnd
  | flowSequenceStart
  | flowSequenceEnd
  | flowMappingStart
  | flowMappingEnd
  | blockEntry
  | flowEntry
  | key
  | value
  /-- Anchors are numbered, and references carry the number of their anchor. -/
  | anchor (number : Nat)
  | reference (number : Nat)
  | tag (handle suffix : String)
  | scalar (content : String) (style : Style)

/-! Tags and directives. -/

/-- Characters of a tag; inside angle brackets also some of the marks of flow collections. -/
def isTagChar (bracketed : Bool) (c : Char) : Bool :=
  isNameChar c || ";/?:@&=+$.%!~*\x27()".toList.contains c || (bracketed && ",[]".toList.contains c)

/-- One byte, written as a percent sign and two hexadecimal digits. -/
def escapedByte : Reader Nat
  | '%' :: a :: b :: rest => (radix? 16 [a, b]).map (·, rest)
  | _ => none

/-- Further bytes of a character whose leading bits are given. -/
def trailingBytes : Nat → Nat → Reader Nat
  | 0, code, input => some (code, input)
  | count + 1, code, input => do
    let (byte, rest) ← escapedByte input
    if byte / 64 = 2 then trailingBytes count (64 * code + byte % 64) rest else none

/-- A character written as its bytes. -/
def escapedBytes : Reader Char := fun input => do
  let (byte, rest) ← escapedByte input
  let (code, rest) ←
    if byte < 0x80 then some (byte, rest)
    else if byte / 32 = 6 then trailingBytes 1 (byte % 32) rest
    else if byte / 16 = 14 then trailingBytes 2 (byte % 16) rest
    else if byte / 8 = 30 then trailingBytes 3 (byte % 8) rest
    else none
  return (Char.ofNat code, rest)

/-- The characters of a tag. -/
def tagCharsWithin (bracketed : Bool) : Nat → Reader (List Char)
  | 0, input => some ([], input)
  | _ + 1, [] => some ([], [])
  | fuel + 1, c :: rest =>
    if isTagChar bracketed c then do
      let (c, rest) ← if c == '%' then escapedBytes (c :: rest) else some (c, rest)
      let (more, rest) ← tagCharsWithin bracketed fuel rest
      return (c :: more, rest)
    else some ([], c :: rest)

def tagChars (bracketed : Bool) (input : List Char) : Option (List Char × List Char) :=
  tagCharsWithin bracketed input.length input

/-- A handle: a name between exclamation marks, of which the second may be missing. -/
def handleChars : Reader (List Char)
  | '!' :: rest =>
    let name := rest.takeWhile isNameChar
    match rest.drop name.length with
    | '!' :: rest => some ('!' :: name ++ ['!'], rest)
    | rest => some ('!' :: name, rest)
  | _ => none

/-- Handle and suffix of a tag. A tag in angle brackets has no handle. What starts like a
    handle but does not end like one is the suffix of the primary handle, and that handle alone
    is a tag without a handle. -/
def tagParts : Reader (String × String)
  | '!' :: '<' :: rest => do
    let (suffix, rest) ← tagChars true rest
    if suffix.isEmpty then none
    let '>' :: rest := rest | none
    return (("", String.ofList suffix), rest)
  | input => do
    let (handle, rest) ← handleChars input
    let (suffix, rest) ← tagChars false rest
    if 1 < handle.length && handle.getLast? == some '!' then
      if suffix.isEmpty then none
      return ((String.ofList handle, String.ofList suffix), rest)
    else
      let suffix := handle.drop 1 ++ suffix
      if suffix.isEmpty then return (("", "!"), rest)
      return (("!", String.ofList suffix), rest)

def versionPart (input : List Char) : Option (Nat × List Char) := do
  let digits := input.takeWhile Char.isDigit
  if 9 < digits.length then none
  return (← radix? 10 digits, input.drop digits.length)

/-- The content of a directive after its percent sign. -/
def directiveParts (input : List Char) : Option (Token × List Char) := do
  let name := input.takeWhile isNameChar
  let rest := input.drop name.length
  if !gapAhead rest then none
  let rest := rest.dropWhile isBlank
  match String.ofList name with
  | "YAML" =>
    let (major, rest) ← versionPart rest
    let '.' :: rest := rest | none
    let (minor, rest) ← versionPart rest
    return (.version major minor, rest)
  | "TAG" =>
    let (handle, rest) ← handleChars rest
    if 1 < handle.length && handle.getLast? != some '!' then none
    if !rest.head?.any isBlank then none
    let (expansion, rest) ← tagChars true (rest.dropWhile isBlank)
    if expansion.isEmpty || !gapAhead rest then none
    return (.tagHandle (String.ofList handle) (String.ofList expansion), rest)
  | _ => none

/-! The scanner. -/

/-- Where a key may have started: the number of tokens before it and its place. A required key
    stands where nothing else may. -/
structure PossibleKey where
  required : Bool
  position : Nat
  index : Nat
  line : Nat
  column : Nat

/-- Characters between the start of a key and its colon. -/
def keyLength : Nat := 1024

/-- Whether a key that starts there cannot have its colon at the cursor any more. -/
def PossibleKey.isStale (key : PossibleKey) (cursor : Cursor) : Bool :=
  key.line < cursor.line || key.index + keyLength < cursor.index

structure Scan where
  cursor : Cursor
  /-- What was scanned, the latest first. -/
  tokens : List Token := []
  count : Nat := 0
  /-- Column of the innermost block collection, and those around it. -/
  indent : Int := -1
  outerIndents : List Int := []
  /-- Whether a key may start at the cursor. -/
  keyAllowed : Bool := true
  /-- Where one may have started on the innermost flow level, and on those around it. -/
  possibleKey : Option PossibleKey := none
  outerKeys : List (Option PossibleKey) := []
  /-- Numbers of the anchors by name. -/
  anchors : List (String × Nat) := []

namespace Scan

def inFlow (scan : Scan) : Bool := !scan.outerKeys.isEmpty

def push (scan : Scan) (token : Token) : Scan :=
  { scan with tokens := token :: scan.tokens, count := scan.count + 1 }

def insert (scan : Scan) (position : Nat) (token : Token) : Scan :=
  let later := scan.count - position
  { scan with
    tokens := scan.tokens.take later ++ token :: scan.tokens.drop later
    count := scan.count + 1 }

def advance (scan : Scan) (count : Nat) : Scan :=
  { scan with cursor := scan.cursor.advance count }

def allowKey (scan : Scan) (allowed : Bool) : Scan := { scan with keyAllowed := allowed }

/-- Skip blanks, comments and line breaks. Where a key may start outside flow collections, tabs
    are no blanks. There a line break also allows a key. -/
def skipGapsWithin : Nat → Scan → Scan
  | 0, scan => scan
  | fuel + 1, scan =>
    let start := scan.cursor
    let start := if start.column == 0 && start.sees byteOrderMark then start.step else start
    let tabs := scan.inFlow || !scan.keyAllowed
    let cursor := (start.skipWhile fun c => c == ' ' || (tabs && c == '\t')).skipComment
    if cursor.rest.head?.any isBreak then
      skipGapsWithin fuel
        { scan with cursor := cursor.step, keyAllowed := scan.keyAllowed || !scan.inFlow }
    else { scan with cursor }

def skipGaps (scan : Scan) : Scan := skipGapsWithin (scan.cursor.rest.length + 1) scan

/-- Columns of the block collections that are left open when those deeper than the given column
    are closed, and how many are closed. -/
def closeDeeper (column : Int) : Int → List Int → (Int × List Int) × Nat
  | indent, [] => ((indent, []), 0)
  | indent, parent :: rest =>
    if column < indent then
      let (left, count) := closeDeeper column parent rest
      (left, count + 1)
    else ((indent, parent :: rest), 0)

/-- Close the block collections that are deeper than the given column. -/
def unroll (scan : Scan) (column : Int) : Scan :=
  if scan.inFlow then scan
  else
    let ((indent, outerIndents), count) := closeDeeper column scan.indent scan.outerIndents
    { scan with
      tokens := List.replicate count .blockEnd ++ scan.tokens
      count := scan.count + count
      indent
      outerIndents }

/-- Open a block collection at the given column, unless one is open there. -/
def roll (scan : Scan) (column position : Nat) (token : Token) : Scan :=
  if !scan.inFlow && scan.indent < column then
    { scan.insert position token with
      indent := column
      outerIndents := scan.indent :: scan.outerIndents }
  else scan

/-- Give up a possible key, which must not be required. -/
def giveUp? (key : Option PossibleKey) : Option (Option PossibleKey) :=
  if key.any (·.required) then none else some none

def removeKey (scan : Scan) : Option Scan := do
  return { scan with possibleKey := ← giveUp? scan.possibleKey }

/-- Give up the keys whose colon can no longer come. -/
def dropStaleKeys (scan : Scan) : Option Scan := do
  let drop (key : Option PossibleKey) :=
    if key.any (·.isStale scan.cursor) then giveUp? key else some key
  return { scan with
    possibleKey := ← drop scan.possibleKey
    outerKeys := ← scan.outerKeys.mapM drop }

/-- Remember that a key may start here. -/
def saveKey (scan : Scan) : Option Scan := do
  if scan.keyAllowed then
    let scan ← scan.removeKey
    let cursor := scan.cursor
    let required := !scan.inFlow && scan.indent == cursor.column
    return { scan with
      possibleKey := some ⟨required, scan.count, cursor.index, cursor.line, cursor.column⟩ }
  else return scan

/-! One token each. -/

def fetchDirective (scan : Scan) : Option Scan := do
  let scan ← (scan.unroll (-1)).removeKey
  let cursor := scan.cursor.step
  let (token, rest) ← directiveParts cursor.rest
  let cursor ← (cursor.seek rest).nextLine?
  return { (scan.allowKey false).push token with cursor }

def fetchDocumentMark (scan : Scan) (token : Token) : Option Scan := do
  let scan ← (scan.unroll (-1)).removeKey
  return ((scan.allowKey false).push token).advance 3

def fetchFlowStart (scan : Scan) (token : Token) : Option Scan := do
  let scan ← scan.saveKey
  let scan := { scan with
    possibleKey := none
    outerKeys := scan.possibleKey :: scan.outerKeys }
  return ((scan.allowKey true).push token).advance 1

def fetchFlowEnd (scan : Scan) (token : Token) : Option Scan := do
  let scan ← scan.removeKey
  let scan := match scan.outerKeys with
    | outer :: rest => { scan with possibleKey := outer, outerKeys := rest }
    | [] => scan
  return ((scan.allowKey false).push token).advance 1

def fetchFlowEntry (scan : Scan) : Option Scan := do
  let scan ← scan.removeKey
  return ((scan.allowKey true).push .flowEntry).advance 1

def fetchBlockEntry (scan : Scan) : Option Scan := do
  if !scan.inFlow && !scan.keyAllowed then none
  let scan := scan.roll scan.cursor.column scan.count .blockSequenceStart
  let scan ← scan.removeKey
  return ((scan.allowKey true).push .blockEntry).advance 1

def fetchKey (scan : Scan) : Option Scan := do
  if !scan.inFlow && !scan.keyAllowed then none
  let scan := scan.roll scan.cursor.column scan.count .blockMappingStart
  let scan ← scan.removeKey
  return ((scan.allowKey (!scan.inFlow)).push .key).advance 1

/-- A colon makes the possible key on its level a key. Without one it follows a key that has
    its own mark. -/
def fetchValue (scan : Scan) : Option Scan := do
  match scan.possibleKey with
  | some key =>
    let scan := (scan.insert key.position .key).roll key.column key.position .blockMappingStart
    let scan := { scan with possibleKey := none }
    return ((scan.allowKey false).push .value).advance 1
  | none =>
    if !scan.inFlow && !scan.keyAllowed then none
    let scan := scan.roll scan.cursor.column scan.count .blockMappingStart
    return ((scan.allowKey (!scan.inFlow)).push .value).advance 1

/-- The name of an anchor or a reference after its mark. -/
def anchorName? (input : List Char) : Option (List Char) :=
  let name := input.takeWhile isNameChar
  let rest := input.drop name.length
  let ended := gapAhead rest || rest.head?.any ("?:,]\x7d%@\x60".toList.contains ·)
  if !name.isEmpty && ended then some name else none

/-- Anchors are numbered by how many names were known before. -/
def fetchAnchor (scan : Scan) : Option Scan := do
  let scan ← scan.saveKey
  let name ← anchorName? (scan.cursor.rest.drop 1)
  let number := scan.anchors.length
  let others := scan.anchors.filter (·.1 != String.ofList name)
  let scan := { scan with anchors := (String.ofList name, number) :: others }
  return ((scan.allowKey false).push (.anchor number)).advance (name.length + 1)

def fetchReference (scan : Scan) : Option Scan := do
  let scan ← scan.saveKey
  let name ← anchorName? (scan.cursor.rest.drop 1)
  let number ← scan.anchors.lookup (String.ofList name)
  return ((scan.allowKey false).push (.reference number)).advance (name.length + 1)

def fetchTag (scan : Scan) : Option Scan := do
  let scan ← scan.saveKey
  let ((handle, suffix), rest) ← tagParts scan.cursor.rest
  if !(gapAhead rest || (scan.inFlow && rest.head? == some ',')) then none
  return { (scan.allowKey false).push (.tag handle suffix) with cursor := scan.cursor.seek rest }

def fetchBlockScalar (scan : Scan) (style : Style) : Option Scan := do
  let scan ← scan.removeKey
  let (content, cursor) ← blockScalar (style != .literal) scan.indent scan.cursor.step
  return { (scan.allowKey true).push (.scalar content style) with cursor }

def fetchQuoted (scan : Scan) (quote : Quote) : Option Scan := do
  let scan ← scan.saveKey
  let (content, cursor) ← quotedScalar quote scan.cursor
  return { (scan.allowKey false).push (.scalar content .other) with cursor }

def fetchPlain (scan : Scan) : Option Scan := do
  let scan ← scan.saveKey
  let ((content, broken), cursor) ←
    plainScalar scan.inFlow (scan.indent + 1).toNat scan.cursor
  return { (scan.allowKey broken).push (.scalar content .plain) with cursor }

/-- Characters that do not start a plain scalar, or only with another one after them. -/
def isIndicator (c : Char) : Bool := "-?:,[]\x7b\x7d#&*!|>\x27\"%@\x60".toList.contains c

/-- The token at the cursor, which is neither at a gap nor at the end of the text. -/
def fetch (scan : Scan) : Option Scan :=
  let cursor := scan.cursor
  if cursor.column == 0 && cursor.sees '%' then scan.fetchDirective
  else if cursor.atDocumentStart then scan.fetchDocumentMark .documentStart
  else if cursor.atDocumentEnd then scan.fetchDocumentMark .documentEnd
  else
    match cursor.rest with
    | [] => none
    | '[' :: _ => scan.fetchFlowStart .flowSequenceStart
    | '{' :: _ => scan.fetchFlowStart .flowMappingStart
    | ']' :: _ => scan.fetchFlowEnd .flowSequenceEnd
    | '}' :: _ => scan.fetchFlowEnd .flowMappingEnd
    | ',' :: _ => scan.fetchFlowEntry
    | '*' :: _ => scan.fetchReference
    | '&' :: _ => scan.fetchAnchor
    | '!' :: _ => scan.fetchTag
    | '\x27' :: _ => scan.fetchQuoted .single
    | '"' :: _ => scan.fetchQuoted .double
    | c :: rest =>
      let marked := gapAhead rest
      if c == '-' && marked then scan.fetchBlockEntry
      else if c == '?' && (scan.inFlow || marked) then scan.fetchKey
      else if c == ':' && (scan.inFlow || marked) then scan.fetchValue
      else if c == '|' && !scan.inFlow then scan.fetchBlockScalar .literal
      else if c == '>' && !scan.inFlow then scan.fetchBlockScalar .other
      else if !isGap c && !isIndicator c || c == '-' || c == '?' || c == ':' then scan.fetchPlain
      else none

/-- The tokens from a cursor on. At the end all block collections are closed. -/
def tokensWithin : Nat → Scan → Option (List Token)
  | 0, _ => none
  | fuel + 1, scan => do
    let scan ← scan.skipGaps.dropStaleKeys
    let scan := scan.unroll scan.cursor.column
    if scan.cursor.rest.isEmpty then
      return (← (scan.unroll (-1)).removeKey).tokens.reverse
    else tokensWithin fuel (← scan.fetch)

end Scan

def tokens? (content : String) : Option (List Token) := do
  let chars ← charsOf? content
  Scan.tokensWithin (chars.length + 1) { cursor := { rest := chars } }

end Formulary.Document.Yaml
