import Formulary.Document.Yaml.Token

namespace Formulary.Document.Yaml

/-! The tokens of a YAML text as a tree of nodes. -/

/-- Anchor and tag of a node. -/
structure Properties where
  anchor : Option Nat := none
  tag : Option String := none

inductive Node where
  | reference (number : Nat)
  | scalar (properties : Properties) (content : String) (style : Style)
  | sequence (properties : Properties) (items : List Node)
  | mapping (properties : Properties) (entries : List (Node × Node))
deriving Inhabited

namespace Node

/-- The scalar that stands where nothing is written. -/
def empty : Node := scalar {} "" .plain

end Node

/-- What the handles of tags stand for. -/
abbrev Handles := List (String × String)

/-- Handles that need no directive. -/
def commonHandles : Handles := [("!", "!"), ("!!", commonTag "")]

/-- A tag in full. -/
def Handles.tag? (handles : Handles) (handle suffix : String) : Option String :=
  if handle.isEmpty then some suffix else (handles.lookup handle).map (· ++ suffix)

/-- Anchor and tag in front of a node, in either order. -/
def properties? (handles : Handles) : List Token → Option (Properties × List Token)
  | .anchor number :: .tag handle suffix :: rest
  | .tag handle suffix :: .anchor number :: rest => do
    return ({ anchor := number, tag := ← handles.tag? handle suffix }, rest)
  | .anchor number :: rest => some ({ anchor := number }, rest)
  | .tag handle suffix :: rest => do return ({ tag := ← handles.tag? handle suffix }, rest)
  | rest => some ({}, rest)

/-- What reads the node in front of the tokens. In block context it may be a block collection,
    and as part of a mapping also a sequence that is not indented. -/
abbrev NodeReader := (block inMapping : Bool) → List Token → Option (Node × List Token)

/-! Block collections. -/

/-- Whether the part of a block sequence that starts here is empty. -/
def endsItem : List Token → Bool
  | .blockEntry :: _ => true
  | .blockEnd :: _ => true
  | _ => false

/-- Whether the part of a block mapping that starts here is empty. -/
def endsPart : List Token → Bool
  | .key :: _ => true
  | .value :: _ => true
  | .blockEnd :: _ => true
  | _ => false

/-- The node in front of the tokens, or the empty one where it is left out. -/
def orEmpty (isEmpty : List Token → Bool) (read : List Token → Option (Node × List Token))
    (tokens : List Token) : Option (Node × List Token) :=
  if isEmpty tokens then some (.empty, tokens) else read tokens

def blockItemsWithin (node : NodeReader) : Nat → List Token → Option (List Node × List Token)
  | fuel + 1, .blockEntry :: tokens => do
    let (item, tokens) ← orEmpty endsItem (node true false) tokens
    let (items, tokens) ← blockItemsWithin node fuel tokens
    return (item :: items, tokens)
  | _, .blockEnd :: tokens => some ([], tokens)
  | _, _ => none

/-- Items of a sequence that stands at the indentation of the mapping around it. -/
def indentlessItemsWithin (node : NodeReader) :
    Nat → List Token → Option (List Node × List Token)
  | fuel + 1, .blockEntry :: tokens => do
    let ends (tokens : List Token) : Bool := endsItem tokens || endsPart tokens
    let (item, tokens) ← orEmpty ends (node true false) tokens
    let (items, tokens) ← indentlessItemsWithin node fuel tokens
    return (item :: items, tokens)
  | _, tokens => some ([], tokens)

def blockEntriesWithin (node : NodeReader) :
    Nat → List Token → Option (List (Node × Node) × List Token)
  | fuel + 1, .key :: tokens => do
    let (name, tokens) ← orEmpty endsPart (node true true) tokens
    let (content, tokens) ← match tokens with
      | .value :: tokens => orEmpty endsPart (node true true) tokens
      | tokens => some (.empty, tokens)
    let (entries, tokens) ← blockEntriesWithin node fuel tokens
    return ((name, content) :: entries, tokens)
  | _, .blockEnd :: tokens => some ([], tokens)
  | _, _ => none

/-! Flow collections. -/

/-- Whether the part of a flow sequence that starts here is empty. -/
def endsFlowItem : List Token → Bool
  | .flowEntry :: _ => true
  | .flowSequenceEnd :: _ => true
  | _ => false

/-- Whether the part of a flow mapping that starts here is empty. -/
def endsFlowPart : List Token → Bool
  | .flowEntry :: _ => true
  | .flowMappingEnd :: _ => true
  | _ => false

def startsValue : List Token → Bool
  | .value :: _ => true
  | _ => false

/-- The value after a key in a flow collection, which may be left out with its mark. -/
def flowValue (ends : List Token → Bool) (node : NodeReader) :
    List Token → Option (Node × List Token)
  | .value :: tokens => orEmpty ends (node false false) tokens
  | tokens => some (.empty, tokens)

/-- A mapping of one entry as an item of a flow sequence, after the mark of its key. Where the
    key is left out, the token after its mark is taken with it. -/
def flowPair (node : NodeReader) (tokens : List Token) : Option (Node × List Token) := do
  let (name, tokens) ←
    if startsValue tokens || endsFlowItem tokens then some (.empty, tokens.drop 1)
    else node false false tokens
  let (content, tokens) ← flowValue endsFlowItem node tokens
  return (.mapping {} [(name, content)], tokens)

def flowItem (node : NodeReader) : List Token → Option (Node × List Token)
  | .key :: tokens => flowPair node tokens
  | tokens => node false false tokens

/-- What follows in a flow collection: its end, or the tokens of the next part. A comma stands
    before all parts but the first, and may stand before the end. -/
def flowNext? (isEnd : Token → Bool) : Bool → List Token → Option (Bool × List Token)
  | _, [] => none
  | first, token :: tokens =>
    if isEnd token then some (true, tokens)
    else if first then some (false, token :: tokens)
    else
      match token, tokens with
      | .flowEntry, next :: rest =>
        some (if isEnd next then (true, rest) else (false, next :: rest))
      | _, _ => none

def isFlowSequenceEnd : Token → Bool
  | .flowSequenceEnd => true
  | _ => false

def isFlowMappingEnd : Token → Bool
  | .flowMappingEnd => true
  | _ => false

def flowItemsWithin (node : NodeReader) :
    Nat → Bool → List Token → Option (List Node × List Token)
  | 0, _, _ => none
  | fuel + 1, first, tokens => do
    match ← flowNext? isFlowSequenceEnd first tokens with
    | (true, tokens) => return ([], tokens)
    | (false, tokens) =>
      let (item, tokens) ← flowItem node tokens
      let (items, tokens) ← flowItemsWithin node fuel false tokens
      return (item :: items, tokens)

/-- An entry of a flow mapping. Without the mark of a key its value is empty. -/
def flowEntry (node : NodeReader) : List Token → Option ((Node × Node) × List Token)
  | .key :: tokens => do
    let ends (tokens : List Token) : Bool := startsValue tokens || endsFlowPart tokens
    let (name, tokens) ← orEmpty ends (node false false) tokens
    let (content, tokens) ← flowValue endsFlowPart node tokens
    return ((name, content), tokens)
  | tokens => do
    let (name, tokens) ← node false false tokens
    return ((name, .empty), tokens)

def flowEntriesWithin (node : NodeReader) :
    Nat → Bool → List Token → Option (List (Node × Node) × List Token)
  | 0, _, _ => none
  | fuel + 1, first, tokens => do
    match ← flowNext? isFlowMappingEnd first tokens with
    | (true, tokens) => return ([], tokens)
    | (false, tokens) =>
      let (entry, tokens) ← flowEntry node tokens
      let (entries, tokens) ← flowEntriesWithin node fuel false tokens
      return (entry :: entries, tokens)

/-! Nodes and documents. -/

/-- The content of a node after its properties. The tag that is only an exclamation mark leaves
    a scalar untagged, and properties alone mark an empty scalar. -/
def nodeContent (node : NodeReader) (block inMapping : Bool) (properties : Properties)
    (tokens : List Token) : Option (Node × List Token) :=
  let fuel := tokens.length + 1
  let items (result : List Node × List Token) := (Node.sequence properties result.1, result.2)
  let entries (result : List (Node × Node) × List Token) :=
    (Node.mapping properties result.1, result.2)
  match block, inMapping, tokens with
  | _, true, .blockEntry :: _ => (indentlessItemsWithin node fuel tokens).map items
  | _, _, .scalar content style :: tokens =>
    let tag := properties.tag.filter (· != "!")
    some (.scalar { properties with tag } content style, tokens)
  | _, _, .flowSequenceStart :: tokens => (flowItemsWithin node fuel true tokens).map items
  | _, _, .flowMappingStart :: tokens => (flowEntriesWithin node fuel true tokens).map entries
  | true, _, .blockSequenceStart :: tokens => (blockItemsWithin node fuel tokens).map items
  | true, _, .blockMappingStart :: tokens => (blockEntriesWithin node fuel tokens).map entries
  | _, _, tokens =>
    if properties.anchor.isSome || properties.tag.isSome then
      some (.scalar properties "" .plain, tokens)
    else none

/-- The node in front of the tokens, nested at most as deep as given. -/
def nodeAt (handles : Handles) : Nat → NodeReader
  | 0, _, _, _ => none
  | _ + 1, _, _, .reference number :: tokens => some (.reference number, tokens)
  | depth + 1, block, inMapping, tokens => do
    let (properties, tokens) ← properties? handles tokens
    nodeContent (nodeAt handles depth) block inMapping properties tokens

/-- The handles that the directives in front of a document declare, each once, and the tokens
    after them. There is at most one version, and it has to be known. -/
def directives? : Bool → Handles → List Token → Option (Handles × List Token)
  | versioned, handles, .version major minor :: tokens =>
    if versioned || major != 1 || (minor != 1 && minor != 2) then none
    else directives? true handles tokens
  | versioned, handles, .tagHandle handle expansion :: tokens =>
    if (handles.lookup handle).isSome then none
    else directives? versioned ((handle, expansion) :: handles) tokens
  | _, handles, tokens => some (handles, tokens)

/-- Whether the tokens start with directives or the mark of a document. -/
def startsDocument : List Token → Bool
  | .version _ _ :: _ => true
  | .tagHandle _ _ :: _ => true
  | .documentStart :: _ => true
  | _ => false

/-- Whether a document without content ends here. -/
def endsDocument : List Token → Bool
  | [] => true
  | .documentEnd :: _ => true
  | tokens => startsDocument tokens

def isDocumentEnd : Token → Bool
  | .documentEnd => true
  | _ => false

/-- The node of the only document among the tokens. -/
def documentNode? (tokens : List Token) : Option Node := do
  let depth := tokens.length + 1
  let (node, rest) ←
    if tokens.isEmpty then some (.empty, tokens)
    else if startsDocument tokens then do
      let (handles, tokens) ← directives? false [] tokens
      let .documentStart :: tokens := tokens | none
      orEmpty endsDocument (nodeAt (handles ++ commonHandles) depth true false) tokens
    else nodeAt commonHandles depth true false tokens
  if rest.all isDocumentEnd then some node else none

end Formulary.Document.Yaml
