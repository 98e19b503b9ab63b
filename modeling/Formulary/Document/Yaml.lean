import Formulary.Document.Yaml.Node

namespace Formulary.Document.Yaml

/-! Documents written in YAML. -/

/-- A scalar as a document. The tags of common kinds count only on plain scalars and literal
    blocks. -/
def scalarDocument (tag : Option String) (content : String) : Style → Document
  | .plain => tag.elim (plain content) (tagged · (plain content))
  | .literal => tag.elim (Document.text content) (tagged · (Document.text content))
  | .other =>
    (tag.filter (·.startsWith "!")).elim (Document.text content)
      (tagged · (Document.text content))

/-- A mapping, which can only be passed over if one of its keys is no scalar. -/
def mappingDocument (entries : List (Document × Document)) : Document :=
  match entries.mapM fun entry => entry.1.text?.map (·, entry.2) with
  | some entries => mapping entries
  | none => unreadable

/-- Nesting up to which sequences and mappings are read. -/
def maxDepth : Nat := 128

/-- A collection inside `level` others. -/
def collection (level : Nat) (properties : Properties) (document : Document) : Document :=
  if level < maxDepth then properties.tag.elim document (tagged · document) else unreadable

/-- Documents of the anchored nodes by the numbers of their anchors. -/
abbrev Anchored := List (Nat × Document)

namespace Node

mutual

/-- The nodes with anchors in the order of the text. -/
def anchored : Node → List (Nat × Node)
  | reference _ => []
  | scalar properties content style =>
    (properties.anchor.map (·, scalar properties content style)).toList
  | sequence properties items =>
    (properties.anchor.map (·, sequence properties items)).toList ++ anchoredItems items
  | mapping properties entries =>
    (properties.anchor.map (·, mapping properties entries)).toList ++ anchoredEntries entries

def anchoredItems : List Node → List (Nat × Node)
  | [] => []
  | item :: rest => anchored item ++ anchoredItems rest

def anchoredEntries : List (Node × Node) → List (Nat × Node)
  | [] => []
  | (name, content) :: rest => anchored name ++ anchored content ++ anchoredEntries rest

end

mutual

/-- A node inside `level` collections as a document, given those of the anchored nodes. -/
def toDocument (known : Anchored) (level : Nat) : Node → Document
  | reference number => (known.lookup number).getD unreadable
  | scalar properties content style => scalarDocument properties.tag content style
  | sequence properties items =>
    collection level properties (.sequence (toDocuments known (level + 1) items))
  | mapping properties entries =>
    collection level properties (mappingDocument (toEntries known (level + 1) entries))

def toDocuments (known : Anchored) (level : Nat) : List Node → List Document
  | [] => []
  | item :: rest => toDocument known level item :: toDocuments known level rest

def toEntries (known : Anchored) (level : Nat) : List (Node × Node) → List (Document × Document)
  | [] => []
  | (name, content) :: rest =>
    (toDocument known level name, toDocument known level content) :: toEntries known level rest

end

/-- How often a node that contains a reference to itself is unfolded. What is deeper can only be
    passed over. -/
def unfoldings : Nat := 8

/-- Documents of anchored nodes, given in the order in which they count. In each round the
    references are replaced by what the round before has found. -/
def anchoredDocuments (nodes : List (Nat × Node)) : Nat → Anchored
  | 0 => []
  | rounds + 1 =>
    let known := anchoredDocuments nodes rounds
    nodes.map fun (number, node) => (number, node.toDocument known 0)

/-- The document of a node in which the references stand for the nodes that have their anchors;
    of anchors with equal numbers the last counts. -/
def document (node : Node) : Document :=
  let nodes := node.anchored.reverse
  node.toDocument (anchoredDocuments nodes (nodes.length + unfoldings)) 0

end Node

/-- The document of a text, which is empty if the text holds none. -/
def parse? (content : String) : Option Document := do
  let tokens ← tokens? content
  return (← documentNode? tokens).document

end Formulary.Document.Yaml
