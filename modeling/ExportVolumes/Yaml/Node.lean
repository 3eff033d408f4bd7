namespace ExportVolumes
namespace Yaml

/-!
YAML documents as trees of nodes.
-/

/-- How a scalar is written. -/
inductive ScalarStyle where
  | plain
  | singleQuoted
  | doubleQuoted
  | literal
  | folded
  deriving DecidableEq, Repr

/-- What may stand before the content of a node.  Anchors are numbered; an alias refers to the
number. -/
structure Properties where
  anchor : Option Nat := none
  tag : Option String := none
  deriving DecidableEq, Repr

/-- A node. -/
inductive Node where
  | scalar (properties : Properties) (style : ScalarStyle) (text : String)
  | sequence (properties : Properties) (items : List Node)
  | mapping (properties : Properties) (entries : List (Node × Node))
  | reference (anchor : Nat)
  deriving Inhabited, Repr

/-- The scalar that an empty place stands for. -/
def Node.blank (properties : Properties := {}) : Node :=
  .scalar properties .plain ""

/-- The properties of a node. -/
def Node.properties : Node → Properties
  | scalar properties .. | sequence properties _ | mapping properties _ => properties
  | reference _ => {}

mutual

/-- The last node of a tree, in the order of the text, that an anchor number is put on. -/
def Node.anchored? (anchor : Nat) : Node → Option Node
  | .reference _ => none
  | .scalar properties style text =>
      if properties.anchor = some anchor then some (.scalar properties style text) else none
  | .sequence properties items =>
      (anchoredItem? anchor items).or <|
        if properties.anchor = some anchor then some (.sequence properties items) else none
  | .mapping properties entries =>
      (anchoredPair? anchor entries).or <|
        if properties.anchor = some anchor then some (.mapping properties entries) else none

/-- The last anchored node of a list. -/
def anchoredItem? (anchor : Nat) : List Node → Option Node
  | [] => none
  | item :: items => (anchoredItem? anchor items).or (item.anchored? anchor)

/-- The last anchored node of a list of entries. -/
def anchoredPair? (anchor : Nat) : List (Node × Node) → Option Node
  | [] => none
  | (key, value) :: entries =>
      (anchoredPair? anchor entries).or ((value.anchored? anchor).or (key.anchored? anchor))

end

/-- A document: its root node, unless there is nothing in it at all. -/
structure Document where
  root : Option Node
  deriving Inhabited, Repr

/-- The node that an anchor number is put on. -/
def Document.anchored? (document : Document) (anchor : Nat) : Option Node :=
  document.root.bind (Node.anchored? anchor)

/-- The node that a node stands for: an alias stands for the node it refers to. -/
def Document.target? (document : Document) : Node → Option Node
  | .reference anchor => document.anchored? anchor
  | node => some node

end Yaml
end ExportVolumes
