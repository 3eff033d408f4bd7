import ExportVolumes.DataFormat
import ExportVolumes.Yaml.Node
import ExportVolumes.Yaml.Resolution

namespace ExportVolumes
namespace Yaml

/-!
YAML as a data format.

A scalar is a text whatever it looks like; only where an option, a truth value or a list may
stand does it matter how the scalar is written.  An empty place is the empty list, the empty
dictionary and the record without fields.  An alias stands for the node it refers to.
-/

/-- The full name of a kind of scalar. -/
def kindTag (kind : String) : String :=
  "tag:yaml.org,2002:" ++ kind

namespace Node

/-- The text of a scalar. -/
def text? : Node → Option String
  | scalar _ _ text => some text
  | _ => none

/-- Whether a node is an empty place. -/
def isBlank : Node → Bool
  | scalar _ .plain text => text.isEmpty
  | _ => false

/-- Whether a node stands for an absent option: an empty place or a plain word for null.  A
scalar that is tagged as null has to be such a word. -/
def absent? : Node → Option Bool
  | scalar properties .plain text =>
      match properties.tag with
      | some tag =>
          if tag = kindTag "null" then
            if text ∈ nullWords then some true else none
          else some false
      | none => some (text.isEmpty || text ∈ nullWords)
  | _ => some false

/-- The truth value of a plain word, or of one in a literal block that is tagged for it. -/
def flag? : Node → Option Bool
  | scalar properties style text =>
      if style = .plain || (style = .literal && properties.tag = some (kindTag "bool")) then
        if text ∈ trueWords then some true
        else if text ∈ falseWords then some false
        else none
      else none
  | _ => none

/-- The word of a fixed choice: a scalar, or the name of a tag of the document's own on an
empty place. -/
def word? : Node → Option String
  | scalar properties style text =>
      match properties.tag.map String.toList with
      | some ('!' :: name) =>
          if style = .plain && (text.isEmpty || text ∈ nullWords) then some (String.ofList name)
          else none
      | _ => some text
  | sequence .. | mapping .. | reference _ => none

end Node

namespace Document

/-- The entries of a mapping whose keys are all scalars, or of an empty place. -/
def table? (document : Document) (node : Node) : Option (List (String × Node)) :=
  match document.target? node with
  | some (.mapping _ entries) =>
      entries.mapM fun entry =>
        ((document.target? entry.1).bind Node.text?).map (fun key => (key, entry.2))
  | some node => if node.isBlank then some [] else none
  | none => none

/-- The items of a sequence, or of an empty place. -/
def items? (document : Document) (node : Node) : Option (List Node) :=
  match document.target? node with
  | some (.sequence _ items) => some items
  | some node => if node.isBlank then some [] else none
  | none => none

/-- The format of the nodes of a document. -/
def format (document : Document) : DataFormat Node where
  text? := fun node => (document.target? node).bind Node.text?
  absent? := fun node => (document.target? node).bind Node.absent?
  record? := fun _ node => document.table? node
  table? := document.table?
  items? := document.items?
  flag? := fun node => (document.target? node).bind Node.flag?
  word? := fun node => (document.target? node).bind Node.word?

/-- The root of a document; that of an empty one is an empty place. -/
def rootNode (document : Document) : Node :=
  document.root.getD .blank

end Document
end Yaml
end ExportVolumes
