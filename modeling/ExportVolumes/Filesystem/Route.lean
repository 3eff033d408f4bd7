import ExportVolumes.Filesystem.Tree
import ExportVolumes.Path

namespace ExportVolumes

/-!
The way that a call takes from its path through a tree.

A path is followed step by step, each step from a directory that is there.  A call that makes,
moves or removes an entry stops before the last step, which then has to be a name.
-/

/-- A path as calls follow it, with the steps that lead nowhere. -/
structure Route where
  absolute : Bool
  steps : List Component
  /-- Whether there is a slash at the end, where only a directory can be. -/
  slash : Bool := false
  deriving DecidableEq, Repr

namespace Route

/-- The step that a piece of a path stands for, if any. -/
def ofPiece? (piece : List Char) : Option Component :=
  if piece = ['.'] then some .current else Path.ofPiece? piece

/-- The route of a text. -/
def ofChars (chars : List Char) : Route where
  absolute := chars.head? = some '/'
  steps := (Path.pieces chars).filterMap ofPiece?
  slash := chars.getLast? = some '/'

/-- The route of a text that a call can take. -/
def ofText (text : String) : Except SystemError Route :=
  if text.toList.contains '\x00' then .error .nulInName
  else if 4096 ≤ text.utf8ByteSize then .error .nameTooLong
  else if text.isEmpty then .error .notFound
  else .ok (ofChars text.toList)

/-- The longest name of an entry, in octets. -/
def maxNameSize : Nat := 255

end Route

namespace Tree

/-- The entry of a name in a directory, which does not have to be there. -/
def look (tree : Tree) (directory : Location) (name : String) :
    Except SystemError (Option Entry) :=
  if Route.maxNameSize < name.utf8ByteSize then .error .nameTooLong
  else .ok (tree.get? (directory ++ [name]))

/-- Take a step from a location. -/
def step (tree : Tree) (location : Location) (component : Component) :
    Except SystemError Location :=
  match tree.get? location with
  | none => .error .notFound
  | some (.file ..) => .error .notDirectory
  | some (.directory ..) =>
      match component with
      | .current => .ok location
      | .parent => .ok location.dropLast
      | .name name => do
          match ← tree.look location name with
          | some _ => .ok (location ++ [name])
          | none => .error .notFound

/-- Take steps from a location. -/
def walk (tree : Tree) (location : Location) (steps : List Component) :
    Except SystemError Location :=
  steps.foldlM tree.step location

/-- Where a route begins. -/
def start (here : Location) (route : Route) : Location :=
  if route.absolute then [] else here

/-- What a route leads to. -/
def find (tree : Tree) (here : Location) (route : Route) :
    Except SystemError (Location × Entry) := do
  let location ← tree.walk (start here route) route.steps
  match tree.get? location with
  | none => .error .notFound
  | some entry =>
      if route.slash && !entry.isDirectory then .error .notDirectory else .ok (location, entry)

/-- The directory that the last step of a route is taken from, and that step.  A route without
steps is the top of the tree. -/
def approach (tree : Tree) (here : Location) (route : Route) :
    Except SystemError (Location × Entry × Option Component) := do
  let location ← tree.walk (start here route) route.steps.dropLast
  match tree.get? location with
  | none => .error .notFound
  | some (.file ..) => .error .notDirectory
  | some directory => .ok (location, directory, route.steps.getLast?)

/-- Whether a route leads to a directory. -/
def isDirectory (tree : Tree) (here : Location) (route : Route) : Bool :=
  match tree.find here route with
  | .ok (_, entry) => entry.isDirectory
  | .error _ => false

end Tree
end ExportVolumes
