import ExportVolumes.Filesystem.Entry

namespace ExportVolumes

/-!
Trees of directories and files.

A tree is a finite map from locations to entries, a location being the list of names from the
top.
-/

/-- The names from the top of a tree to an entry. -/
abbrev Location := List String

/-- A tree of directories and files. -/
structure Tree where
  entries : List (Location × Entry) := [([], .directory 0o755 0 0)]
  deriving Repr

namespace Tree

/-- The entry at a location. -/
def get? (tree : Tree) (location : Location) : Option Entry :=
  tree.entries.lookup location

/-- Put an entry at a location, in place of any other. -/
def set (tree : Tree) (location : Location) (entry : Entry) : Tree :=
  ⟨(location, entry) :: tree.entries.filter (fun held => held.1 ≠ location)⟩

/-- Whether one location is another one or lies below it. -/
def within (top : Location) (location : Location) : Bool :=
  top.isPrefixOf location

/-- Whether anything lies below a location. -/
def hasChildren (tree : Tree) (location : Location) : Bool :=
  tree.entries.any (fun held => within location held.1 && held.1 ≠ location)

/-- Drop a location and all below it. -/
def drop (tree : Tree) (location : Location) : Tree :=
  ⟨tree.entries.filter (fun held => !within location held.1)⟩

/-- Drop all below a location. -/
def dropBelow (tree : Tree) (location : Location) : Tree :=
  ⟨tree.entries.filter (fun held => !within location held.1 || held.1 = location)⟩

/-- Where a location comes to lie when `source` becomes `target`. -/
def moved (source target location : Location) : Location :=
  if within source location then target ++ location.drop source.length else location

/-- Move a location and all below it, in place of anything at the target. -/
def move (tree : Tree) (source target : Location) : Tree :=
  ⟨(tree.drop target).entries.map (fun held => (moved source target held.1, held.2))⟩

/-- The text of a location below another one. -/
def locationText (location : Location) : String :=
  String.intercalate "/" location

/-- What lies below a location, by the text of its place there. -/
def below (tree : Tree) (top : Location) : List (String × Entry) :=
  let found := tree.entries.filter (fun held => within top held.1 && held.1 ≠ top)
  let named := found.map (fun held => (locationText (held.1.drop top.length), held.2))
  named.mergeSort (fun first second => !(second.1 < first.1))

end Tree
end ExportVolumes
