import ExportVolumes.Filesystem.Route

namespace ExportVolumes
namespace Tree

/-!
The calls that a process of the superuser makes on a tree.

Calls follow the rules of POSIX: a directory is renamed over an empty directory only and never
into itself, and a failed call names its cause.
-/

/-! ## Looking -/

/-- Whether a path exists.  A path through a file is an error. -/
def pathExists (tree : Tree) (here : Location) (text : String) : Except SystemError Bool :=
  match (Route.ofText text).bind (tree.find here) with
  | .ok _ => .ok true
  | .error .notFound => .ok false
  | .error cause => .error cause

/-- The content of a file. -/
def read (tree : Tree) (here : Location) (text : String) : Except SystemError String := do
  match ← tree.find here (← Route.ofText text) with
  | (_, .file _ _ _ content) => .ok content
  | (_, .directory ..) => .error .isDirectory

/-! ## Making -/

/-- Make one directory. -/
def makeDirectory (tree : Tree) (here : Location) (mode : UInt32) (route : Route) :
    Except SystemError Tree := do
  match ← tree.approach here route with
  | (location, directory, some (.name name)) =>
      match ← tree.look location name with
      | some _ => .error .exists
      | none => .ok (tree.set (location ++ [name]) (directory.newDirectory mode))
  | _ => .error .exists

/-- Make a directory after those above it, if they are missing.  What was made stays when a
later step fails. -/
def makeAfter (here : Location) (mode : UInt32) (route : Route)
    (makeParents : Tree → Except SystemError Unit × Tree) (tree : Tree) :
    Except SystemError Unit × Tree :=
  match tree.makeDirectory here mode route with
  | .ok made => (.ok (), made)
  | .error .notFound =>
      match makeParents tree with
      | (.error cause, made) => (.error cause, made)
      | (.ok (), made) =>
          match made.makeDirectory here mode route with
          | .ok made => (.ok (), made)
          | .error cause => if made.isDirectory here route then (.ok (), made) else (.error cause, made)
  | .error cause => if tree.isDirectory here route then (.ok (), tree) else (.error cause, tree)

/-- Make a directory and its missing parents, the steps to it given last first. -/
def makeAll (here : Location) (mode : UInt32) (absolute : Bool) :
    List Component → Tree → Except SystemError Unit × Tree
  | [], tree => (.ok (), tree)
  | last :: others, tree =>
      makeAfter here mode ⟨absolute, (last :: others).reverse, false⟩
        (makeAll here mode absolute others) tree

/-- Make a directory and its missing parents; one that is there already is left alone, and the
empty path is no directory to make. -/
def createDirectories (tree : Tree) (here : Location) (text : String) (mode : UInt32) :
    Except SystemError Unit × Tree :=
  if text.isEmpty then (.ok (), tree)
  else
    match Route.ofText text with
    | .error cause => (.error cause, tree)
    | .ok route =>
        let parents := (Path.ofText text).components.dropLast.reverse
        makeAfter here mode route (makeAll here mode route.absolute parents) tree

/-- Write a file.  One that is there keeps its mode and its owner. -/
def write (tree : Tree) (here : Location) (text : String) (content : String) :
    Except SystemError Tree := do
  let route ← Route.ofText text
  match ← tree.approach here route with
  | (location, directory, some (.name name)) =>
      if route.slash then .error .isDirectory
      else
        match ← tree.look location name with
        | some (.directory ..) => .error .isDirectory
        | some (.file mode user group _) =>
            .ok (tree.set (location ++ [name]) (.file mode user group content))
        | none => .ok (tree.set (location ++ [name]) (directory.newFile content))
  | _ => .error .isDirectory

/-! ## Changing -/

/-- Set the mode of an entry. -/
def setMode (tree : Tree) (here : Location) (text : String) (mode : UInt32) :
    Except SystemError Tree := do
  let (location, entry) ← tree.find here (← Route.ofText text)
  return tree.set location (entry.withMode mode)

/-- Set the owner of an entry. -/
def setOwner (tree : Tree) (here : Location) (text : String) (user group : UInt32) :
    Except SystemError Tree := do
  let (location, entry) ← tree.find here (← Route.ofText text)
  return tree.set location (entry.withOwner user group)

/-! ## Removing -/

/-- Remove an empty directory. -/
def removeDirectory (tree : Tree) (here : Location) (route : Route) : Except SystemError Tree := do
  match ← tree.approach here route with
  | (_, _, none) => .error .busy
  | (_, _, some .current) => .error .invalid
  | (_, _, some .parent) => .error .notEmpty
  | (location, _, some (.name name)) => .ok (tree.drop (location ++ [name]))

/-- Remove a directory and all below it.  One that is gone already is no error, nor is a path
whose last directory went with what was below another one. -/
def removeTree (tree : Tree) (here : Location) (text : String) : Except SystemError Unit × Tree :=
  match Route.ofText text with
  | .error .notFound => (.ok (), tree)
  | .error cause => (.error cause, tree)
  | .ok route =>
      match tree.find here route with
      | .error .notFound => (.ok (), tree)
      | .error cause => (.error cause, tree)
      | .ok (_, .file ..) => (.error .notDirectory, tree)
      | .ok (location, .directory ..) =>
          let emptied := tree.dropBelow location
          match emptied.removeDirectory here route with
          | .ok removed => (.ok (), removed)
          | .error .notFound => (.ok (), emptied)
          | .error cause => (.error cause, emptied)

/-! ## Renaming -/

/-- Put the entry at a location in place of what is at another one, if it can stand there. -/
def replace (tree : Tree) (origin goal : Location) (entry : Entry) (held : Option Entry) :
    Except SystemError Tree :=
  if origin = goal then .ok tree
  else if within origin goal then .error .invalid
  else if within goal origin then .error .notEmpty
  else
    match held with
    | none => .ok (tree.move origin goal)
    | some held =>
        if entry.isDirectory && !held.isDirectory then .error .notDirectory
        else if !entry.isDirectory && held.isDirectory then .error .isDirectory
        else if tree.hasChildren goal then .error .notEmpty
        else .ok (tree.move origin goal)

/-- Rename a file or a directory.  A directory may take the place of an empty directory, a file
that of a file. -/
def rename (tree : Tree) (here : Location) (source target : String) :
    Except SystemError Tree := do
  if source.toList.contains '\x00' || target.toList.contains '\x00' then throw .nulInName
  let sourceRoute ← Route.ofText source
  let sourceEnd ← tree.approach here sourceRoute
  let targetRoute ← Route.ofText target
  let targetEnd ← tree.approach here targetRoute
  match sourceEnd, targetEnd with
  | (sourceParent, _, some (.name sourceName)), (targetParent, _, some (.name targetName)) =>
      match ← tree.look sourceParent sourceName with
      | none => .error .notFound
      | some entry =>
          let held ← tree.look targetParent targetName
          if !entry.isDirectory && (sourceRoute.slash || targetRoute.slash) then
            .error .notDirectory
          else tree.replace (sourceParent ++ [sourceName]) (targetParent ++ [targetName]) entry held
  | _, _ => .error .busy

/-! ## Calls -/

/-- Take the result of a call that changes the tree or leaves it. -/
def settle (tree : Tree) : Except SystemError Tree → Except SystemError Bool × Tree
  | .ok changed => (.ok true, changed)
  | .error cause => (.error cause, tree)

/-- Answer a call. -/
def answer (tree : Tree) (here : Location) (call : Call) : Except Fault Bool × Tree :=
  let outcome : Except SystemError Bool × Tree :=
    match call with
    | .pathExists text => (tree.pathExists here text, tree)
    | .createDirectories text mode =>
        let (result, made) := tree.createDirectories here text mode
        (result.map (fun _ => true), made)
    | .setMode text mode => tree.settle (tree.setMode here text mode)
    | .setOwner text user group => tree.settle (tree.setOwner here text user group)
    | .removeTree text =>
        let (result, left) := tree.removeTree here text
        (result.map (fun _ => true), left)
    | .rename source target => tree.settle (tree.rename here source target)
  (outcome.1.mapError SystemError.message, outcome.2)

end Tree
end ExportVolumes
