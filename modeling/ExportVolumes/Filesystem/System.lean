import ExportVolumes.Filesystem.Calls

namespace ExportVolumes

/-!
The tree of a system before anything is provisioned: the directories that every system has,
the empty device, and a directory to work in.
-/

namespace Tree

/-- The directories at the top of every system. -/
def systemDirectories : List String :=
  ["bin", "boot", "dev", "etc", "home", "lib", "media", "mnt", "opt", "proc", "root", "run",
   "sbin", "srv", "sys", "tmp", "usr", "var"]

/-- The directory to work in. -/
def scratch : Location := ["tmp", "scratch"]

/-- The path of the directory to work in. -/
def scratchPath : String := "/" ++ locationText scratch

/-- A directory of the system. -/
def systemDirectory : Entry := .directory 0o755 0 0

/-- The tree of a system. -/
def system : Tree where
  entries :=
    [(scratch, systemDirectory), (["dev", "null"], .file 0o666 0 0 ""), ([], systemDirectory)] ++
      systemDirectories.map (fun name => ([name], systemDirectory))

/-- The locations above a location, the nearest last. -/
def parents (location : Location) : List Location :=
  (List.range location.length).map (fun count => location.take count)

/-- Put an entry at a location, with directories above it where there are none. -/
def place (tree : Tree) (location : Location) (entry : Entry) : Tree :=
  let made := (parents location).foldl
    (fun made parent => if (made.get? parent).isSome then made else made.set parent systemDirectory)
    tree
  made.set location entry

end Tree
end ExportVolumes
