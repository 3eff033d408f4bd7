import ExportVolumes.Effect

namespace ExportVolumes

/-!
Directories and files, and the rules for their modes and owners.

The process is the superuser's.  What it makes belongs to it, except that a directory with the
group bit hands its own group down, and the bit itself to the directories made in it.
-/

/-- The causes of failed calls. -/
inductive SystemError where
  | notFound
  | exists
  | notDirectory
  | isDirectory
  | invalid
  | busy
  | nameTooLong
  | notEmpty
  | nulInName
  deriving DecidableEq, Repr

/-- The wording of a cause. -/
def SystemError.message : SystemError → Fault
  | .notFound => "No such file or directory (os error 2)"
  | .busy => "Device or resource busy (os error 16)"
  | .exists => "File exists (os error 17)"
  | .notDirectory => "Not a directory (os error 20)"
  | .isDirectory => "Is a directory (os error 21)"
  | .invalid => "Invalid argument (os error 22)"
  | .nameTooLong => "File name too long (os error 36)"
  | .notEmpty => "Directory not empty (os error 39)"
  | .nulInName => "file name contained an unexpected NUL byte"

/-- A directory or a file. -/
inductive Entry where
  | directory (mode user group : UInt32)
  | file (mode user group : UInt32) (content : String)
  deriving DecidableEq, Repr

namespace Entry

/-- Whether an entry is a directory. -/
def isDirectory : Entry → Bool
  | directory .. => true
  | file .. => false

/-- The mode of an entry. -/
def mode : Entry → UInt32
  | directory mode .. | file mode .. => mode

/-- The group of an entry. -/
def group : Entry → UInt32
  | directory _ _ group | file _ _ group _ => group

/-! ## Modes -/

/-- The bits that a mode has. -/
def modeBits : UInt32 := 0o7777

/-- The bit that lets a file run as its owner. -/
def userBit : UInt32 := 0o4000

/-- The bit that lets a file run as its group, and that a directory hands down. -/
def groupBit : UInt32 := 0o2000

/-- The bit that lets the members of its group run a file. -/
def groupRuns : UInt32 := 0o0010

/-- The bits that a new directory can be given. -/
def directoryBits : UInt32 := 0o1777

/-- The bits of a new entry's mode that are left out. -/
def creationMask : UInt32 := 0o022

/-- Whether a mode has a bit. -/
def hasBit (mode bit : UInt32) : Bool :=
  mode &&& bit ≠ 0

/-- The mode of a new directory. -/
def newMode (mode : UInt32) : UInt32 :=
  mode &&& directoryBits &&& ~~~creationMask

/-- The entry with another mode. -/
def withMode (mode : UInt32) : Entry → Entry
  | directory _ user group => directory (mode &&& modeBits) user group
  | file _ user group content => file (mode &&& modeBits) user group content

/-! ## New entries -/

/-- The group of what is made in a directory. -/
def groupWithin (parent : Entry) : UInt32 :=
  if hasBit parent.mode groupBit then parent.group else 0

/-- A new directory in a directory. -/
def newDirectory (parent : Entry) (mode : UInt32) : Entry :=
  directory (newMode mode ||| (parent.mode &&& groupBit)) 0 (groupWithin parent)

/-- A new file in a directory. -/
def newFile (parent : Entry) (content : String) : Entry :=
  file (0o666 &&& ~~~creationMask) 0 (groupWithin parent) content

/-! ## Owners -/

/-- The number of a user or a group that stands for the one there is. -/
def unchanged : UInt32 := 0xFFFFFFFF

/-- The owner after a change. -/
def changed (asked held : UInt32) : UInt32 :=
  if asked = unchanged then held else asked

/-- The mode of a file after a change of its owner: it runs no more as the owner, nor as the
group if the group could run it. -/
def modeAfterChange (mode : UInt32) : UInt32 :=
  mode &&& ~~~userBit &&& (if hasBit mode groupRuns then ~~~groupBit else modeBits)

/-- The entry with another owner. -/
def withOwner (user group : UInt32) : Entry → Entry
  | directory mode heldUser heldGroup =>
      directory mode (changed user heldUser) (changed group heldGroup)
  | file mode heldUser heldGroup content =>
      file (modeAfterChange mode) (changed user heldUser) (changed group heldGroup) content

end Entry
end ExportVolumes
