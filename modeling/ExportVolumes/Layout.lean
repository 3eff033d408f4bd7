import ExportVolumes.Parameter
import ExportVolumes.Path
import ExportVolumes.Template.Expansion

namespace ExportVolumes

/-!
Where volume directories live.

Every volume has one suffix under two roots: the export as its server sees it, and the
mount point of the export in this process.  The suffix is the expanded pattern of the
storage class when that is not empty, and `<namespace>-<claim>-<volume>` otherwise.
-/

/-- The two roots of an export, both clean. -/
structure Layout where
  exportRoot : Path
  mountRoot : Path
  deriving DecidableEq, Repr

/-- The locations of one volume directory: as the server sees it and as this process does. -/
structure VolumePaths where
  serverPath : String
  localPath : String
  deriving DecidableEq, Repr

namespace Layout

/-- The mount point that is used when none is configured. -/
def defaultMountRoot : String := "/persistentvolumes"

/-- What the names of archived directories begin with. -/
def archiveMark : String := "archived-"

/-- The layout of two configured roots. -/
def ofTexts (exportPath mountRoot : String) : Layout :=
  { exportRoot := (Path.ofText exportPath).clean, mountRoot := (Path.ofText mountRoot).clean }

/-- The suffix of a volume without a pattern. -/
def defaultSuffix (metadata : ClaimMetadata) (volumeName : String) : String :=
  metadata.namespaceName ++ "-" ++ metadata.name ++ "-" ++ volumeName

/-- The suffix of a volume. -/
def suffix (metadata : ClaimMetadata) (volumeName : String) (pattern : Option String) : String :=
  match pattern with
  | none => defaultSuffix metadata volumeName
  | some pattern =>
      let expanded := Template.expand pattern metadata
      if expanded.isEmpty then defaultSuffix metadata volumeName else expanded

/-- The locations of a new volume.  A suffix whose `..` climb above its start is refused. -/
def build (layout : Layout) (metadata : ClaimMetadata) (volumeName : String)
    (pattern : Option String) : Except ParameterError VolumePaths :=
  let suffix := suffix metadata volumeName pattern
  match (Path.ofText suffix).climbFreeNames? with
  | none => .error (.escapesRoot suffix)
  | some names =>
      .ok { serverPath := (layout.exportRoot.extend names).text
            localPath := (layout.mountRoot.extend names).text }

/-- The text after `start`, if it begins with it. -/
def dropPrefix? (start text : String) : Option String :=
  (Pattern.dropLiteral? start.toList text.toList).map String.ofList

/-- Put `replacement` in place of the first occurrence of `part`. -/
def replaceFirst (part replacement : List Char) : List Char → List Char
  | [] => if part = [] then replacement else []
  | c :: text =>
      match Pattern.dropLiteral? part (c :: text) with
      | some after => replacement ++ after
      | none => c :: replaceFirst part replacement text

/-- The text without leading slashes. -/
def dropSlashes (text : String) : String :=
  String.ofList (text.toList.dropWhile (· = '/'))

/-- The suffix of a server path below the export, when it lies there. -/
def belowExport? (layout : Layout) (serverPath : String) : Option String :=
  let root := layout.exportRoot.text
  match dropPrefix? root serverPath with
  | none => none
  | some rest =>
      if root = "/" ∨ rest.isEmpty ∨ rest.toList.head? = some '/' then some (dropSlashes rest)
      else none

/-- The location in this process of a server path.  Below the export it is the cleaned path of
the same suffix under the mount root; elsewhere the first mention of the export in the path
is replaced by the mount root and nothing else is changed. -/
def localPathFor (layout : Layout) (serverPath : String) : String :=
  match layout.belowExport? serverPath with
  | some suffix => (layout.mountRoot.join (Path.ofText suffix)).clean.text
  | none =>
      String.ofList <|
        replaceFirst layout.exportRoot.text.toList layout.mountRoot.text.toList serverPath.toList

/-- Where a released volume is moved when it is archived: beside the volumes that lie directly
below the mount root, under the marked last name of its path. -/
def archivePathFor (layout : Layout) (serverPath : String) : String :=
  let name := (Path.ofText serverPath).fileName?.getD ""
  (layout.mountRoot.push (archiveMark ++ name)).text

end Layout
end ExportVolumes
