import ExportVolumes.Effect
import ExportVolumes.Manifest.Yaml
import ExportVolumes.Registry

namespace ExportVolumes

/-!
What a process does before it can provision: finding and reading its configuration and its
storage classes.

A configuration comes from one file, or from none.  The environment overrides the file and
flags override the environment, each field on its own.
-/

/-- The variables of the environment of a process. -/
abbrev Environment := String → Option String

namespace Environment

/-- What an environment gives for the fields of a configuration. -/
def fields (environment : Environment) : Field → Option String :=
  fun field => environment field.environmentName

end Environment

namespace Configuration

/-- The variable that names a configuration file. -/
def pathVariable : String := "NFS_PROVISIONER_CONFIG"

/-- The configuration file of the working directory. -/
def localPath : String := "./nfs-provisioner.yaml"

/-- The configuration file of the system. -/
def systemPath : String := "/etc/nfs-subdir-provisioner/config.yaml"

/-- Where a configuration file is looked for, in order. -/
def searchPaths (environment : Environment) : List String :=
  (environment pathVariable).toList ++ [localPath, systemPath]

/-- The first path that there is something at. -/
def firstPresent : List String → Program (Option String)
  | [] => pure none
  | path :: paths => do
      if ← Program.isPresent path then return some path else firstPresent paths

/-- Read a configuration from a file. -/
def ofFile (path : String) : Program (Except ConfigurationError Configuration) := do
  match ← Program.readFile path with
  | .error reason => return .error (.load path (.unreadable reason))
  | .ok text =>
      match ofYaml? text with
      | none => return .error (.load path .malformed)
      | some configuration => return .ok configuration

/-- The file that a configuration is read from: the one that is asked for, or the first one that
is there. -/
def sourceFile (asked : Option String) (environment : Environment) : Program (Option String) :=
  match asked with
  | some path => pure (some path)
  | none => firstPresent (searchPaths environment)

/-- Read the file, then let the environment and at last the flags override it. -/
def gather (asked : Option String) (environment : Environment) (flags : Field → Option String) :
    Program (Except ConfigurationError Configuration) := do
  let file ← sourceFile asked environment
  let read ←
    match file with
    | some path => ofFile path
    | none => pure (.ok {})
  return read.map fun configuration =>
    (configuration.overriddenBy environment.fields).overriddenBy flags

end Configuration

namespace Registry

/-- The classes in a file that a provisioner serves; none without a file. -/
def ofFile (path : Option String) (provisionerName : String) :
    Program (Except LoadFault Registry) :=
  match path with
  | none => pure (.ok {})
  | some path => do
      match ← Program.readFile path with
      | .error reason => return .error (.unreadable reason)
      | .ok text =>
          match StorageClass.listOfYaml? text with
          | none => return .error .malformed
          | some classes => return .ok (ofClasses classes provisionerName)

end Registry

namespace Program

/-- A program whose look-ups of storage classes are answered by a registry. -/
def serving (registry : Registry) : Program α → Program α
  | done result => done result
  | ask (.findClass name) next => (next (registry.find name)).serving registry
  | ask effect next => ask effect fun answer => (next answer).serving registry

/-- A program without the notices that are not heeded. -/
def heeding (heeds : Notice → Bool) : Program α → Program α
  | done result => done result
  | ask (.notify notice) next =>
      if heeds notice then ask (.notify notice) fun answer => (next answer).heeding heeds
      else (next ()).heeding heeds
  | ask effect next => ask effect fun answer => (next answer).heeding heeds

end Program

end ExportVolumes
