import ExportVolumes.CommandLine.Arguments
import ExportVolumes.CommandLine.Failure
import ExportVolumes.CommandLine.Log
import ExportVolumes.Text.Quoted

namespace ExportVolumes
namespace CommandLine

/-!
The commands.

`run` is a program: nothing is printed before it ends, and all that it does to the world are
its effects.  Provisioning and deletion first read all they need, so a command that fails
before the provisioner begins has changed nothing.
-/

/-- What a command leaves behind: its exit code, and the texts on standard output and on standard
error. -/
structure Outcome where
  exitCode : UInt32 := 0
  output : String := ""
  errors : String := ""
  deriving DecidableEq, Repr

/-- The outcome of a failed command. -/
def Outcome.ofFailure (failure : Failure) (output : String := "") : Outcome :=
  { exitCode := 1, output, errors := failure.text }

/-! ## Provisioning and deletion -/

/-- A provisioner that is ready to work. -/
structure Ready where
  settings : Settings
  registry : Registry

/-- Get ready: the settings first, then the classes.  What goes wrong is reported in the log. -/
def startUp (invocation : Invocation) (environment : Environment) : Program (Option Ready) := do
  match ← Configuration.gather invocation.configurationPath environment invocation.fields with
  | .error cause =>
      Program.notify (.startupFailed cause.message)
      return none
  | .ok configuration =>
      match configuration.settings with
      | .error cause =>
          Program.notify (.startupFailed cause.message)
          return none
      | .ok settings =>
          match ← Registry.ofFile invocation.classesPath settings.provisionerName with
          | .ok registry => return some { settings, registry }
          | .error fault =>
              let path := Text.quoted (invocation.classesPath.getD "")
              Program.notify <| .startupFailed
                ("Failed to load storage classes from " ++ path ++ ": " ++ fault.message)
              return none

/-- Read a model from a file. -/
def readModel (what path : String) (read? : String → Option α) :
    Program (Except Failure α) := do
  match ← Program.readFile path with
  | .error fault =>
      return .error
        { context := "Failed to read " ++ what ++ " " ++ Text.quoted path, causes := [fault] }
  | .ok text =>
      match read? text with
      | some value => return .ok value
      | none =>
          return .error
            { context := "Invalid " ++ what ++ " " ++ Text.quoted path
              causes := [LoadFault.malformed.message] }

/-- The class that a request is provisioned from. -/
def classFor (registry : Registry) (request : Request) : Except Failure StorageClass :=
  match request.className? with
  | none => .error { context := "Request names no storage class" }
  | some name =>
      match registry.get? name with
      | some sc => .ok sc
      | none =>
          .error
            { context := "Storage class " ++ name ++ " is not served by this provisioner" }

/-- The name of the volume of a request: the one asked for, or a fresh one. -/
def volumeName (request : Request) : Program String :=
  match request.chosenName? with
  | some name => pure name
  | none => do return "pvc-" ++ (← Program.freshId)

/-- Hand out the descriptor of a new volume, into a file or on standard output. -/
def handOut (volume : Volume) (output : Option String) : Program Outcome := do
  match output with
  | none =>
      return { output := volume.toYaml, errors := "✓ Provisioned " ++ volume.name ++ "\n" }
  | some path =>
      match ← Program.writeFile path volume.toYaml with
      | .error fault =>
          return Outcome.ofFailure
            { context := "Failed to write volume to " ++ Text.quoted path, causes := [fault] }
      | .ok () =>
          return { errors := "✓ Provisioned " ++ volume.name ++ " (" ++ path ++ ")\n" }

/-- Provision a volume for the request in a file. -/
def provision (ready : Ready) (requestPath : String) (output : Option String) :
    Program Outcome := do
  match ← readModel "request" requestPath Request.ofYaml? with
  | .error failure => return Outcome.ofFailure failure
  | .ok request =>
      match classFor ready.registry request with
      | .error failure => return Outcome.ofFailure failure
      | .ok storageClass =>
          let volumeName ← volumeName request
          let order := { claim := request.claim, volumeName, storageClass }
          match ← (ready.settings.provision order).serving ready.registry with
          | .error cause =>
              return Outcome.ofFailure
                { context := "Provisioning failed", causes := provisionerCauses cause }
          | .ok volume => handOut volume output

/-- Release the volume whose descriptor is in a file. -/
def delete (ready : Ready) (volumePath : String) : Program Outcome := do
  match ← readModel "volume" volumePath Volume.ofYaml? with
  | .error failure => return Outcome.ofFailure failure
  | .ok volume =>
      match ← (ready.settings.delete volume).serving ready.registry with
      | .error cause =>
          return Outcome.ofFailure
            { context := "Failed to delete volume " ++ volume.name
              causes := provisionerCauses cause }
      | .ok () => return { output := "✓ Volume " ++ volume.name ++ " released\n" }

/-! ## Configuration -/

/-- Stands for a text that is empty or missing. -/
def notSet : String := "(not set)"

/-- A text, or the mark of an empty one. -/
def orNotSet (text : String) : String :=
  if text.isEmpty then notSet else text

/-- Lines with their ends. -/
def lines (texts : List String) : String :=
  String.join (texts.map (· ++ "\n"))

/-- Where a configuration is looked for. -/
def pathLines (asked : Option String) (environment : Environment) : List String :=
  ["Configuration discovery paths:",
   "  1. --config flag: " ++ asked.getD notSet,
   "  2. " ++ Configuration.pathVariable ++ ": " ++
     (environment Configuration.pathVariable).getD notSet,
   "  3. " ++ Configuration.localPath,
   "  4. " ++ Configuration.systemPath,
   ""]

/-- What a configuration says, and what is wrong with it. -/
def configurationLines (configuration : Configuration) : List String :=
  ["NFS Export:",
   "  Server: " ++ orNotSet configuration.server,
   "  Path: " ++ orNotSet configuration.path,
   "  Mount root: " ++ orNotSet configuration.mountRoot,
   "",
   "Provisioner:",
   "  Name: " ++ orNotSet configuration.provisionerName,
   "  Leader election: " ++ orNotSet configuration.leaderElection,
   "",
   "Directory Defaults:",
   "  Mode: " ++ orNotSet configuration.defaultMode,
   "  UID: " ++ orNotSet configuration.defaultUser,
   "  GID: " ++ orNotSet configuration.defaultGroup,
   ""] ++
    match configuration.settings with
    | .error cause => ["⚠ " ++ cause.message]
    | .ok _ => []

/-- The failure to gather a configuration. -/
def gatherFailure (cause : ConfigurationError) : Failure :=
  { context := "Failed to load configuration", causes := configurationCauses cause }

/-- Show the configuration that is in effect. -/
def showConfiguration (invocation : Invocation) (environment : Environment) (paths : Bool) :
    Program Outcome := do
  match ← Configuration.gather invocation.configurationPath environment invocation.fields with
  | .error cause => return Outcome.ofFailure (gatherFailure cause)
  | .ok configuration =>
      let head := if paths then pathLines invocation.configurationPath environment else []
      return { output := lines (head ++ configurationLines configuration) }

/-- Check the configuration that is in effect, or that of a file. -/
def validateConfiguration (invocation : Invocation) (environment : Environment)
    (file : Option String) : Program Outcome := do
  let begun := lines ["Validating configuration..."]
  let asked := file.or invocation.configurationPath
  match ← Configuration.gather asked environment invocation.fields with
  | .error cause => return Outcome.ofFailure (gatherFailure cause) begun
  | .ok configuration =>
      match configuration.settings with
      | .error cause =>
          let failure :=
            { context := "Configuration validation failed", causes := configurationCauses cause }
          return Outcome.ofFailure failure begun
      | .ok _ => return { output := begun ++ lines ["✓ Configuration is valid"] }

/-! ## Running -/

/-- Run a command once the log is set up. -/
def perform (invocation : Invocation) (environment : Environment) : Program Outcome := do
  match invocation.command with
  | none => return { exitCode := 1, errors := "No command specified. Use --help for usage.\n" }
  | some (.showConfiguration paths) => showConfiguration invocation environment paths
  | some (.validateConfiguration file) => validateConfiguration invocation environment file
  | some (.provision request output) =>
      match ← startUp invocation environment with
      | none => return { exitCode := 1 }
      | some ready => provision ready request output
  | some (.delete volume) =>
      match ← startUp invocation environment with
      | none => return { exitCode := 1 }
      | some ready => delete ready volume

/-- Run an invocation.  A log filter that cannot be used fails every command. -/
def Invocation.run (invocation : Invocation) (environment : Environment) : Program Outcome :=
  match chosenThreshold environment invocation.logLevel with
  | .error complaint =>
      pure <| Outcome.ofFailure
        { context := "Failed to create log filter", causes := [complaint, complaint] }
  | .ok threshold => (perform invocation environment).heeding (heeds threshold)

/-- The name and the version of the program or of one of its commands. -/
def versionText (place : Place) : String :=
  "-".intercalate ("nfs-subdir-provisioner" :: place.words) ++ " 0.4.0\n"

/-- How the program is called. -/
def usageText : String :=
  lines
    ["Usage: nfs-subdir-provisioner [OPTIONS] [COMMAND]",
     "",
     "Commands:",
     "  provision --request FILE [--output FILE]  Provision a volume for a claim",
     "  delete --volume FILE                      Delete a provisioned volume",
     "  config show [--paths]                     Show effective configuration",
     "  config validate [FILE]                    Validate configuration"]

/-- What is said of arguments that cannot be used. -/
def ArgumentError.message : ArgumentError → String
  | .unexpected argument => "error: unexpected argument '" ++ argument ++ "' found"
  | .missingValue option => "error: a value is required for '--" ++ option.long ++ "'"
  | .emptyPath option => "error: a value is required for '--" ++ option.long ++ "'"
  | .repeated option =>
      "error: the argument '--" ++ option.long ++ "' cannot be used multiple times"
  | .missingOption option => "error: the argument '--" ++ option.long ++ "' was not provided"
  | .missingCommand => "error: a command is required"

/-- Run the program on its arguments. -/
def run (environment : Environment) (arguments : List String) : Program Outcome :=
  match Invocation.ofArguments environment arguments with
  | .error (.information .help) => pure { output := usageText }
  | .error (.information (.version place)) => pure { output := versionText place }
  | .error (.error error) => pure { exitCode := 2, errors := lines [error.message] }
  | .ok invocation => invocation.run environment

end CommandLine
end ExportVolumes
