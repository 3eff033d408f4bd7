import ExportVolumes.Layout

namespace ExportVolumes

/-!
Process-wide configuration.

`Configuration` holds the raw texts of a configuration file, of the environment and of
command line flags; `Settings` is the validated form that provisioning works with.
-/

/-- The fields of a configuration. -/
inductive Field where
  | server
  | path
  | mountRoot
  | provisionerName
  | defaultMode
  | defaultUser
  | defaultGroup
  | leaderElection
  deriving DecidableEq, Repr

/-- The environment variable that sets a field. -/
def Field.environmentName : Field → String
  | .server => "NFS_SERVER"
  | .path => "NFS_PATH"
  | .mountRoot => "NFS_MOUNT_ROOT"
  | .provisionerName => "PROVISIONER_NAME"
  | .defaultMode => "NFS_DEFAULT_MODE"
  | .defaultUser => "NFS_DEFAULT_UID"
  | .defaultGroup => "NFS_DEFAULT_GID"
  | .leaderElection => "ENABLE_LEADER_ELECTION"

/-- Every field. -/
def Field.all : List Field :=
  [.server, .path, .mountRoot, .provisionerName, .defaultMode, .defaultUser, .defaultGroup,
    .leaderElection]

/-- A configuration as it is written down. -/
structure Configuration where
  server : String := ""
  path : String := ""
  mountRoot : String := Layout.defaultMountRoot
  provisionerName : String := ""
  defaultMode : String := ""
  defaultUser : String := ""
  defaultGroup : String := ""
  leaderElection : String := ""
  deriving DecidableEq, Repr

/-- A validated configuration. -/
structure Settings where
  server : String
  exportPath : String
  mountRoot : String
  provisionerName : String
  defaultMode : UInt32
  defaultUser : UInt32
  defaultGroup : UInt32
  leaderElection : Bool
  deriving DecidableEq, Repr

/-- Why a configuration file could not be loaded. -/
inductive LoadFault where
  | unreadable (reason : String)
  | malformed
  deriving DecidableEq, Repr

/-- Why there are no settings. -/
inductive ConfigurationError where
  | missing (field : Field)
  | invalid (field : Field) (cause : ParameterError)
  | load (path : String) (fault : LoadFault)
  deriving DecidableEq, Repr

/-- The wording of a load fault.  The reason why a file is malformed is not worded: it is marked
by `<yaml>`. -/
def LoadFault.message : LoadFault → String
  | .unreadable reason => reason
  | .malformed => "<yaml>"

/-- The wording of a configuration error. -/
def ConfigurationError.message : ConfigurationError → String
  | .missing field => field.environmentName ++ " not set"
  | .invalid field cause => "failed to parse " ++ field.environmentName ++ ": " ++ cause.message
  | .load path fault => "failed to load configuration from " ++ path ++ ": " ++ fault.message

namespace Configuration

/-- The text of a field. -/
def get (configuration : Configuration) : Field → String
  | .server => configuration.server
  | .path => configuration.path
  | .mountRoot => configuration.mountRoot
  | .provisionerName => configuration.provisionerName
  | .defaultMode => configuration.defaultMode
  | .defaultUser => configuration.defaultUser
  | .defaultGroup => configuration.defaultGroup
  | .leaderElection => configuration.leaderElection

/-- The text of a source unless it is missing or empty. -/
def chosen (source : Option String) (otherwise : String) : String :=
  (source.filter (fun text => !text.isEmpty)).getD otherwise

/-- Override each field where the source gives a non-empty text for it. -/
def overriddenBy (configuration : Configuration) (source : Field → Option String) :
    Configuration where
  server := chosen (source .server) configuration.server
  path := chosen (source .path) configuration.path
  mountRoot := chosen (source .mountRoot) configuration.mountRoot
  provisionerName := chosen (source .provisionerName) configuration.provisionerName
  defaultMode := chosen (source .defaultMode) configuration.defaultMode
  defaultUser := chosen (source .defaultUser) configuration.defaultUser
  defaultGroup := chosen (source .defaultGroup) configuration.defaultGroup
  leaderElection := chosen (source .leaderElection) configuration.leaderElection

/-- A field that has to be filled. -/
def required (configuration : Configuration) (field : Field) :
    Except ConfigurationError String :=
  let text := configuration.get field
  if text.isEmpty then .error (.missing field) else .ok text

/-- A field read by one of the parameter readers. -/
def parameter (configuration : Configuration) (field : Field)
    (read : String → Except ParameterError α) : Except ConfigurationError α :=
  (read (configuration.get field)).mapError (.invalid field)

/-- The flag of a field that is on when it is empty. -/
def readLeaderElection (text : String) : Except ParameterError Bool :=
  if text.isEmpty then .ok true else Parameter.readFlag text

/-- Validate a configuration.  The first failing field is reported: server, path,
provisioner name, mode, user, group, leader election. -/
def settings (configuration : Configuration) : Except ConfigurationError Settings := do
  let server ← configuration.required .server
  let exportPath ← configuration.required .path
  let provisionerName ← configuration.required .provisionerName
  let defaultMode ← configuration.parameter .defaultMode Parameter.readMode
  let defaultUser ← configuration.parameter .defaultUser Parameter.readId
  let defaultGroup ← configuration.parameter .defaultGroup Parameter.readId
  let leaderElection ← configuration.parameter .leaderElection readLeaderElection
  let mountRoot :=
    if configuration.mountRoot.isEmpty then Layout.defaultMountRoot else configuration.mountRoot
  return { server, exportPath, mountRoot, provisionerName, defaultMode, defaultUser,
           defaultGroup, leaderElection }

end Configuration

/-- The layout that settings describe. -/
def Settings.layout (settings : Settings) : Layout :=
  Layout.ofTexts settings.exportPath settings.mountRoot

end ExportVolumes
