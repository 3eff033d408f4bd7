import ExportVolumes.Configuration
import ExportVolumes.Deletion
import ExportVolumes.Effect
import ExportVolumes.Volume

namespace ExportVolumes

/-!
Provisioning and deletion of volumes.

A volume is a directory below the mount root.  An unusable mode is refused before anything is
done; an unusable owner shows only when the directory already exists, and gives way to the
default owner.  Deletion of a directory that is already gone succeeds.
-/

/-- Everything that is known about a claim that waits for its volume. -/
structure Order where
  claim : Claim
  volumeName : String
  storageClass : StorageClass
  deriving DecidableEq, Repr

/-- Why a volume was not provisioned or not deleted. -/
inductive ProvisionerError where
  | unsupportedSelector
  | invalidParameter (cause : ParameterError)
  | classLookup (cause : LookupError)
  | filesystem (cause : FilesystemError)
  deriving DecidableEq, Repr

/-- The wording of a failed provisioning or deletion. -/
def ProvisionerError.message : ProvisionerError → String
  | .unsupportedSelector => "claim Selector is not supported"
  | .invalidParameter cause => "invalid parameter: " ++ cause.message
  | .classLookup cause => "storage class lookup failed: " ++ cause.message
  | .filesystem cause => cause.message

/-- Where a new volume lives, and with which mode. -/
structure Site where
  paths : VolumePaths
  mode : UInt32
  deriving DecidableEq, Repr

namespace Settings

/-- The mode of a volume directory: that of a non-empty annotation, or the default. -/
def modeFor (settings : Settings) (metadata : ClaimMetadata) : Except ParameterError UInt32 :=
  match metadata.annotationText? Parameter.modeAnnotation with
  | some value => Parameter.readMode value
  | none => .ok settings.defaultMode

/-- Decide where an order is to be filled, before anything is done. -/
def site (settings : Settings) (order : Order) : Except ProvisionerError Site :=
  if order.claim.hasSelector then .error .unsupportedSelector
  else
    let metadata := order.claim.metadata
    match settings.layout.build metadata order.volumeName order.storageClass.pathPattern? with
    | .error cause => .error (.invalidParameter cause)
    | .ok paths =>
        match settings.modeFor metadata with
        | .error cause => .error (.invalidParameter cause)
        | .ok mode => .ok { paths, mode }

/-- An owner id: that of a non-empty annotation when it is usable, or the default.  An unusable
annotation is reported. -/
def ownerId (order : Order) (key : String) (default : UInt32) : Program UInt32 :=
  match order.claim.metadata.annotationText? key with
  | none => pure default
  | some value =>
      match Parameter.readId value with
      | .ok id => pure id
      | .error cause => do
          Program.notify (.ownerFallback order.volumeName key value cause.message default)
          Program.publish (.ownershipFallback order.volumeName key value cause.message)
          return default

/-- The descriptor of a volume. -/
def volume (settings : Settings) (order : Order) (site : Site) : Volume where
  name := order.volumeName
  storageClassName :=
    if order.storageClass.name.isEmpty then none else some order.storageClass.name
  reclaimPolicy := order.storageClass.reclaimPolicy
  accessModes := order.claim.spec.accessModes
  mountOptions := order.storageClass.mountOptions
  capacity := order.claim.spec.storageRequest
  nfs := { server := settings.server, path := site.paths.serverPath, readOnly := false }

/-- Make the directory of a volume and describe the volume.  The mode is set once more after
the directory was made, as making it may leave some of the mode out. -/
def provision (settings : Settings) (order : Order) :
    Program (Except ProvisionerError Volume) :=
  match settings.site order with
  | .error cause => pure (.error cause)
  | .ok site => do
      let directory := site.paths.localPath
      match ← Program.call (.createDirectories directory site.mode) with
      | .error cause => return .error (.filesystem cause)
      | .ok _ =>
          match ← Program.call (.setMode directory site.mode) with
          | .error cause => return .error (.filesystem cause)
          | .ok _ =>
              let user ← ownerId order Parameter.userAnnotation settings.defaultUser
              let group ← ownerId order Parameter.groupAnnotation settings.defaultGroup
              match ← Program.call (.setOwner directory user group) with
              | .error cause => return .error (.filesystem cause)
              | .ok _ =>
                  let metadata := order.claim.metadata
                  Program.publish <|
                    .volumeProvisioned order.volumeName metadata.name metadata.namespaceName
                      site.paths.serverPath site.mode user group
                  return .ok (settings.volume order site)

/-- The storage class that a volume names. -/
def classOf (volume : Volume) : Program (Except LookupError StorageClass) :=
  match volume.storageClassName with
  | none => pure (.error .missingClassName)
  | some name => if name.isEmpty then pure (.error .missingClassName) else Program.findClass name

/-- Carry out what the policy of its class says about a directory that exists. -/
def release (settings : Settings) (volume : Volume) (directory : String) :
    DeletionAction → Program (Except ProvisionerError Unit)
  | .remove => do
      match ← Program.call (.removeTree directory) with
      | .error cause => return .error (.filesystem cause)
      | .ok _ =>
          Program.publish (.volumeDeleted volume.name volume.nfs.path)
          return .ok ()
  | .keep => do
      Program.publish (.volumeRetained volume.name volume.nfs.path)
      return .ok ()
  | .archive => do
      let target := settings.layout.archivePathFor volume.nfs.path
      match ← Program.call (.rename directory target) with
      | .error cause => return .error (.filesystem cause)
      | .ok _ =>
          Program.publish (.volumeArchived volume.name volume.nfs.path target)
          return .ok ()

/-- Release a volume as the policy of its class says. -/
def delete (settings : Settings) (volume : Volume) : Program (Except ProvisionerError Unit) := do
  let directory := settings.layout.localPathFor volume.nfs.path
  match ← Program.call (.pathExists directory) with
  | .error cause => return .error (.filesystem cause)
  | .ok false =>
      Program.notify (.deletionSkipped directory)
      Program.publish (.deletionSkipped volume.name directory)
      return .ok ()
  | .ok true =>
      match ← classOf volume with
      | .error cause => return .error (.classLookup cause)
      | .ok sc =>
          match DeletionPolicy.ofClass sc with
          | .error cause => return .error (.invalidParameter cause)
          | .ok policy => settings.release volume directory policy.action

end Settings
end ExportVolumes
