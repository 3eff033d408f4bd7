import ExportVolumes.Configuration
import ExportVolumes.DataFormat
import ExportVolumes.Request
import ExportVolumes.Volume

namespace ExportVolumes

/-!
Reading of claims, storage classes, volumes, requests and configurations from any data format.

Each model is a record.  Fields that it does not know are ignored, and a field that it knows
may be given once.
-/

namespace AccessMode

/-- Read an access mode. -/
def read? (format : DataFormat ν) (value : ν) : Option AccessMode :=
  format.choice? ofWord? value

end AccessMode

namespace ReclaimPolicy

/-- Read a reclaim policy. -/
def read? (format : DataFormat ν) (value : ν) : Option ReclaimPolicy :=
  format.choice? ofWord? value

end ReclaimPolicy

namespace LabelSelector

/-- Read a label selector. -/
def read? (format : DataFormat ν) (value : ν) : Option LabelSelector := do
  let fields ← format.fields? ["matchLabels"] value
  let matchLabels ← DataFormat.defaulted? fields "matchLabels" .empty format.texts?
  return { matchLabels }

end LabelSelector

namespace ClaimMetadata

/-- Read the metadata of a claim. -/
def read? (format : DataFormat ν) (value : ν) : Option ClaimMetadata := do
  let fields ← format.fields? ["name", "namespace", "labels", "annotations"] value
  let name ← DataFormat.required? fields "name" format.text?
  let namespaceName ← DataFormat.required? fields "namespace" format.text?
  let labels ← DataFormat.defaulted? fields "labels" .empty format.texts?
  let annotations ← DataFormat.defaulted? fields "annotations" .empty format.texts?
  return { name, namespaceName, labels, annotations }

end ClaimMetadata

namespace ClaimSpec

/-- Read the specification of a claim. -/
def read? (format : DataFormat ν) (value : ν) : Option ClaimSpec := do
  let fields ←
    format.fields? ["selector", "accessModes", "storageRequest", "storageClassName"] value
  let selector ← format.optional? fields "selector" (LabelSelector.read? format)
  let accessModes ←
    DataFormat.defaulted? fields "accessModes" [] (format.list? (AccessMode.read? format))
  let storageRequest ← format.optional? fields "storageRequest" format.text?
  let storageClassName ← format.optional? fields "storageClassName" format.text?
  return { selector, accessModes, storageRequest, storageClassName }

end ClaimSpec

namespace Claim

/-- Read a claim. -/
def read? (format : DataFormat ν) (value : ν) : Option Claim := do
  let fields ← format.fields? ["metadata", "spec"] value
  let metadata ← DataFormat.required? fields "metadata" (ClaimMetadata.read? format)
  let spec ← DataFormat.defaulted? fields "spec" {} (ClaimSpec.read? format)
  return { metadata, spec }

end Claim

namespace StorageClass

/-- Read a storage class. -/
def read? (format : DataFormat ν) (value : ν) : Option StorageClass := do
  let fields ←
    format.fields? ["name", "provisioner", "parameters", "reclaimPolicy", "mountOptions"] value
  let name ← DataFormat.required? fields "name" format.text?
  let provisioner ← DataFormat.defaulted? fields "provisioner" "" format.text?
  let parameters ← DataFormat.defaulted? fields "parameters" .empty format.texts?
  let reclaimPolicy ←
    DataFormat.defaulted? fields "reclaimPolicy" .delete (ReclaimPolicy.read? format)
  let mountOptions ← DataFormat.defaulted? fields "mountOptions" [] (format.list? format.text?)
  return { name, provisioner, parameters, reclaimPolicy, mountOptions }

end StorageClass

namespace VolumeSource

/-- Read where a volume is exported. -/
def read? (format : DataFormat ν) (value : ν) : Option VolumeSource := do
  let fields ← format.fields? ["server", "path", "readOnly"] value
  let server ← DataFormat.required? fields "server" format.text?
  let path ← DataFormat.required? fields "path" format.text?
  let readOnly ← DataFormat.defaulted? fields "readOnly" false format.flag?
  return { server, path, readOnly }

end VolumeSource

namespace Volume

/-- Read the descriptor of a volume. -/
def read? (format : DataFormat ν) (value : ν) : Option Volume := do
  let fields ←
    format.fields?
      ["name", "storageClassName", "reclaimPolicy", "accessModes", "mountOptions", "capacity",
       "nfs"]
      value
  let name ← DataFormat.required? fields "name" format.text?
  let storageClassName ← format.optional? fields "storageClassName" format.text?
  let reclaimPolicy ←
    DataFormat.defaulted? fields "reclaimPolicy" .delete (ReclaimPolicy.read? format)
  let accessModes ←
    DataFormat.defaulted? fields "accessModes" [] (format.list? (AccessMode.read? format))
  let mountOptions ← DataFormat.defaulted? fields "mountOptions" [] (format.list? format.text?)
  let capacity ← format.optional? fields "capacity" format.text?
  let nfs ← DataFormat.required? fields "nfs" (VolumeSource.read? format)
  return { name, storageClassName, reclaimPolicy, accessModes, mountOptions, capacity, nfs }

end Volume

namespace Request

/-- Read a request. -/
def read? (format : DataFormat ν) (value : ν) : Option Request := do
  let fields ← format.fields? ["claim", "storageClassName", "volumeName"] value
  let claim ← DataFormat.required? fields "claim" (Claim.read? format)
  let storageClassName ← format.optional? fields "storageClassName" format.text?
  let volumeName ← format.optional? fields "volumeName" format.text?
  return { claim, storageClassName, volumeName }

end Request

/-- The name of a field in a configuration file. -/
def Field.documentName : Field → String
  | .server => "server"
  | .path => "path"
  | .mountRoot => "mountRoot"
  | .provisionerName => "provisionerName"
  | .defaultMode => "defaultMode"
  | .defaultUser => "defaultUid"
  | .defaultGroup => "defaultGid"
  | .leaderElection => "leaderElection"

namespace Configuration

/-- Read a configuration.  A field that is left out has its default. -/
def read? (format : DataFormat ν) (value : ν) : Option Configuration := do
  let fields ← format.fields? (Field.all.map Field.documentName) value
  let text? := fun (field : Field) =>
    DataFormat.defaulted? fields field.documentName (({} : Configuration).get field) format.text?
  let server ← text? .server
  let path ← text? .path
  let mountRoot ← text? .mountRoot
  let provisionerName ← text? .provisionerName
  let defaultMode ← text? .defaultMode
  let defaultUser ← text? .defaultUser
  let defaultGroup ← text? .defaultGroup
  let leaderElection ← text? .leaderElection
  return { server, path, mountRoot, provisionerName, defaultMode, defaultUser, defaultGroup,
           leaderElection }

end Configuration

end ExportVolumes
