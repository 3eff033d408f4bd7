import ExportVolumes.Json
import ExportVolumes.Manifest.Reading

namespace ExportVolumes

/-!
The JSON forms of claims, storage classes, volumes, requests, configurations and settings.
An option without a value is left out of the object.
-/

namespace Json

/-- The field of an option, when it has a value. -/
def optionalField (name : String) (value : Option Json) : List (String × Json) :=
  match value with
  | none => []
  | some value => [(name, value)]

end Json

/-- The JSON form of a label selector. -/
def LabelSelector.toJson (selector : LabelSelector) : Json :=
  .object [("matchLabels", .ofDictionary selector.matchLabels)]

/-- The JSON form of a list of access modes. -/
def AccessMode.listToJson (modes : List AccessMode) : Json :=
  .ofTexts (modes.map AccessMode.word)

/-- The JSON form of the metadata of a claim. -/
def ClaimMetadata.toJson (metadata : ClaimMetadata) : Json :=
  .object
    [("name", .text metadata.name), ("namespace", .text metadata.namespaceName),
     ("labels", .ofDictionary metadata.labels),
     ("annotations", .ofDictionary metadata.annotations)]

/-- The JSON form of the specification of a claim. -/
def ClaimSpec.toJson (spec : ClaimSpec) : Json :=
  .object <|
    Json.optionalField "selector" (spec.selector.map LabelSelector.toJson) ++
      [("accessModes", AccessMode.listToJson spec.accessModes)] ++
      Json.optionalField "storageRequest" (spec.storageRequest.map .text) ++
      Json.optionalField "storageClassName" (spec.storageClassName.map .text)

/-- The JSON form of a claim. -/
def Claim.toJson (claim : Claim) : Json :=
  .object [("metadata", claim.metadata.toJson), ("spec", claim.spec.toJson)]

/-- The JSON form of a storage class. -/
def StorageClass.toJson (sc : StorageClass) : Json :=
  .object
    [("name", .text sc.name), ("provisioner", .text sc.provisioner),
     ("parameters", .ofDictionary sc.parameters), ("reclaimPolicy", .text sc.reclaimPolicy.word),
     ("mountOptions", .ofTexts sc.mountOptions)]

/-- The JSON form of the place of a volume. -/
def VolumeSource.toJson (source : VolumeSource) : Json :=
  .object
    [("server", .text source.server), ("path", .text source.path),
     ("readOnly", .bool source.readOnly)]

/-- The JSON form of the descriptor of a volume. -/
def Volume.toJson (volume : Volume) : Json :=
  .object <|
    ("name", .text volume.name) ::
      Json.optionalField "storageClassName" (volume.storageClassName.map .text) ++
      [("reclaimPolicy", .text volume.reclaimPolicy.word),
       ("accessModes", AccessMode.listToJson volume.accessModes),
       ("mountOptions", .ofTexts volume.mountOptions)] ++
      Json.optionalField "capacity" (volume.capacity.map .text) ++
      [("nfs", volume.nfs.toJson)]

/-- The JSON form of a request. -/
def Request.toJson (request : Request) : Json :=
  .object <|
    ("claim", request.claim.toJson) ::
      Json.optionalField "storageClassName" (request.storageClassName.map .text) ++
      Json.optionalField "volumeName" (request.volumeName.map .text)

/-- The JSON form of a configuration. -/
def Configuration.toJson (configuration : Configuration) : Json :=
  .object <|
    Field.all.map (fun field => (field.documentName, .text (configuration.get field)))

/-- The JSON form of settings. -/
def Settings.toJson (settings : Settings) : Json :=
  .object
    [("server", .text settings.server), ("export_path", .text settings.exportPath),
     ("mount_root", .text settings.mountRoot),
     ("provisioner_name", .text settings.provisionerName),
     ("default_mode", .nat settings.defaultMode.toNat),
     ("default_uid", .nat settings.defaultUser.toNat),
     ("default_gid", .nat settings.defaultGroup.toNat),
     ("leader_election", .bool settings.leaderElection)]

end ExportVolumes
