import ExportVolumes.Manifest.Reading
import ExportVolumes.Yaml.Format
import ExportVolumes.Yaml.Printer
import ExportVolumes.Yaml.Reader

namespace ExportVolumes

/-!
Models in YAML: reading of every model from the text of a document, and the text of volumes.
-/

namespace Yaml

/-- Read a model from the text of a document. -/
def readAs? (read : (document : Document) → Node → Option α) (text : String) : Option α :=
  (Document.read? text).bind (fun document => read document document.rootNode)

end Yaml

/-- Read a claim from YAML. -/
def Claim.ofYaml? : String → Option Claim :=
  Yaml.readAs? (fun document => Claim.read? document.format)

/-- Read a storage class from YAML. -/
def StorageClass.ofYaml? : String → Option StorageClass :=
  Yaml.readAs? (fun document => StorageClass.read? document.format)

/-- Read a list of storage classes from YAML. -/
def StorageClass.listOfYaml? : String → Option (List StorageClass) :=
  Yaml.readAs? (fun document => document.format.list? (StorageClass.read? document.format))

/-- Read the descriptor of a volume from YAML. -/
def Volume.ofYaml? : String → Option Volume :=
  Yaml.readAs? (fun document => Volume.read? document.format)

/-- Read a request from YAML. -/
def Request.ofYaml? : String → Option Request :=
  Yaml.readAs? (fun document => Request.read? document.format)

/-- Read a configuration from YAML. -/
def Configuration.ofYaml? : String → Option Configuration :=
  Yaml.readAs? (fun document => Configuration.read? document.format)

/-- The entries of the place of a volume. -/
def VolumeSource.yamlEntries (source : VolumeSource) (indent : Nat) : List Char :=
  Yaml.textEntry indent "server" source.server ++ Yaml.textEntry indent "path" source.path ++
    Yaml.flagEntry indent "readOnly" source.readOnly

/-- The text of a volume in YAML. -/
def Volume.toYaml (volume : Volume) : String :=
  String.ofList <|
    Yaml.textEntry 0 "name" volume.name ++
      Yaml.optionalEntry 0 "storageClassName" volume.storageClassName ++
      Yaml.textEntry 0 "reclaimPolicy" volume.reclaimPolicy.word ++
      Yaml.listEntry 0 "accessModes" (volume.accessModes.map AccessMode.word) ++
      Yaml.listEntry 0 "mountOptions" volume.mountOptions ++
      Yaml.optionalEntry 0 "capacity" volume.capacity ++
      Yaml.mappingEntry 0 "nfs" volume.nfs.yamlEntries

end ExportVolumes
