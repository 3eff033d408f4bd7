import ExportVolumes.Dictionary

namespace ExportVolumes

/-!
Claims for volumes: the identity, labels and annotations of a claim, and the parts of its
specification that are carried over to the volume.
-/

/-- How a volume may be mounted. -/
inductive AccessMode where
  | readWriteOnce
  | readOnlyMany
  | readWriteMany
  | readWriteOncePod
  deriving DecidableEq, Repr

namespace AccessMode

/-- The word that names an access mode. -/
def word : AccessMode → String
  | readWriteOnce => "ReadWriteOnce"
  | readOnlyMany => "ReadOnlyMany"
  | readWriteMany => "ReadWriteMany"
  | readWriteOncePod => "ReadWriteOncePod"

/-- The access mode that a word names. -/
def ofWord? (text : String) : Option AccessMode :=
  [readWriteOnce, readOnlyMany, readWriteMany, readWriteOncePod].find? (·.word = text)

end AccessMode

/-- A selector of pre-existing volumes by label.  Volumes made on demand never honour one. -/
structure LabelSelector where
  matchLabels : Dictionary String := .empty
  deriving DecidableEq, Repr

/-- The metadata of a claim. -/
structure ClaimMetadata where
  name : String
  namespaceName : String
  labels : Dictionary String := .empty
  annotations : Dictionary String := .empty
  deriving DecidableEq, Repr

/-- The specification of a claim. -/
structure ClaimSpec where
  selector : Option LabelSelector := none
  accessModes : List AccessMode := []
  storageRequest : Option String := none
  storageClassName : Option String := none
  deriving DecidableEq, Repr

/-- A claim for a volume. -/
structure Claim where
  metadata : ClaimMetadata
  spec : ClaimSpec := {}
  deriving DecidableEq, Repr

namespace ClaimMetadata

/-- The plain fields of a claim that a path pattern may name. -/
def field? (metadata : ClaimMetadata) (key : String) : Option String :=
  if key = "name" then some metadata.name
  else if key = "namespace" then some metadata.namespaceName
  else none

/-- The annotation under `key` when it holds a non-empty text. -/
def annotationText? (metadata : ClaimMetadata) (key : String) : Option String :=
  (metadata.annotations.get? key).filter (fun value => !value.isEmpty)

end ClaimMetadata

namespace Claim

/-- A claim with nothing but its identity. -/
def named (namespaceName name : String) : Claim :=
  { metadata := { name, namespaceName } }

/-- The claim with one more label. -/
def withLabel (claim : Claim) (key value : String) : Claim :=
  { claim with metadata.labels := claim.metadata.labels.insert key value }

/-- The claim with one more annotation. -/
def withAnnotation (claim : Claim) (key value : String) : Claim :=
  { claim with metadata.annotations := claim.metadata.annotations.insert key value }

/-- Whether the claim asks for a pre-existing volume. -/
def hasSelector (claim : Claim) : Bool :=
  claim.spec.selector.isSome

end Claim
end ExportVolumes
