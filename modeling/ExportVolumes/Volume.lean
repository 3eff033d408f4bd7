import ExportVolumes.Claim
import ExportVolumes.StorageClass

namespace ExportVolumes

/-!
Descriptors of provisioned volumes.  A descriptor is all that outlives provisioning: it is
handed back when the volume is to be released.
-/

/-- Where a volume is exported. -/
structure VolumeSource where
  server : String
  path : String
  readOnly : Bool := false
  deriving DecidableEq, Repr

/-- The descriptor of a provisioned volume. -/
structure Volume where
  name : String
  storageClassName : Option String := none
  reclaimPolicy : ReclaimPolicy := .delete
  accessModes : List AccessMode := []
  mountOptions : List String := []
  capacity : Option String := none
  nfs : VolumeSource
  deriving DecidableEq, Repr

end ExportVolumes
