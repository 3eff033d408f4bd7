import ExportVolumes.Dictionary

namespace ExportVolumes

/-!
Storage classes: named sets of parameters that steer how volumes are laid out and what
becomes of them when they are released.
-/

/-- The reclaim policy that is copied onto volumes. -/
inductive ReclaimPolicy where
  | delete
  | retain
  deriving DecidableEq, Repr

namespace ReclaimPolicy

/-- The word that names a reclaim policy. -/
def word : ReclaimPolicy → String
  | delete => "Delete"
  | retain => "Retain"

/-- The reclaim policy that a word names. -/
def ofWord? (text : String) : Option ReclaimPolicy :=
  [delete, retain].find? (·.word = text)

end ReclaimPolicy

/-- A storage class. -/
structure StorageClass where
  name : String
  /-- The provisioner that serves the class; empty for a class that any one may serve. -/
  provisioner : String := ""
  parameters : Dictionary String := .empty
  reclaimPolicy : ReclaimPolicy := .delete
  mountOptions : List String := []
  deriving DecidableEq, Repr

namespace StorageClass

/-- The class with one more parameter. -/
def withParameter (sc : StorageClass) (key value : String) : StorageClass :=
  { sc with parameters := sc.parameters.insert key value }

/-- The pattern of volume directories. -/
def pathPattern? (sc : StorageClass) : Option String :=
  sc.parameters.get? "pathPattern"

/-- What the class says to do with a directory on deletion. -/
def onDelete? (sc : StorageClass) : Option String :=
  sc.parameters.get? "onDelete"

/-- Whether the class says to archive a directory instead of deleting it. -/
def archiveOnDelete? (sc : StorageClass) : Option String :=
  sc.parameters.get? "archiveOnDelete"

end StorageClass

/-- Why no storage class was found for a volume. -/
inductive LookupError where
  | missingClassName
  | notFound (name : String)
  | unavailable (reason : String)
  deriving DecidableEq, Repr

/-- The wording of a failed lookup. -/
def LookupError.message : LookupError → String
  | .missingClassName => "volume has no storage class"
  | .notFound name => "storage class " ++ name ++ " not found"
  | .unavailable reason => "storage class lookup unavailable: " ++ reason

end ExportVolumes
