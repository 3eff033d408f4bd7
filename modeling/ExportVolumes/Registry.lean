import ExportVolumes.StorageClass

namespace ExportVolumes

/-!
The storage classes that a provisioner serves, by name.
-/

/-- Storage classes by name. -/
structure Registry where
  classes : Dictionary StorageClass := .empty
  deriving DecidableEq, Repr

namespace Registry

/-- Enter a class, in place of any other of its name. -/
def insert (registry : Registry) (sc : StorageClass) : Registry :=
  ⟨registry.classes.insert sc.name sc⟩

/-- Whether a provisioner serves a class: one that names it, or that names none. -/
def serves (provisionerName : String) (sc : StorageClass) : Bool :=
  sc.provisioner.isEmpty || sc.provisioner = provisionerName

/-- The classes out of a list that a provisioner serves.  Of classes with one name the last is
kept. -/
def ofClasses (classes : List StorageClass) (provisionerName : String) : Registry :=
  (classes.filter (serves provisionerName)).foldl insert {}

/-- The class of a name. -/
def get? (registry : Registry) (name : String) : Option StorageClass :=
  registry.classes.get? name

/-- The number of classes. -/
def size (registry : Registry) : Nat :=
  registry.classes.size

/-- Look a class up by the name that a volume gives. -/
def find (registry : Registry) (name : String) : Except LookupError StorageClass :=
  if name.isEmpty then .error .missingClassName
  else
    match registry.get? name with
    | some sc => .ok sc
    | none => .error (.notFound name)

end Registry
end ExportVolumes
