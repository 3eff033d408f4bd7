import ExportVolumes.Parameter
import ExportVolumes.StorageClass

namespace ExportVolumes

/-!
What becomes of a volume directory once its volume is released.  The policy is derived from
the parameters of the storage class each time and is never stored.
-/

/-- How the parameters of a class say to treat a released directory. -/
inductive DeletionPolicy where
  | delete
  | retain
  | archive
  | discard
  deriving DecidableEq, Repr

/-- What is done to the directory. -/
inductive DeletionAction where
  | remove
  | keep
  | archive
  deriving DecidableEq, Repr

namespace DeletionPolicy

/-- The policy of a class.  The words `delete` and `retain` under `onDelete` decide alone;
otherwise `archiveOnDelete` does, and a class that says nothing archives. -/
def ofClass (sc : StorageClass) : Except ParameterError DeletionPolicy :=
  if sc.onDelete? = some "delete" then .ok .delete
  else if sc.onDelete? = some "retain" then .ok .retain
  else
    match sc.archiveOnDelete? with
    | none => .ok .archive
    | some value => (Parameter.readFlag value).map (fun flag => if flag then .archive else .discard)

/-- The action that a policy resolves to. -/
def action : DeletionPolicy → DeletionAction
  | delete | discard => .remove
  | retain => .keep
  | archive => .archive

end DeletionPolicy
end ExportVolumes
