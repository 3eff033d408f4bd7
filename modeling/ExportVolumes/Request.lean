import ExportVolumes.Claim

namespace ExportVolumes

/-!
Requests to provision a volume for a claim, as they are handed in from outside.
-/

/-- A claim with the choices that its host may have made for it. -/
structure Request where
  claim : Claim
  storageClassName : Option String := none
  volumeName : Option String := none
  deriving DecidableEq, Repr

namespace Request

/-- The name of the storage class to provision from.  The choice of the request hides that of
the claim even when it is empty, and an empty name is none. -/
def className? (request : Request) : Option String :=
  (request.storageClassName.or request.claim.spec.storageClassName).filter
    (fun name => !name.isEmpty)

/-- The name that the volume is asked to have. -/
def chosenName? (request : Request) : Option String :=
  request.volumeName.filter (fun name => !name.isEmpty)

end Request
end ExportVolumes
