import ExportVolumes.Effect

namespace ExportVolumes

/-!
A stand-in for a filesystem that writes down the calls made to it.

It knows a set of paths, compared as texts, and can be told to fail calls of one operation
with a given fault.
-/

/-- The state of the stand-in. -/
structure Recording where
  /-- The paths that exist. -/
  existing : Dictionary Unit := .empty
  /-- The fault of every call of an operation, where one is set. -/
  failures : List (Operation × Fault) := []
  /-- The calls made so far, the latest first. -/
  calls : List Call := []

namespace Recording

/-- The stand-in on which the given paths exist. -/
def ofPaths (paths : List String) : Recording :=
  { existing := Dictionary.ofList (paths.map (fun path => (path, ()))) }

/-- The paths that exist, in order. -/
def paths (recording : Recording) : List String :=
  recording.existing.entries.map Prod.fst

/-- Forget a path. -/
def without (existing : Dictionary Unit) (path : String) : Dictionary Unit :=
  ⟨existing.entries.filter (fun entry => entry.1 ≠ path), existing.increasing.filter _⟩

/-- Set the fault of an operation, or let it work again. -/
def setFailure (recording : Recording) (operation : Operation) (fault : Option Fault) :
    Recording :=
  let others := recording.failures.filter (fun failure => failure.1 ≠ operation)
  { recording with
    failures := match fault with
      | none => others
      | some fault => (operation, fault) :: others }

/-- What a call that does not fail leaves behind. -/
def apply (existing : Dictionary Unit) : Call → Dictionary Unit
  | .createDirectories path _ => existing.insert path ()
  | .removeTree path => without existing path
  | .rename source target => (without existing source).insert target ()
  | _ => existing

/-- Answer a call. -/
def answer (recording : Recording) (call : Call) : Except Fault Bool × Recording :=
  let logged := { recording with calls := call :: recording.calls }
  match recording.failures.lookup call.operation with
  | some fault => (.error fault, logged)
  | none =>
      let known :=
        match call with
        | .pathExists path => (recording.existing.get? path).isSome
        | _ => true
      (.ok known, { logged with existing := apply recording.existing call })

end Recording
end ExportVolumes
