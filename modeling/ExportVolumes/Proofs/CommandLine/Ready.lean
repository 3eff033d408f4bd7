import ExportVolumes.CommandLine.Run
import ExportVolumes.Proofs.Program.Wrapping
import ExportVolumes.Proofs.Registry.Service

namespace ExportVolumes

/-!
What a command has ready when it begins.

Starting up asks for nothing but to look for files, to read them and to log what went wrong.  The
registry that it ends with holds the classes of one list that the provisioner serves, each under
its own name (`CommandLine.registry_of_startUp`, `CommandLine.name_of_startUp`).
-/

namespace Registry

variable {σ : Type} {host : Host σ} {state : σ}

theorem of_run_ofFile {path : Option String} {provisionerName : String} {registry : Registry}
    (read : ((ofFile path provisionerName).run host state).1 = .ok registry) :
    ∃ classes, registry = ofClasses classes provisionerName := by
  unfold ofFile at read
  cases path with
  | none =>
      cases read
      exact ⟨[], rfl⟩
  | some path =>
      simp only [Program.bind_eq_bind, Program.run_bind] at read
      split at read
      · cases read
      · split at read
        · cases read
        · cases read
          exact ⟨_, rfl⟩

end Registry

namespace CommandLine

/-! ## What starting up asks for -/

/-- A call that only looks whether something is there. -/
def IsProbe (call : Call) : Prop :=
  ∃ path, call = .pathExists path

/-- What starting up may ask for. -/
def Prepares : Effect → Prop
  | .call call => IsProbe call
  | .readFile _ | .notify _ => True
  | _ => False

theorem isPresent_onlyAsks (path : String) : (Program.isPresent path).OnlyAsks Prepares := by
  refine ⟨⟨path, rfl⟩, fun answer => ?_⟩
  cases answer <;> trivial

theorem firstPresent_onlyAsks (paths : List String) :
    (Configuration.firstPresent paths).OnlyAsks Prepares := by
  induction paths with
  | nil => trivial
  | cons path rest ih =>
      refine Program.OnlyAsks.bind (isPresent_onlyAsks path) (fun found => ?_)
      cases found with
      | true => trivial
      | false => exact ih

theorem gather_onlyAsks (asked : Option String) (environment : Environment)
    (flags : Field → Option String) :
    (Configuration.gather asked environment flags).OnlyAsks Prepares := by
  have source : (Configuration.sourceFile asked environment).OnlyAsks Prepares := by
    cases asked with
    | none => exact firstPresent_onlyAsks _
    | some path => trivial
  refine Program.OnlyAsks.bind source (fun file => ?_)
  cases file with
  | none => trivial
  | some path =>
      have read : (Configuration.ofFile path).OnlyAsks Prepares := by
        refine Program.OnlyAsks.bind (.request trivial) (fun answer => ?_)
        cases answer with
        | error reason => trivial
        | ok text =>
            simp only
            split <;> trivial
      exact Program.OnlyAsks.bind read (fun _ => trivial)

theorem ofFile_onlyAsks (path : Option String) (provisionerName : String) :
    (Registry.ofFile path provisionerName).OnlyAsks Prepares := by
  cases path with
  | none => trivial
  | some path =>
      refine Program.OnlyAsks.bind (.request trivial) (fun answer => ?_)
      cases answer with
      | error reason => trivial
      | ok text =>
          simp only
          split <;> trivial

theorem startUp_onlyAsks (invocation : Invocation) (environment : Environment) :
    (startUp invocation environment).OnlyAsks Prepares := by
  refine Program.OnlyAsks.bind (gather_onlyAsks _ _ _) (fun gathered => ?_)
  cases gathered with
  | error cause => exact ⟨trivial, fun _ => trivial⟩
  | ok configuration =>
      simp only
      split
      · exact ⟨trivial, fun _ => trivial⟩
      · refine Program.OnlyAsks.bind (ofFile_onlyAsks _ _) (fun loaded => ?_)
        cases loaded with
        | error fault => exact ⟨trivial, fun _ => trivial⟩
        | ok registry => trivial

/-! ## What starting up makes ready -/

variable {σ : Type} {host : Host σ} {state : σ}

theorem registry_of_startUp {invocation : Invocation} {environment : Environment} {ready : Ready}
    (started : ((startUp invocation environment).run host state).1 = some ready) :
    ∃ classes, ready.registry = Registry.ofClasses classes ready.settings.provisionerName := by
  unfold startUp at started
  simp only [Program.bind_eq_bind, Program.run_bind] at started
  split at started
  · cases started
  · split at started
    · cases started
    · rename_i settings _
      rw [Program.run_bind] at started
      split at started
      · rename_i registry loaded
        cases started
        exact Registry.of_run_ofFile loaded
      · cases started

/-- Every class that is ready is held under its own name. -/
theorem name_of_startUp {invocation : Invocation} {environment : Environment} {ready : Ready}
    (started : ((startUp invocation environment).run host state).1 = some ready) {name : String}
    {sc : StorageClass} (held : ready.registry.get? name = some sc) : sc.name = name := by
  rcases registry_of_startUp started with ⟨classes, registered⟩
  rw [registered] at held
  exact (Registry.of_get?_ofClasses held).1

end CommandLine
end ExportVolumes
