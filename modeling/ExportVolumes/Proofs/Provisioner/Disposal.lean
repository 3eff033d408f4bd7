import ExportVolumes.Proofs.Program.Wrapping
import ExportVolumes.Proofs.Provisioner.Events

namespace ExportVolumes

/-!
Deletion of a volume whose class is known.

`Disposal` lists the ways that it can go: the directory is looked at, and when it is there the
policy of the class says which single call is made on it.  On any host that serves the class of a
volume deletion goes one of these ways (`Settings.delete_disposal`), so that it fails only where
the filesystem does or where the class has a flag that cannot be read.
-/

/-- The call that a step makes, with its answer, if it makes one. -/
def Step.answered? : Step → Option (Call × Except Fault Bool)
  | ⟨.call call, answer⟩ => some (call, answer)
  | _ => none

/-- The calls that steps make, each with its answer. -/
def answered (steps : List Step) : List (Call × Except Fault Bool) :=
  steps.filterMap Step.answered?

@[simp]
theorem answered_append (first second : List Step) :
    answered (first ++ second) = answered first ++ answered second :=
  List.filterMap_append

theorem answered_of_silent {steps : List Step} (silent : steps.filterMap Step.call? = []) :
    answered steps = [] := by
  apply List.filterMap_eq_nil_iff.mpr
  intro step member
  have none := List.filterMap_eq_nil_iff.mp silent step member
  rcases step with ⟨effect, answer⟩
  cases effect with
  | call call => cases none
  | _ => rfl

theorem answered_filter_lookups (steps : List Step) :
    answered (steps.filter (fun step => !step.isLookup)) = answered steps := by
  refine Program.filterMap_filter_not (fun step looks => ?_) steps
  rcases step with ⟨effect, answer⟩
  cases effect with
  | findClass name => rfl
  | _ => cases looks

theorem answered_filter_unheeded (heeds : Notice → Bool) (steps : List Step) :
    answered (steps.filter (fun step => !step.isUnheeded heeds)) = answered steps := by
  refine Program.filterMap_filter_not (fun step unheeded => ?_) steps
  rcases step with ⟨effect, answer⟩
  cases effect with
  | notify notice => rfl
  | _ => cases unheeded

/-! ## Deletion of a volume whose class is known -/

/-- The call that carries out an action on a directory, if it takes one. -/
def Settings.disposal? (settings : Settings) (volume : Volume) (directory : String) :
    DeletionAction → Option Call
  | .remove => some (.removeTree directory)
  | .keep => none
  | .archive => some (.rename directory (settings.layout.archivePathFor volume.nfs.path))

/-- The ways that deletion can go when it finds the class of its volume: what comes of it, and its
calls with their answers. -/
inductive Disposal (settings : Settings) (volume : Volume) (sc : StorageClass)
    (directory : String) :
    Except ProvisionerError Unit → List (Call × Except Fault Bool) → Prop
  | unseen {fault : Fault} :
      Disposal settings volume sc directory
        (.error (.filesystem ((Call.pathExists directory).error fault)))
        [(.pathExists directory, .error fault)]
  | gone : Disposal settings volume sc directory (.ok ()) [(.pathExists directory, .ok false)]
  | undecided {value : String} (said : sc.archiveOnDelete? = some value)
      (refused : Parameter.readFlag value = .error (.invalidFlag value)) :
      Disposal settings volume sc directory (.error (.invalidParameter (.invalidFlag value)))
        [(.pathExists directory, .ok true)]
  | kept {policy : DeletionPolicy} (decided : DeletionPolicy.ofClass sc = .ok policy)
      (keeps : settings.disposal? volume directory policy.action = none) :
      Disposal settings volume sc directory (.ok ()) [(.pathExists directory, .ok true)]
  | done {policy : DeletionPolicy} {call : Call} {answer : Bool}
      (decided : DeletionPolicy.ofClass sc = .ok policy)
      (asked : settings.disposal? volume directory policy.action = some call) :
      Disposal settings volume sc directory (.ok ())
        [(.pathExists directory, .ok true), (call, .ok answer)]
  | failed {policy : DeletionPolicy} {call : Call} {fault : Fault}
      (decided : DeletionPolicy.ofClass sc = .ok policy)
      (asked : settings.disposal? volume directory policy.action = some call) :
      Disposal settings volume sc directory (.error (.filesystem (call.error fault)))
        [(.pathExists directory, .ok true), (call, .error fault)]

theorem Disposal.not_classLookup {settings : Settings} {volume : Volume} {sc : StorageClass}
    {directory : String} {result : Except ProvisionerError Unit}
    {calls : List (Call × Except Fault Bool)}
    (disposal : Disposal settings volume sc directory result calls) (cause : LookupError) :
    result ≠ .error (.classLookup cause) := by
  rintro rfl
  cases disposal

theorem Parameter.of_readFlag_error {value : String} {cause : ParameterError}
    (refused : readFlag value = .error cause) : cause = .invalidFlag value := by
  unfold readFlag at refused
  split at refused
  · cases refused
  · split at refused
    · cases refused
    · exact (Except.error.inj refused).symm

/-- A class leaves its policy open only by a flag that cannot be read. -/
theorem DeletionPolicy.of_ofClass_error {sc : StorageClass} {cause : ParameterError}
    (refused : ofClass sc = .error cause) :
    ∃ value, sc.archiveOnDelete? = some value ∧ cause = .invalidFlag value ∧
      Parameter.readFlag value = .error cause := by
  unfold ofClass at refused
  split at refused
  · cases refused
  · split at refused
    · cases refused
    · split at refused
      · cases refused
      · rename_i value said
        cases read : Parameter.readFlag value with
        | ok flag =>
            rw [read] at refused
            cases refused
        | error other =>
            rw [read] at refused
            cases refused
            exact ⟨value, said, Parameter.of_readFlag_error read, read⟩

namespace Settings

variable {σ : Type} {host : Host σ} {volume : Volume} {sc : StorageClass}

theorem release_disposal (host : Host σ) (settings : Settings) (volume : Volume)
    (directory : String) {policy : DeletionPolicy} (state : σ)
    (decided : DeletionPolicy.ofClass sc = .ok policy) :
    Disposal settings volume sc directory
      ((settings.release volume directory policy.action).run host state).1
      ((.pathExists directory, .ok true) ::
        answered ((settings.release volume directory policy.action).trace host state)) := by
  cases action : policy.action with
  | keep => exact .kept decided (by rw [action]; rfl)
  | remove =>
      simp only [release, Program.bind_eq_bind, Program.run_bind, Program.trace_bind,
        Program.run_call, Program.trace_call]
      cases (host (.call (.removeTree directory)) state).1 with
      | error fault => exact .failed decided (by rw [action]; rfl)
      | ok answer => exact .done decided (by rw [action]; rfl)
  | archive =>
      simp only [release, Program.bind_eq_bind, Program.run_bind, Program.trace_bind,
        Program.run_call, Program.trace_call]
      cases (host (.call (.rename directory (settings.layout.archivePathFor volume.nfs.path))) state).1
        with
      | error fault => exact .failed decided (by rw [action]; rfl)
      | ok answer => exact .done decided (by rw [action]; rfl)

/-- On a host that serves the class of a volume, deletion disposes of its directory as that class
says. -/
theorem delete_disposal (settings : Settings) {className : String}
    (named : volume.storageClassName = some className) (inhabited : className ≠ "")
    (served : ∀ state, (host (.findClass className) state).1 = .ok sc) (state : σ) :
    Disposal settings volume sc (settings.layout.localPathFor volume.nfs.path)
      ((settings.delete volume).run host state).1
      (answered ((settings.delete volume).trace host state)) := by
  have look : classOf volume = Program.findClass className := by simp [classOf, named, inhabited]
  simp only [delete, Program.bind_eq_bind, Program.run_bind, Program.trace_bind, Program.run_call,
    Program.trace_call, look]
  cases (host (.call (.pathExists (settings.layout.localPathFor volume.nfs.path))) state).1 with
  | error fault => exact .unseen
  | ok found =>
      generalize (host (.call (.pathExists (settings.layout.localPathFor volume.nfs.path))) state).2 =
        next
      cases found with
      | false => exact .gone
      | true =>
          simp only [Program.mapError_ok, Program.run_bind, Program.trace_bind, run_findClass,
            trace_findClass, served]
          cases decided : DeletionPolicy.ofClass sc with
          | error cause =>
              rcases DeletionPolicy.of_ofClass_error decided with ⟨value, said, rfl, refused⟩
              exact .undecided said refused
          | ok policy =>
              exact release_disposal host settings volume _ _ decided

end Settings

/-- A provisioning that returns a volume has made its directory and nothing else. -/
theorem Settings.ProvisionRun.of_ok {settings : Settings} {order : Order} {volume : Volume}
    {steps : List Step} (run : ProvisionRun settings order (.ok volume) steps) :
    ∃ site created moded owned user group, settings.site order = .ok site ∧
      volume = settings.volume order site ∧
      answered steps =
        [(.createDirectories site.paths.localPath site.mode, .ok created),
          (.setMode site.paths.localPath site.mode, .ok moded),
          (.setOwner site.paths.localPath user group, .ok owned)] := by
  cases run with
  | @provisioned site created moded owned between found told silent =>
      refine ⟨site, created, moded, owned, order.owner Parameter.userAnnotation settings.defaultUser,
        order.owner Parameter.groupAnnotation settings.defaultGroup, found, rfl, ?_⟩
      have nothing := answered_of_silent silent
      simp only [answered] at nothing ⊢
      simp only [List.filterMap_cons, List.filterMap_append, Step.answered?, nothing]
      rfl

end ExportVolumes
