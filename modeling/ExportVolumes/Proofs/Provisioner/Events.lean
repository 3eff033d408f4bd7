import ExportVolumes.Proofs.Provisioner.Effects
import ExportVolumes.Session

namespace ExportVolumes

/-!
What the events of provisioning and deletion tell.

`ProvisionRun` and `DeletionRun` list the ways that the two can go on any filesystem, each with
its result and all its steps; what the events of a call tell is read off them.  The events of
several calls are those of each call, one after the other.
-/

/-- The event that a step publishes, if it publishes one. -/
def Step.event? : Step → Option Event
  | ⟨.publish event, _⟩ => some event
  | _ => none

/-- The events that steps publish, in order. -/
def eventsOf (steps : List Step) : List Event :=
  steps.filterMap Step.event?

/-- The call that a step makes with success, if it makes one. -/
def Step.granted? : Step → Option Call
  | ⟨.call call, .ok _⟩ => some call
  | _ => none

/-- The calls of steps that succeeded, in order. -/
def granted (steps : List Step) : List Call :=
  steps.filterMap Step.granted?

/-- What a step learns of a path that it looks at. -/
def Step.seen? : Step → Option (String × Bool)
  | ⟨.call (.pathExists path), .ok found⟩ => some (path, found)
  | _ => none

/-- The storage class that a step is given. -/
def Step.served? : Step → Option StorageClass
  | ⟨.findClass _, .ok sc⟩ => some sc
  | _ => none

section EventsOf

variable (steps : List Step)

@[simp]
theorem eventsOf_nil : eventsOf [] = [] := rfl

@[simp]
theorem eventsOf_call (call : Call) (answer : Except Fault Bool) :
    eventsOf (⟨.call call, answer⟩ :: steps) = eventsOf steps := rfl

@[simp]
theorem eventsOf_findClass (name : String) (answer : Except LookupError StorageClass) :
    eventsOf (⟨.findClass name, answer⟩ :: steps) = eventsOf steps := rfl

@[simp]
theorem eventsOf_notify (notice : Notice) :
    eventsOf (⟨.notify notice, ()⟩ :: steps) = eventsOf steps := rfl

@[simp]
theorem eventsOf_publish (event : Event) :
    eventsOf (⟨.publish event, ()⟩ :: steps) = event :: eventsOf steps := rfl

@[simp]
theorem eventsOf_append (first second : List Step) :
    eventsOf (first ++ second) = eventsOf first ++ eventsOf second :=
  List.filterMap_append

@[simp]
theorem granted_nil : granted [] = [] := rfl

@[simp]
theorem granted_ok (call : Call) (answer : Bool) :
    granted (⟨.call call, .ok answer⟩ :: steps) = call :: granted steps := rfl

@[simp]
theorem granted_error (call : Call) (fault : Fault) :
    granted (⟨.call call, .error fault⟩ :: steps) = granted steps := rfl

@[simp]
theorem granted_findClass (name : String) (answer : Except LookupError StorageClass) :
    granted (⟨.findClass name, answer⟩ :: steps) = granted steps := rfl

@[simp]
theorem granted_notify (notice : Notice) :
    granted (⟨.notify notice, ()⟩ :: steps) = granted steps := rfl

@[simp]
theorem granted_publish (event : Event) :
    granted (⟨.publish event, ()⟩ :: steps) = granted steps := rfl

@[simp]
theorem granted_append (first second : List Step) :
    granted (first ++ second) = granted first ++ granted second :=
  List.filterMap_append

theorem granted_of_silent {steps : List Step} (silent : steps.filterMap Step.call? = []) :
    granted steps = [] := by
  apply List.filterMap_eq_nil_iff.mpr
  intro step member
  have none := List.filterMap_eq_nil_iff.mp silent step member
  rcases step with ⟨effect, answer⟩
  cases effect with
  | call call => cases none
  | _ => rfl

end EventsOf

/-! ## Owners -/

namespace Order

/-- The owner id that an annotation gives, or the default. -/
def owner (order : Order) (key : String) (default : UInt32) : UInt32 :=
  match order.claim.metadata.annotationText? key with
  | none => default
  | some value =>
      match Parameter.readId value with
      | .ok id => id
      | .error _ => default

/-- The event that tells of an unusable annotation. -/
def fallback? (order : Order) (key : String) : Option Event :=
  match order.claim.metadata.annotationText? key with
  | none => none
  | some value =>
      match Parameter.readId value with
      | .ok _ => none
      | .error cause => some (.ownershipFallback order.volumeName key value cause.message)

/-- The events that tell of unusable owner annotations: that of the user, then that of the group. -/
def fallbacks (order : Order) : List Event :=
  (order.fallback? Parameter.userAnnotation).toList ++
    (order.fallback? Parameter.groupAnnotation).toList

end Order

namespace Settings

variable {σ : Type}

theorem run_ownerId (host : Host σ) (order : Order) (key : String) (default : UInt32) (state : σ) :
    ((ownerId order key default).run host state).1 = order.owner key default := by
  unfold ownerId Order.owner
  cases order.claim.metadata.annotationText? key with
  | none => rfl
  | some value => cases readValue : Parameter.readId value <;> simp only [readValue] <;> rfl

theorem events_ownerId (host : Host σ) (order : Order) (key : String) (default : UInt32)
    (state : σ) :
    eventsOf ((ownerId order key default).trace host state) = (order.fallback? key).toList := by
  unfold ownerId Order.fallback?
  cases order.claim.metadata.annotationText? key with
  | none => rfl
  | some value => cases readValue : Parameter.readId value <;> simp only [readValue] <;> rfl

/-- Between the two calls that it stands between, the choice of an owner tells of nothing but the
annotations that are unusable. -/
theorem bind_owners {β : Type} (host : Host σ) (settings : Settings) (order : Order) (state : σ)
    (next : UInt32 → UInt32 → Program β) :
    ∃ settled between, eventsOf between = order.fallbacks ∧ between.filterMap Step.call? = [] ∧
      ((ownerId order Parameter.userAnnotation settings.defaultUser).bind fun user =>
        (ownerId order Parameter.groupAnnotation settings.defaultGroup).bind (next user)).run host state =
        (next (order.owner Parameter.userAnnotation settings.defaultUser)
          (order.owner Parameter.groupAnnotation settings.defaultGroup)).run host settled ∧
      ((ownerId order Parameter.userAnnotation settings.defaultUser).bind fun user =>
        (ownerId order Parameter.groupAnnotation settings.defaultGroup).bind (next user)).trace host
          state =
        between ++ (next (order.owner Parameter.userAnnotation settings.defaultUser)
          (order.owner Parameter.groupAnnotation settings.defaultGroup)).trace host settled := by
  simp only [Program.run_bind, Program.trace_bind, run_ownerId, ← List.append_assoc]
  have silent : ∀ key default state,
      ((ownerId order key default).trace host state).filterMap Step.call? = [] :=
    fun key default state => Program.calls_eq_nil (ownerId_isSilent order key default) host state
  refine ⟨_, _, ?_, ?_, rfl, rfl⟩
  · rw [eventsOf_append, events_ownerId, events_ownerId, Order.fallbacks]
  · rw [List.filterMap_append, silent, silent, List.append_nil]

/-! ## Provisioning -/

/-- The event that tells of a provisioned volume. -/
def provisionedEvent (settings : Settings) (order : Order) (site : Site) : Event :=
  .volumeProvisioned order.volumeName order.claim.metadata.name order.claim.metadata.namespaceName
    site.paths.serverPath site.mode (order.owner Parameter.userAnnotation settings.defaultUser)
    (order.owner Parameter.groupAnnotation settings.defaultGroup)

/-- The call that hands a directory to its owner. -/
def owning (settings : Settings) (order : Order) (site : Site) : Call :=
  .setOwner site.paths.localPath (order.owner Parameter.userAnnotation settings.defaultUser)
    (order.owner Parameter.groupAnnotation settings.defaultGroup)

/-- The ways that provisioning can go: its result and its steps. -/
inductive ProvisionRun (settings : Settings) (order : Order) :
    Except ProvisionerError Volume → List Step → Prop
  | refused {cause : ProvisionerError} (found : settings.site order = .error cause) :
      ProvisionRun settings order (.error cause) []
  | unmade {site : Site} {fault : Fault} {cause : ProvisionerError}
      (found : settings.site order = .ok site) :
      ProvisionRun settings order (.error cause)
        [⟨.call (.createDirectories site.paths.localPath site.mode), .error fault⟩]
  | unmoded {site : Site} {made : Bool} {fault : Fault} {cause : ProvisionerError}
      (found : settings.site order = .ok site) :
      ProvisionRun settings order (.error cause)
        [⟨.call (.createDirectories site.paths.localPath site.mode), .ok made⟩,
          ⟨.call (.setMode site.paths.localPath site.mode), .error fault⟩]
  | unowned {site : Site} {made moded : Bool} {between : List Step} {fault : Fault}
      {cause : ProvisionerError} (found : settings.site order = .ok site)
      (told : eventsOf between = order.fallbacks) (silent : between.filterMap Step.call? = []) :
      ProvisionRun settings order (.error cause)
        (⟨.call (.createDirectories site.paths.localPath site.mode), .ok made⟩ ::
          ⟨.call (.setMode site.paths.localPath site.mode), .ok moded⟩ ::
          (between ++ [⟨.call (settings.owning order site), .error fault⟩]))
  | provisioned {site : Site} {made moded owned : Bool} {between : List Step}
      (found : settings.site order = .ok site) (told : eventsOf between = order.fallbacks)
      (silent : between.filterMap Step.call? = []) :
      ProvisionRun settings order (.ok (settings.volume order site))
        (⟨.call (.createDirectories site.paths.localPath site.mode), .ok made⟩ ::
          ⟨.call (.setMode site.paths.localPath site.mode), .ok moded⟩ ::
          (between ++ [⟨.call (settings.owning order site), .ok owned⟩,
            ⟨.publish (settings.provisionedEvent order site), ()⟩]))

theorem provisionRun (host : Host σ) (settings : Settings) (order : Order) (state : σ) :
    ProvisionRun settings order ((settings.provision order).run host state).1
      ((settings.provision order).trace host state) := by
  unfold provision
  cases found : settings.site order with
  | error cause => exact .refused found
  | ok site =>
      -- Each call may fail; between the last two of them the owner is chosen.
      simp only [Program.bind_eq_bind, Program.pure_eq_done, Program.run_bind, Program.trace_bind,
        Program.run_call, Program.trace_call]
      cases made : (host (.call (.createDirectories site.paths.localPath site.mode)) state).1 with
      | error fault => exact .unmade found
      | ok made =>
          generalize (host (.call (.createDirectories site.paths.localPath site.mode)) state).2 = next
          simp only [Program.mapError_ok, Program.run_bind, Program.trace_bind, Program.run_call,
            Program.trace_call]
          cases moded : (host (.call (.setMode site.paths.localPath site.mode)) next).1 with
          | error fault => exact .unmoded found
          | ok moded =>
              generalize (host (.call (.setMode site.paths.localPath site.mode)) next).2 = next
              simp only [Program.mapError_ok]
              rcases bind_owners host settings order next _ with
                ⟨settled, between, told, silent, run, trace⟩
              rw [run, trace]
              simp only [Program.run_bind, Program.trace_bind, Program.run_call, Program.trace_call]
              cases owned : (host (.call (settings.owning order site)) settled).1 with
              | error fault =>
                  rw [owning] at owned
                  rw [owned]
                  exact .unowned found told silent
              | ok answer =>
                  rw [owning] at owned
                  rw [owned]
                  exact .provisioned found told silent

/-! ## Deletion -/

/-- The ways that the release of a directory can go, as the class of its volume says. -/
inductive ReleaseRun (settings : Settings) (volume : Volume) (directory : String) :
    DeletionAction → Except ProvisionerError Unit → List Step → Prop
  | unremoved {fault : Fault} {cause : ProvisionerError} :
      ReleaseRun settings volume directory .remove (.error cause)
        [⟨.call (.removeTree directory), .error fault⟩]
  | removed {answer : Bool} :
      ReleaseRun settings volume directory .remove (.ok ())
        [⟨.call (.removeTree directory), .ok answer⟩,
          ⟨.publish (.volumeDeleted volume.name volume.nfs.path), ()⟩]
  | kept :
      ReleaseRun settings volume directory .keep (.ok ())
        [⟨.publish (.volumeRetained volume.name volume.nfs.path), ()⟩]
  | unarchived {fault : Fault} {cause : ProvisionerError} :
      ReleaseRun settings volume directory .archive (.error cause)
        [⟨.call (.rename directory (settings.layout.archivePathFor volume.nfs.path)), .error fault⟩]
  | archived {answer : Bool} :
      ReleaseRun settings volume directory .archive (.ok ())
        [⟨.call (.rename directory (settings.layout.archivePathFor volume.nfs.path)), .ok answer⟩,
          ⟨.publish (.volumeArchived volume.name volume.nfs.path
            (settings.layout.archivePathFor volume.nfs.path)), ()⟩]

theorem releaseRun (host : Host σ) (settings : Settings) (volume : Volume) (directory : String)
    (action : DeletionAction) (state : σ) :
    ReleaseRun settings volume directory action
      ((settings.release volume directory action).run host state).1
      ((settings.release volume directory action).trace host state) := by
  cases action with
  | keep => exact .kept
  | remove =>
      simp only [release, Program.bind_eq_bind, Program.run_bind, Program.trace_bind,
        Program.run_call, Program.trace_call]
      cases (host (.call (.removeTree directory)) state).1 with
      | error fault => exact .unremoved
      | ok answer => exact .removed
  | archive =>
      simp only [release, Program.bind_eq_bind, Program.run_bind, Program.trace_bind,
        Program.run_call, Program.trace_call]
      cases (host (.call (.rename directory (settings.layout.archivePathFor volume.nfs.path))) state).1
        with
      | error fault => exact .unarchived
      | ok answer => exact .archived

/-- The ways that deletion can go: its result and its steps. -/
inductive DeletionRun (settings : Settings) (volume : Volume) :
    Except ProvisionerError Unit → List Step → Prop
  | unseen {fault : Fault} {cause : ProvisionerError} :
      DeletionRun settings volume (.error cause)
        [⟨.call (.pathExists (settings.layout.localPathFor volume.nfs.path)), .error fault⟩]
  | skipped :
      DeletionRun settings volume (.ok ())
        [⟨.call (.pathExists (settings.layout.localPathFor volume.nfs.path)), .ok false⟩,
          ⟨.notify (.deletionSkipped (settings.layout.localPathFor volume.nfs.path)), ()⟩,
          ⟨.publish (.deletionSkipped volume.name (settings.layout.localPathFor volume.nfs.path)), ()⟩]
  | nameless {cause : ProvisionerError} :
      DeletionRun settings volume (.error cause)
        [⟨.call (.pathExists (settings.layout.localPathFor volume.nfs.path)), .ok true⟩]
  | unserved {name : String} {fault : LookupError} {cause : ProvisionerError}
      (named : volume.storageClassName = some name) :
      DeletionRun settings volume (.error cause)
        [⟨.call (.pathExists (settings.layout.localPathFor volume.nfs.path)), .ok true⟩,
          ⟨.findClass name, .error fault⟩]
  | undecided {name : String} {sc : StorageClass} {fault : ParameterError} {cause : ProvisionerError}
      (named : volume.storageClassName = some name)
      (refused : DeletionPolicy.ofClass sc = .error fault) :
      DeletionRun settings volume (.error cause)
        [⟨.call (.pathExists (settings.layout.localPathFor volume.nfs.path)), .ok true⟩,
          ⟨.findClass name, .ok sc⟩]
  | released {name : String} {sc : StorageClass} {policy : DeletionPolicy}
      {result : Except ProvisionerError Unit} {steps : List Step}
      (named : volume.storageClassName = some name) (decided : DeletionPolicy.ofClass sc = .ok policy)
      (run : ReleaseRun settings volume (settings.layout.localPathFor volume.nfs.path) policy.action
        result steps) :
      DeletionRun settings volume result
        (⟨.call (.pathExists (settings.layout.localPathFor volume.nfs.path)), .ok true⟩ ::
          ⟨.findClass name, .ok sc⟩ :: steps)

theorem classOf_cases (volume : Volume) :
    classOf volume = .done (.error .missingClassName) ∨
      ∃ name, volume.storageClassName = some name ∧ classOf volume = Program.findClass name := by
  unfold classOf
  cases volume.storageClassName with
  | none => exact Or.inl rfl
  | some name =>
      by_cases empty : name.isEmpty = true
      · exact Or.inl (if_pos empty)
      · exact Or.inr ⟨name, rfl, if_neg empty⟩

theorem run_findClass (host : Host σ) (name : String) (state : σ) :
    (Program.findClass name).run host state = host (.findClass name) state :=
  rfl

theorem trace_findClass (host : Host σ) (name : String) (state : σ) :
    (Program.findClass name).trace host state =
      [⟨.findClass name, (host (.findClass name) state).1⟩] :=
  rfl

theorem deletionRun (host : Host σ) (settings : Settings) (volume : Volume) (state : σ) :
    DeletionRun settings volume ((settings.delete volume).run host state).1
      ((settings.delete volume).trace host state) := by
  simp only [delete, Program.bind_eq_bind, Program.run_bind, Program.trace_bind, Program.run_call,
    Program.trace_call]
  cases (host (.call (.pathExists (settings.layout.localPathFor volume.nfs.path))) state).1 with
  | error fault => exact .unseen
  | ok found =>
      generalize (host (.call (.pathExists (settings.layout.localPathFor volume.nfs.path))) state).2 =
        next
      cases found with
      | false => exact .skipped
      | true =>
          simp only [Program.mapError_ok, Program.run_bind, Program.trace_bind]
          rcases classOf_cases volume with missing | ⟨name, named, look⟩
          · rw [missing]
            exact .nameless
          · rw [look, run_findClass, trace_findClass]
            cases (host (.findClass name) next).1 with
            | error fault => exact .unserved named
            | ok sc =>
                cases decided : DeletionPolicy.ofClass sc with
                | error cause =>
                    simp only [decided]
                    exact .undecided named decided
                | ok policy =>
                    simp only [decided]
                    exact .released named decided (releaseRun host settings volume _ _ _)

/-! ## What events tell -/

/-- An event that tells of a provisioned volume. -/
def isProvisioned : Event → Bool
  | .volumeProvisioned .. => true
  | _ => false

/-- What the events of a provisioning tell. -/
structure ProvisionTells (settings : Settings) (order : Order)
    (result : Except ProvisionerError Volume) (steps : List Step) : Prop where
  /-- Nothing is told unless the directory was made and given its mode before. -/
  begins : eventsOf steps ≠ [] → ∃ site made moded later, settings.site order = .ok site ∧
    steps = ⟨.call (.createDirectories site.paths.localPath site.mode), .ok made⟩ ::
      ⟨.call (.setMode site.paths.localPath site.mode), .ok moded⟩ :: later
  /-- From then on the unusable annotations are told, and at last the volume if it is returned. -/
  events : ∀ directory mode, .setMode directory mode ∈ granted steps →
    eventsOf steps = order.fallbacks ++ (result.toOption.map fun volume =>
      .volumeProvisioned order.volumeName order.claim.metadata.name
        order.claim.metadata.namespaceName volume.nfs.path mode
        (order.owner Parameter.userAnnotation settings.defaultUser)
        (order.owner Parameter.groupAnnotation settings.defaultGroup)).toList
  /-- A volume is told exactly once when it is returned, and never when it is not. -/
  once : (eventsOf steps).countP isProvisioned = if result.isOk then 1 else 0
  /-- What is told last is what was applied. -/
  applied : ∀ volume, result = .ok volume → ∃ directory mode user group owned before,
    .setMode directory mode ∈ granted before ∧
    steps = before ++ [⟨.call (.setOwner directory user group), .ok owned⟩,
      ⟨.publish (.volumeProvisioned order.volumeName order.claim.metadata.name
        order.claim.metadata.namespaceName volume.nfs.path mode user group), ()⟩]

theorem countP_fallbacks (order : Order) : order.fallbacks.countP isProvisioned = 0 := by
  have silent : ∀ key, (order.fallback? key).toList.countP isProvisioned = 0 := by
    intro key
    unfold Order.fallback?
    cases order.claim.metadata.annotationText? key with
    | none => rfl
    | some value => cases readValue : Parameter.readId value <;> simp [readValue, isProvisioned]
  rw [Order.fallbacks, List.countP_append, silent, silent]

theorem ProvisionRun.tells {settings : Settings} {order : Order}
    {result : Except ProvisionerError Volume} {steps : List Step}
    (run : ProvisionRun settings order result steps) :
    ProvisionTells settings order result steps := by
  cases run with
  | refused found => exact ⟨by simp, by simp, rfl, by simp⟩
  | unmade found => exact ⟨by simp, by simp, rfl, by simp⟩
  | unmoded found => exact ⟨by simp, by simp, rfl, by simp⟩
  | @unowned site made moded between fault cause found told silent =>
      refine ⟨fun _ => ⟨site, made, moded, _, found, rfl⟩, fun _ _ _ => ?_, ?_, by simp⟩
      · simp [told, Except.toOption]
      · simp [told, countP_fallbacks, Except.isOk, Except.toBool]
  | @provisioned site made moded owned between found told silent =>
      refine ⟨fun _ => ⟨site, made, moded, _, found, rfl⟩, fun directory mode member => ?_, ?_, ?_⟩
      · have same : mode = site.mode := by
          simp [granted_of_silent silent, owning] at member
          exact member.2
        simp [told, Except.toOption, provisionedEvent, same, volume]
      · simp [told, countP_fallbacks, Except.isOk, Except.toBool, isProvisioned, provisionedEvent]
      · rintro _ ⟨⟩
        exact ⟨site.paths.localPath, site.mode, _, _, owned,
          ⟨.call (.createDirectories site.paths.localPath site.mode), .ok made⟩ ::
            ⟨.call (.setMode site.paths.localPath site.mode), .ok moded⟩ :: between, by simp, rfl⟩

/-- What the events of a deletion tell. -/
structure DeletionTells (settings : Settings) (volume : Volume)
    (result : Except ProvisionerError Unit) (steps : List Step) : Prop where
  /-- A deletion that fails tells nothing, and one that succeeds tells one thing. -/
  once : (eventsOf steps).length = if result.isOk then 1 else 0
  /-- It is told last, and it is one of four. -/
  told : ∀ event ∈ eventsOf steps, steps.getLast? = some ⟨.publish event, ()⟩ ∧
    (event = .deletionSkipped volume.name (settings.layout.localPathFor volume.nfs.path) ∨
      event = .volumeDeleted volume.name volume.nfs.path ∨
      event = .volumeArchived volume.name volume.nfs.path
        (settings.layout.archivePathFor volume.nfs.path) ∨
      event = .volumeRetained volume.name volume.nfs.path)
  /-- The directory was not there. -/
  skipped : .deletionSkipped volume.name (settings.layout.localPathFor volume.nfs.path) ∈
      eventsOf steps ↔
    (settings.layout.localPathFor volume.nfs.path, false) ∈ steps.filterMap Step.seen?
  /-- The directory was removed. -/
  deleted : .volumeDeleted volume.name volume.nfs.path ∈ eventsOf steps ↔
    .removeTree (settings.layout.localPathFor volume.nfs.path) ∈ granted steps
  /-- The directory was moved to its archive. -/
  archived : ∀ target, .volumeArchived volume.name volume.nfs.path target ∈ eventsOf steps ↔
    .rename (settings.layout.localPathFor volume.nfs.path) target ∈ granted steps
  /-- The class of the volume was found, and its policy is to keep the directory. -/
  retained : .volumeRetained volume.name volume.nfs.path ∈ eventsOf steps ↔
    ∃ sc ∈ steps.filterMap Step.served?, ∃ policy, DeletionPolicy.ofClass sc = .ok policy ∧
      policy.action = .keep

theorem DeletionRun.tells {settings : Settings} {volume : Volume}
    {result : Except ProvisionerError Unit} {steps : List Step}
    (run : DeletionRun settings volume result steps) :
    DeletionTells settings volume result steps := by
  cases run with
  | unseen => constructor <;> simp [Step.seen?, Step.served?, Except.isOk, Except.toBool]
  | skipped => constructor <;> simp [Step.seen?, Step.served?, Except.isOk, Except.toBool]
  | nameless => constructor <;> simp [Step.seen?, Step.served?, Except.isOk, Except.toBool]
  | unserved named => constructor <;> simp [Step.seen?, Step.served?, Except.isOk, Except.toBool]
  | undecided named refused =>
      constructor <;> simp [Step.seen?, Step.served?, Except.isOk, Except.toBool, refused]
  | released named decided run =>
      generalize acts : DeletionPolicy.action _ = action at run
      cases run <;> constructor <;>
        simp [Step.seen?, Step.served?, Except.isOk, Except.toBool, decided, acts]

end Settings

/-! ## Series of calls -/

/-- A call of a provisioner. -/
inductive Work where
  | provision (order : Order)
  | delete (volume : Volume)

/-- What a call returns. -/
def Work.Result : Work → Type
  | .provision _ => Except ProvisionerError Volume
  | .delete _ => Except ProvisionerError Unit

/-- A call that was made: what it returned, and its steps. -/
structure Record where
  work : Work
  result : work.Result
  steps : List Step

/-- What the events of a call that was made tell. -/
def Record.Tells (settings : Settings) : Record → Prop
  | ⟨.provision order, result, steps⟩ => settings.ProvisionTells order result steps
  | ⟨.delete volume, result, steps⟩ => settings.DeletionTells volume result steps

namespace Settings

variable {σ : Type}

/-- The program of a call. -/
def task (settings : Settings) : (work : Work) → Program work.Result
  | .provision order => settings.provision order
  | .delete volume => settings.delete volume

/-- The program that makes calls one after the other. -/
def series (settings : Settings) : List Work → Program (List ((work : Work) × work.Result))
  | [] => pure []
  | work :: works => do
      let result ← settings.task work
      let others ← settings.series works
      return ⟨work, result⟩ :: others

/-- The calls of a series on a host, as they were made. -/
def records (settings : Settings) (host : Host σ) : List Work → σ → List Record
  | [], _ => []
  | work :: works, state =>
      ⟨work, ((settings.task work).run host state).1, (settings.task work).trace host state⟩ ::
        settings.records host works ((settings.task work).run host state).2

theorem tells_task (settings : Settings) (host : Host σ) (work : Work) (state : σ) :
    Record.Tells settings
      ⟨work, ((settings.task work).run host state).1, (settings.task work).trace host state⟩ := by
  cases work with
  | provision order => exact (provisionRun host settings order state).tells
  | delete volume => exact (deletionRun host settings volume state).tells

theorem tells_records (settings : Settings) (host : Host σ) (works : List Work) (state : σ) :
    ∀ record ∈ settings.records host works state, record.Tells settings := by
  induction works generalizing state with
  | nil =>
      intro record member
      cases member
  | cons work others ih =>
      intro record member
      rcases List.mem_cons.mp member with rfl | later
      · exact tells_task settings host work state
      · exact ih _ record later

theorem trace_series (settings : Settings) (host : Host σ) (works : List Work) (state : σ) :
    (settings.series works).trace host state =
      (settings.records host works state).flatMap Record.steps := by
  induction works generalizing state with
  | nil => rfl
  | cons work others ih =>
      have rest := ih ((settings.task work).run host state).2
      simp only [series, records, Program.bind_eq_bind, Program.pure_eq_done, Program.trace_bind,
        Program.trace_done, List.append_nil, List.flatMap_cons, rest]

theorem run_series (settings : Settings) (host : Host σ) (works : List Work) (state : σ) :
    ((settings.series works).run host state).1 =
      (settings.records host works state).map (fun record => ⟨record.work, record.result⟩) := by
  induction works generalizing state with
  | nil => rfl
  | cons work others ih =>
      have rest := ih ((settings.task work).run host state).2
      simp only [series, records, Program.bind_eq_bind, Program.pure_eq_done, Program.run_bind,
        Program.run_done, List.map_cons, rest]

/-- Whatever a host answers, the events of a series of calls are those of each call in their order,
and those of each call tell what it did. -/
theorem events_series (settings : Settings) (host : Host σ) (works : List Work) (state : σ) :
    eventsOf ((settings.series works).trace host state) =
        (settings.records host works state).flatMap (fun record => eventsOf record.steps) ∧
      ((settings.series works).run host state).1 =
        (settings.records host works state).map (fun record => ⟨record.work, record.result⟩) ∧
      ∀ record ∈ settings.records host works state, record.Tells settings := by
  refine ⟨?_, run_series settings host works state, tells_records settings host works state⟩
  rw [trace_series, eventsOf, List.filterMap_flatMap]
  rfl

end Settings

/-- A session hands on what is published, in its order. -/
theorem Session.bus_run {α : Type} (program : Program α) (session : Session) :
    (program.run Session.host session).2.bus =
      (eventsOf (program.trace Session.host session)).foldl Broadcast.send session.bus := by
  induction program generalizing session with
  | done result => rfl
  | ask effect next ih =>
      rw [Program.run_ask, Program.trace_ask, ih]
      cases effect <;> rfl

end ExportVolumes
