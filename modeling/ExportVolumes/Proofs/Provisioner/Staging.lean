import ExportVolumes.Proofs.Configuration.Bounds
import ExportVolumes.Proofs.Provisioner.Disposal
import ExportVolumes.Proofs.Provisioner.Subdirectory

namespace ExportVolumes

/-!
Provisioning, call by call.

An order is refused before anything is asked of the world (`Settings.Refuses`), or its directory is
made, given its mode and given its owner, up to the first call that fails.  `Staged` says what a
plan of calls comes to on a filesystem that may fail any of them; `Settings.Grants` says where the
directory goes and whose it is.
-/

/-! ## Plans of calls -/

/-- Calls that are made one after the other until one fails, which is then the result: the plan,
what comes of it, and the calls that were made with their answers. -/
inductive Staged {α : Type} (value : α) :
    List Call → Except ProvisionerError α → List (Call × Except Fault Bool) → Prop
  | finished : Staged value [] (.ok value) []
  | failed {call : Call} {later : List Call} {fault : Fault} :
      Staged value (call :: later) (.error (.filesystem (call.error fault)))
        [(call, .error fault)]
  | passed {call : Call} {later : List Call} {told : Bool} {result : Except ProvisionerError α}
      {made : List (Call × Except Fault Bool)} (onward : Staged value later result made) :
      Staged value (call :: later) result ((call, .ok told) :: made)

theorem granted_eq_answered (steps : List Step) :
    granted steps =
      (answered steps).filterMap fun made => made.2.toOption.map fun _ => made.1 := by
  rw [granted, answered, List.filterMap_filterMap]
  congr 1
  funext step
  rcases step with ⟨effect, answer⟩
  cases effect with
  | call call => cases answer <;> rfl
  | _ => rfl

namespace Staged

variable {α : Type} {value : α} {planned : List Call} {result : Except ProvisionerError α}
  {made : List (Call × Except Fault Bool)}

/-- A plan succeeds exactly if every call of it was made with success. -/
theorem ok_iff (staged : Staged value planned result made) :
    (∃ found, result = .ok found) ↔
      (made.filterMap fun call => call.2.toOption.map fun _ => call.1) = planned := by
  induction staged with
  | finished => simp
  | failed => simp [Except.toOption]
  | passed onward ih => simpa [Except.toOption] using ih

/-- The calls of a plan are made in its order. -/
theorem isPrefix (staged : Staged value planned result made) :
    made.map Prod.fst <+: planned := by
  induction staged with
  | finished => exact List.prefix_rfl
  | failed => exact ⟨_, rfl⟩
  | passed onward ih => exact List.cons_prefix_cons.mpr ⟨rfl, ih⟩

/-- A plan fails only with the failure of the last call that was made. -/
theorem error_eq (staged : Staged value planned result made) {cause : ProvisionerError}
    (failed : result = .error cause) :
    ∃ call fault, made.getLast? = some (call, .error fault) ∧
      cause = .filesystem (call.error fault) := by
  induction staged with
  | finished => cases failed
  | @failed call _ fault =>
      cases failed
      exact ⟨call, fault, rfl, rfl⟩
  | passed onward ih =>
      rcases ih failed with ⟨call, fault, last, same⟩
      exact ⟨call, fault, by rw [List.getLast?_cons, last, Option.getD_some], same⟩

/-- A program that gives up when its first call fails, and goes by a plan when it does not, goes by
the plan that begins with that call. -/
theorem of_call {σ : Type} {host : Host σ} {state : σ} {call : Call}
    {next : Except FilesystemError Bool → Program (Except ProvisionerError α)}
    (fails : ∀ cause, next (.error cause) = .done (.error (.filesystem cause)))
    (passes : ∀ told after, Staged value planned ((next (.ok told)).run host after).1
      (answered ((next (.ok told)).trace host after))) :
    Staged value (call :: planned) (((Program.call call).bind next).run host state).1
      (answered (((Program.call call).bind next).trace host state)) := by
  rw [Program.run_bind, Program.trace_bind, Program.run_call, Program.trace_call]
  cases asked : (host (.call call) state).1 with
  | error fault =>
      have stops : (Except.error fault : Except Fault Bool).mapError call.error =
          .error (call.error fault) := rfl
      rw [stops, fails]
      exact .failed
  | ok told => exact .passed (passes told _)

end Staged

/-! ## Refusals -/

namespace Settings

/-- An order is refused: for its selector, or else for a suffix that climbs above its start, or
else for a mode that cannot be read. -/
inductive Refuses (settings : Settings) (order : Order) : ProvisionerError → Prop
  | selector (selecting : order.claim.hasSelector = true) :
      Refuses settings order .unsupportedSelector
  | suffix {cause : ParameterError} (selectorless : order.claim.hasSelector = false)
      (climbs : settings.layout.build order.claim.metadata order.volumeName
        order.storageClass.pathPattern? = .error cause) :
      Refuses settings order (.invalidParameter cause)
  | mode {cause : ParameterError} {paths : VolumePaths} {text : String}
      (selectorless : order.claim.hasSelector = false)
      (built : settings.layout.build order.claim.metadata order.volumeName
        order.storageClass.pathPattern? = .ok paths)
      (said : order.claim.metadata.annotationText? Parameter.modeAnnotation = some text)
      (unreadable : Parameter.readMode text = .error cause) :
      Refuses settings order (.invalidParameter cause)

theorem site_of_refuses {settings : Settings} {order : Order} {cause : ProvisionerError}
    (refuses : settings.Refuses order cause) : settings.site order = .error cause := by
  unfold site
  cases refuses with
  | selector selecting => rw [if_pos selecting]
  | suffix selectorless climbs =>
      rw [selectorless, if_neg Bool.false_ne_true]
      simp only [climbs]
  | mode selectorless built said unreadable =>
      rw [selectorless, if_neg Bool.false_ne_true]
      simp only [built, modeFor, said, unreadable]

/-- An order has a site unless it is refused. -/
theorem site_cases (settings : Settings) (order : Order) :
    (∃ cause, settings.Refuses order cause) ∨
      ∃ site, settings.site order = .ok site ∧
        settings.layout.build order.claim.metadata order.volumeName
          order.storageClass.pathPattern? = .ok site.paths ∧
        settings.modeFor order.claim.metadata = .ok site.mode := by
  cases selecting : order.claim.hasSelector with
  | true => exact .inl ⟨_, .selector selecting⟩
  | false =>
      cases built : settings.layout.build order.claim.metadata order.volumeName
          order.storageClass.pathPattern? with
      | error cause => exact .inl ⟨_, .suffix selecting built⟩
      | ok paths =>
          cases given : settings.modeFor order.claim.metadata with
          | error cause =>
              unfold modeFor at given
              split at given
              · rename_i text said
                exact .inl ⟨_, .mode selecting built said given⟩
              · cases given
          | ok mode =>
              refine .inr ⟨⟨paths, mode⟩, ?_, rfl, rfl⟩
              rw [site, selecting, if_neg Bool.false_ne_true]
              simp only [built, given]

end Settings

/-! ## Orders that are filled -/

theorem ClaimMetadata.annotationText?_eq_some_iff {metadata : ClaimMetadata} {key text : String} :
    metadata.annotationText? key = some text ↔
      metadata.annotations.get? key = some text ∧ text ≠ "" := by
  rw [annotationText?, Option.filter_eq_some_iff]
  simp

/-- The id that an annotation gives: the decimal number that it denotes, or the default where it
denotes none or is not there. -/
def Order.Owns (order : Order) (key : String) (default id : UInt32) : Prop :=
  (∃ text, order.claim.metadata.annotationText? key = some text ∧
      Parameter.Denotes 10 Parameter.largestId text id) ∨
    (∀ text other, order.claim.metadata.annotationText? key = some text →
      ¬Parameter.Denotes 10 Parameter.largestId text other) ∧ id = default

theorem Order.owns_owner (order : Order) (key : String) (default : UInt32) :
    order.Owns key default (order.owner key default) := by
  unfold Owns owner
  cases said : order.claim.metadata.annotationText? key with
  | none => exact .inr ⟨fun _ _ same => (by cases same), rfl⟩
  | some text =>
      have inhabited := (ClaimMetadata.annotationText?_eq_some_iff.mp said).2
      cases read : Parameter.readId text with
      | ok id =>
          simp only [read]
          exact .inl ⟨text, rfl, (Parameter.readId_eq_ok_iff inhabited).mp read⟩
      | error cause =>
          simp only [read, and_true]
          refine .inr fun other id same denotes => ?_
          cases same
          cases read.symm.trans ((Parameter.readId_eq_ok_iff inhabited).mpr denotes)

theorem Order.owner_le {order : Order} {key : String} {default : UInt32}
    (bounded : default ≤ Parameter.largestId) :
    order.owner key default ≤ Parameter.largestId := by
  rcases order.owns_owner key default with ⟨_, _, denotes⟩ | ⟨_, same⟩
  · exact denotes.bounded
  · rw [same]
    exact bounded

namespace Settings

/-- What an order is given: the place that the layout builds for it, the mode that its annotation
denotes in octal or else the default one, and likewise its owner. -/
structure Grants (settings : Settings) (order : Order) (site : Site) (user group : UInt32) :
    Prop where
  built : settings.layout.build order.claim.metadata order.volumeName
    order.storageClass.pathPattern? = .ok site.paths
  mode : (∃ text, order.claim.metadata.annotationText? Parameter.modeAnnotation = some text ∧
      Parameter.Denotes 8 Parameter.largestMode text site.mode) ∨
    order.claim.metadata.annotationText? Parameter.modeAnnotation = none ∧
      site.mode = settings.defaultMode
  user : order.Owns Parameter.userAnnotation settings.defaultUser user
  group : order.Owns Parameter.groupAnnotation settings.defaultGroup group

variable {settings : Settings} {order : Order} {site : Site}

theorem grants_of_site (found : settings.site order = .ok site) :
    settings.Grants order site (order.owner Parameter.userAnnotation settings.defaultUser)
      (order.owner Parameter.groupAnnotation settings.defaultGroup) := by
  rcases settings.site_cases order with ⟨_, refuses⟩ | ⟨other, same, built, given⟩
  · cases found.symm.trans (site_of_refuses refuses)
  · cases found.symm.trans same
    refine ⟨built, ?_, order.owns_owner _ _, order.owns_owner _ _⟩
    unfold modeFor at given
    split at given
    · rename_i text said
      have inhabited := (ClaimMetadata.annotationText?_eq_some_iff.mp said).2
      exact .inl ⟨text, said, (Parameter.readMode_eq_ok_iff inhabited).mp given⟩
    · rename_i silent
      exact .inr ⟨silent, (Except.ok.inj given).symm⟩

theorem mode_le_of_site (bounded : settings.Bounded) (found : settings.site order = .ok site) :
    site.mode ≤ Parameter.largestMode := by
  rcases (grants_of_site found).mode with ⟨_, _, denotes⟩ | ⟨_, same⟩
  · exact denotes.bounded
  · exact same ▸ bounded.mode

variable {σ : Type}

/-- The plan of an order. -/
def plan (site : Site) (user group : UInt32) : List Call :=
  [.createDirectories site.paths.localPath site.mode, .setMode site.paths.localPath site.mode,
    .setOwner site.paths.localPath user group]

/-- Filling an order that has a site goes by its plan. -/
theorem provision_staged (found : settings.site order = .ok site) (host : Host σ) (state : σ) :
    Staged (settings.volume order site)
      (plan site (order.owner Parameter.userAnnotation settings.defaultUser)
        (order.owner Parameter.groupAnnotation settings.defaultGroup))
      ((settings.provision order).run host state).1
      (answered ((settings.provision order).trace host state)) := by
  unfold provision
  rw [found]
  simp only [Program.bind_eq_bind, Program.pure_eq_done]
  refine Staged.of_call (fun _ => rfl) fun _ made => ?_
  refine Staged.of_call (fun _ => rfl) fun _ moded => ?_
  -- Between the last two calls the owner is chosen, without any call.
  rcases bind_owners host settings order moded _ with ⟨settled, between, _, silent, run, trace⟩
  rw [run, trace, answered_append, answered_of_silent silent, List.nil_append]
  exact Staged.of_call (fun _ => rfl) fun _ owned => .finished

/-- How filling an order goes: what comes of it, and its steps. -/
structure ProvisionGoes (settings : Settings) (order : Order)
    (result : Except ProvisionerError Volume) (steps : List Step) : Prop where
  /-- An order that is refused is refused for its reason, with nothing called or published. -/
  refused : ∀ cause, settings.Refuses order cause → result = .error cause ∧ steps = []
  /-- Nothing else makes it fail for a selector or a parameter. -/
  refusal : ∀ cause, result = .error cause →
    (cause = .unsupportedSelector ∨ ∃ fault, cause = .invalidParameter fault) →
    settings.Refuses order cause ∧ steps = []
  /-- It never fails for a parameter once a directory was made. -/
  created : ∀ path mode, .createDirectories path mode ∈ granted steps →
    ∀ fault, result ≠ .error (.invalidParameter fault)
  /-- An order that is not refused goes by its plan.  It succeeds if all three calls do, and else
  fails as the last call that was made. -/
  planned : (∀ cause, ¬settings.Refuses order cause) → ∃ site user group,
    settings.Grants order site user group ∧ site.mode ≤ Parameter.largestMode ∧
      user ≤ Parameter.largestId ∧ group ≤ Parameter.largestId ∧
      Staged (settings.volume order site) (plan site user group) result (answered steps) ∧
      ((∃ volume, result = .ok volume) ↔ granted steps = plan site user group) ∧
      ∀ cause, result = .error cause → ∃ call fault,
        (answered steps).getLast? = some (call, .error fault) ∧
        cause = .filesystem (call.error fault)

/-- Under validated settings, on any filesystem, an order is refused before anything is done or
goes by its plan, with a mode and an owner within their bounds. -/
theorem provision_goes {configuration : Configuration}
    (valid : configuration.settings = .ok settings) (order : Order) (host : Host σ) (state : σ) :
    settings.ProvisionGoes order ((settings.provision order).run host state).1
      ((settings.provision order).trace host state) := by
  have bounded := Configuration.bounded_of_settings valid
  rcases settings.site_cases order with ⟨cause, refuses⟩ | ⟨site, found, _⟩
  · have refused := site_of_refuses refuses
    have run : (settings.provision order).run host state = (.error cause, state) := by
      rw [provision, refused]
      rfl
    have trace : (settings.provision order).trace host state = [] := by
      rw [provision, refused]
      rfl
    rw [run, trace]
    constructor
    case refused =>
      intro other refusesToo
      cases refused.symm.trans (site_of_refuses refusesToo)
      exact ⟨rfl, rfl⟩
    case refusal =>
      intro other same _
      cases same
      exact ⟨refuses, rfl⟩
    case created => simp
    case planned => exact fun never => absurd refuses (never cause)
  · have staged := provision_staged found host state
    constructor
    case refused =>
      intro cause refuses
      cases found.symm.trans (site_of_refuses refuses)
    case refusal =>
      intro cause failed kind
      rcases staged.error_eq failed with ⟨call, fault, _, rfl⟩
      rcases kind with kind | ⟨_, kind⟩ <;> cases kind
    case created =>
      intro path mode _ fault failed
      rcases staged.error_eq failed with ⟨call, _, _, kind⟩
      cases kind
    case planned =>
      intro _
      refine ⟨site, _, _, grants_of_site found, mode_le_of_site bounded found,
        Order.owner_le bounded.user, Order.owner_le bounded.group, staged, ?_,
        fun _ failed => staged.error_eq failed⟩
      rw [granted_eq_answered]
      exact staged.ok_iff

/-- The sample settings as they are written down. -/
def sampleConfiguration : Configuration where
  server := "10.0.0.1"
  path := "/export/k8s"
  provisionerName := "nfs"

/-- An order with a mode and a group of its own, and with a user that is out of range. -/
def annotatedOrder : Order :=
  { sampleOrder with
    claim := Claim.withAnnotation (Claim.withAnnotation (Claim.withAnnotation sampleOrder.claim
      Parameter.modeAnnotation "0750") Parameter.userAnnotation "70000")
      Parameter.groupAnnotation "+100" }

/-- A session on a filesystem that hands nothing to another owner. -/
def ownerlessSession : Session :=
  { sampleSession with
    disk := .recording { failures := [(.changeOwner, "Operation not permitted (os error 1)")] } }

/-- Where the owner cannot be set, the directory was made with its mode before, for the default
user and the group of the annotation. -/
theorem provision_goes_ownerless :
    sampleConfiguration.settings = .ok sample ∧
    (∀ cause, ¬sample.Refuses annotatedOrder cause) ∧
    ∃ site user group, sample.Grants annotatedOrder site user group ∧
      plan site user group = [.createDirectories "/persistentvolumes/default-data-pvc-1" 0o750,
        .setMode "/persistentvolumes/default-data-pvc-1" 0o750,
        .setOwner "/persistentvolumes/default-data-pvc-1" 0 100] ∧
      ((sample.provision annotatedOrder).run Session.host ownerlessSession).1 =
        .error (.filesystem ((Call.setOwner "/persistentvolumes/default-data-pvc-1" 0 100).error
          "Operation not permitted (os error 1)")) := by
  have valid : sampleConfiguration.settings = .ok sample := by decide +kernel
  have never : ∀ cause, ¬sample.Refuses annotatedOrder cause := by
    intro cause refuses
    have refused := site_of_refuses refuses
    have found : sample.site annotatedOrder =
        .ok ⟨⟨"/export/k8s/default-data-pvc-1", "/persistentvolumes/default-data-pvc-1"⟩, 0o750⟩ := by
      decide +kernel
    cases found.symm.trans refused
  have goes := provision_goes valid annotatedOrder Session.host ownerlessSession
  rcases goes.planned never with ⟨site, user, group, grants, _, _, _, staged, _, _⟩
  have calls : (answered ((sample.provision annotatedOrder).trace Session.host
      ownerlessSession)).map Prod.fst =
        [.createDirectories "/persistentvolumes/default-data-pvc-1" 0o750,
          .setMode "/persistentvolumes/default-data-pvc-1" 0o750,
          .setOwner "/persistentvolumes/default-data-pvc-1" 0 100] := by decide +kernel
  have whole := staged.isPrefix
  rw [calls] at whole
  refine ⟨valid, never, site, user, group, grants, (whole.eq_of_length rfl).symm, ?_⟩
  decide +kernel

end Settings
end ExportVolumes
