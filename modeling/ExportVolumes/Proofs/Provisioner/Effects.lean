import ExportVolumes.Proofs.Program.Trace
import ExportVolumes.Provisioner

namespace ExportVolumes

/-!
What provisioning and deletion ask for.

A successful provisioning has made three calls, all on the directory of its site
(`Settings.provision_ok`).  A deletion asks for nothing but to look at the directory of its
volume, to remove it or to move it to its archive (`Settings.delete_onlyAsks`).
-/

/-- The paths that a call removes or moves away. -/
def Call.vacated : Call → List String
  | .removeTree path => [path]
  | .rename source _ => [source]
  | _ => []

/-- The paths that a call removes, moves away or replaces. -/
def Call.touched : Call → List String
  | .removeTree path => [path]
  | .rename source target => [source, target]
  | _ => []

namespace Settings

/-! ## Provisioning -/

theorem build_of_site {settings : Settings} {order : Order} {site : Site}
    (found : settings.site order = .ok site) :
    settings.layout.build order.claim.metadata order.volumeName order.storageClass.pathPattern? =
      .ok site.paths := by
  unfold Settings.site at found
  split at found
  · cases found
  · simp only at found
    split at found
    · cases found
    · rename_i paths built
      split at found
      · cases found
      · cases found
        exact built

theorem ownerId_onlyAsks {allowed : Effect → Prop} (notifies : ∀ notice, allowed (.notify notice))
    (publishes : ∀ event, allowed (.publish event)) (order : Order) (key : String)
    (default : UInt32) : (ownerId order key default).OnlyAsks allowed := by
  unfold ownerId
  split
  · trivial
  · split
    · trivial
    · exact ⟨notifies _, fun _ => ⟨publishes _, fun _ => trivial⟩⟩

theorem ownerId_isSilent (order : Order) (key : String) (default : UInt32) :
    (ownerId order key default).OnlyAsks Program.IsSilent :=
  ownerId_onlyAsks (fun _ _ => Effect.noConfusion) (fun _ _ => Effect.noConfusion) order key default

/-- A program that gives up when its first call fails has, if it succeeds, made the call with
success and gone on. -/
theorem bind_call_ok {α σ : Type} {host : Host σ} {state : σ} {c : Call} {result : α}
    {next : Except FilesystemError Bool → Program (Except ProvisionerError α)}
    (fails : ∀ cause, next (.error cause) = .done (.error (.filesystem cause)))
    (finished : (((Program.call c).bind next).run host state).1 = .ok result) :
    ∃ answer after, host (.call c) state = (.ok answer, after) ∧
      ((Program.call c).bind next).run host state = (next (.ok answer)).run host after ∧
      ((Program.call c).bind next).calls host state =
        c :: (next (.ok answer)).calls host after := by
  rw [Program.run_bind] at finished ⊢
  rw [Program.calls_bind, Program.calls_call]
  cases asked : host (.call c) state with
  | mk answer after =>
      cases answer with
      | error fault =>
          rw [Program.run_call_error asked, fails] at finished
          cases finished
      | ok answer =>
          rw [Program.run_call_ok asked]
          exact ⟨answer, after, rfl, rfl, rfl⟩

theorem provision_ok {σ : Type} {host : Host σ} {state : σ} {settings : Settings} {order : Order}
    {volume : Volume}
    (provisioned : ((settings.provision order).run host state).1 = .ok volume) :
    ∃ site user group, settings.site order = .ok site ∧ volume = settings.volume order site ∧
      (settings.provision order).calls host state =
        [.createDirectories site.paths.localPath site.mode, .setMode site.paths.localPath site.mode,
          .setOwner site.paths.localPath user group] := by
  unfold provision at provisioned ⊢
  cases found : settings.site order with
  | error cause =>
      rw [found] at provisioned
      cases provisioned
  | ok site =>
      simp only [found, Program.bind_eq_bind, Program.pure_eq_done] at provisioned ⊢
      -- Three calls, each with success, and two ids chosen in silence before the last of them.
      rcases bind_call_ok (fun _ => rfl) provisioned with ⟨_, created, _, run, first⟩
      rw [run] at provisioned
      rw [first]
      clear run first
      rcases bind_call_ok (fun _ => rfl) provisioned with ⟨_, moded, _, run, second⟩
      rw [run] at provisioned
      rw [second]
      clear run second
      rcases Program.bind_of_silent (Except ProvisionerError Volume)
          (ownerId_isSilent order Parameter.userAnnotation settings.defaultUser) host moded with
        ⟨user, known, userChosen⟩
      simp only [userChosen] at provisioned ⊢
      rcases Program.bind_of_silent (Except ProvisionerError Volume)
          (ownerId_isSilent order Parameter.groupAnnotation settings.defaultGroup) host known with
        ⟨group, settled, groupChosen⟩
      simp only [groupChosen] at provisioned ⊢
      rcases bind_call_ok (fun _ => rfl) provisioned with ⟨_, owned, _, run, third⟩
      rw [run] at provisioned
      rw [third]
      exact ⟨site, user, group, rfl, (Except.ok.inj provisioned).symm, rfl⟩

/-- What filling an order may ask for. -/
def ProvisionAsks (settings : Settings) (order : Order) : Effect → Prop
  | .call (.createDirectories path _) | .call (.setMode path _) | .call (.setOwner path _ _) =>
      ∃ site, settings.site order = .ok site ∧ path = site.paths.localPath
  | .publish _ | .notify _ => True
  | _ => False

theorem provision_onlyAsks (settings : Settings) (order : Order) :
    (settings.provision order).OnlyAsks (settings.ProvisionAsks order) := by
  unfold provision
  split
  · trivial
  · rename_i site found
    refine Program.OnlyAsks.bind (.call ⟨site, found, rfl⟩) (fun created => ?_)
    cases created with
    | error cause => trivial
    | ok _ =>
        refine Program.OnlyAsks.bind (.call ⟨site, found, rfl⟩) (fun moded => ?_)
        cases moded with
        | error cause => trivial
        | ok _ =>
            have owner : ∀ key default,
                (ownerId order key default).OnlyAsks (settings.ProvisionAsks order) :=
              ownerId_onlyAsks (fun _ => trivial) (fun _ => trivial) order
            refine Program.OnlyAsks.bind (owner _ _) (fun user => ?_)
            refine Program.OnlyAsks.bind (owner _ _) (fun group => ?_)
            refine Program.OnlyAsks.bind (.call ⟨site, found, rfl⟩) (fun owned => ?_)
            cases owned with
            | error cause => trivial
            | ok _ => exact ⟨trivial, fun _ => trivial⟩

/-- A successful provisioning has made the directory of its site, and gone on from there. -/
theorem provision_begins {σ : Type} {host : Host σ} {state : σ} {settings : Settings}
    {order : Order} {volume : Volume}
    (provisioned : ((settings.provision order).run host state).1 = .ok volume) :
    ∃ site answer after, ∃ rest : Program (Except ProvisionerError Volume),
      settings.site order = .ok site ∧
      host (.call (.createDirectories site.paths.localPath site.mode)) state = (.ok answer, after) ∧
      rest.OnlyAsks (settings.ProvisionAsks order) ∧
      (settings.provision order).run host state = rest.run host after := by
  have only := provision_onlyAsks settings order
  unfold provision at provisioned only ⊢
  cases found : settings.site order with
  | error cause =>
      rw [found] at provisioned
      cases provisioned
  | ok site =>
      simp only [found, Program.bind_eq_bind, Program.pure_eq_done] at provisioned only ⊢
      rcases bind_call_ok (fun _ => rfl) provisioned with ⟨answer, after, created, run, _⟩
      exact ⟨site, answer, after, _, rfl, created, only.2 (.ok answer), run⟩

/-! ## Deletion -/

/-- What the deletion of a volume may ask for. -/
def DeletionAsks (settings : Settings) (volume : Volume) : Effect → Prop
  | .call (.pathExists path) => path = settings.layout.localPathFor volume.nfs.path
  | .call (.removeTree path) => path = settings.layout.localPathFor volume.nfs.path
  | .call (.rename source target) =>
      source = settings.layout.localPathFor volume.nfs.path ∧
        target = settings.layout.archivePathFor volume.nfs.path
  | .findClass name => volume.storageClassName = some name
  | .publish event => event.volumeName = volume.name
  | .notify _ => True
  | _ => False

theorem classOf_onlyAsks (settings : Settings) (volume : Volume) :
    (classOf volume).OnlyAsks (settings.DeletionAsks volume) := by
  unfold classOf
  split
  · trivial
  · rename_i name named
    split
    · trivial
    · exact .request named

theorem release_onlyAsks (settings : Settings) (volume : Volume) (action : DeletionAction) :
    (settings.release volume (settings.layout.localPathFor volume.nfs.path) action).OnlyAsks
      (settings.DeletionAsks volume) := by
  cases action with
  | keep => exact ⟨rfl, fun _ => trivial⟩
  | remove =>
      refine Program.OnlyAsks.bind (.call rfl) (fun answer => ?_)
      cases answer with
      | error cause => trivial
      | ok _ => exact ⟨rfl, fun _ => trivial⟩
  | archive =>
      refine Program.OnlyAsks.bind (.call ⟨rfl, rfl⟩) (fun answer => ?_)
      cases answer with
      | error cause => trivial
      | ok _ => exact ⟨rfl, fun _ => trivial⟩

theorem delete_onlyAsks (settings : Settings) (volume : Volume) :
    (settings.delete volume).OnlyAsks (settings.DeletionAsks volume) := by
  refine Program.OnlyAsks.bind (.call rfl) (fun found => ?_)
  match found with
  | .error cause => trivial
  | .ok false => exact ⟨trivial, fun _ => ⟨rfl, fun _ => trivial⟩⟩
  | .ok true =>
      refine Program.OnlyAsks.bind (classOf_onlyAsks settings volume) (fun served => ?_)
      cases served with
      | error cause => trivial
      | ok sc =>
          simp only
          split
          · trivial
          · exact release_onlyAsks settings volume _

/-- Whatever a deletion touches is the place of its volume or the archive of it. -/
theorem touched_of_mem_calls {σ : Type} {host : Host σ} {state : σ} {settings : Settings}
    {volume : Volume} {call : Call} {path : String}
    (made : call ∈ (settings.delete volume).calls host state) (touched : path ∈ call.touched) :
    path = settings.layout.localPathFor volume.nfs.path ∨
      path = settings.layout.archivePathFor volume.nfs.path := by
  have asked := (delete_onlyAsks settings volume).of_mem_calls host state made
  cases call with
  | removeTree other => exact Or.inl ((List.mem_singleton.mp touched).trans asked)
  | rename source target =>
      rcases List.mem_cons.mp touched with here | there
      · exact Or.inl (here.trans asked.1)
      · exact Or.inr ((List.mem_singleton.mp there).trans asked.2)
  | _ => cases touched

theorem vacated_of_mem_calls {σ : Type} {host : Host σ} {state : σ} {settings : Settings}
    {volume : Volume} {call : Call} {path : String}
    (made : call ∈ (settings.delete volume).calls host state) (vacated : path ∈ call.vacated) :
    path = settings.layout.localPathFor volume.nfs.path := by
  have asked := (delete_onlyAsks settings volume).of_mem_calls host state made
  cases call with
  | removeTree other => exact (List.mem_singleton.mp vacated).trans asked
  | rename source target => exact (List.mem_singleton.mp vacated).trans asked.1
  | _ => cases vacated

/-- Where the directory is there and the class of the volume is served with a policy, deletion
goes on as the policy says. -/
theorem calls_delete {σ : Type} {host : Host σ} {state looked found : σ} {settings : Settings}
    {volume : Volume} {className : String} {sc : StorageClass} {policy : DeletionPolicy}
    (present : host (.call (.pathExists (settings.layout.localPathFor volume.nfs.path))) state =
      (.ok true, looked))
    (named : volume.storageClassName = some className) (inhabited : className ≠ "")
    (served : host (.findClass className) looked = (.ok sc, found))
    (decided : DeletionPolicy.ofClass sc = .ok policy) :
    (settings.delete volume).calls host state =
      .pathExists (settings.layout.localPathFor volume.nfs.path) ::
        (settings.release volume (settings.layout.localPathFor volume.nfs.path) policy.action).calls
          host found := by
  have look : classOf volume = Program.findClass className := by
    simp [classOf, named, inhabited]
  have serving : (Program.findClass className).run host looked = (.ok sc, found) := served
  have silent : (Program.findClass className).OnlyAsks Program.IsSilent :=
    .request (fun _ => Effect.noConfusion)
  unfold delete
  rw [Program.bind_eq_bind, Program.calls_bind, Program.calls_call, Program.run_call_ok present]
  simp only [Program.bind_eq_bind, look, List.singleton_append]
  rw [Program.calls_bind, Program.calls_eq_nil silent, serving]
  simp only [decided, List.nil_append]

/-! ## Samples -/

/-- The settings of an export that is mounted at one name below the top. -/
def sample : Settings where
  server := "10.0.0.1"
  exportPath := "/export/k8s"
  mountRoot := "/persistentvolumes"
  provisionerName := "nfs"
  defaultMode := 0o777
  defaultUser := 0
  defaultGroup := 0
  leaderElection := true

/-- An order of a claim without a pattern. -/
def sampleOrder : Order where
  claim := .named "default" "data"
  volumeName := "pvc-1"
  storageClass := { name := "nfs" }

end Settings
end ExportVolumes
