import ExportVolumes.Proofs.Provisioner.Decision
import ExportVolumes.Proofs.Session.Deletion

namespace ExportVolumes

/-!
Deleting a volume again.

After a deletion that removed or archived a directory nothing is at its path any more, whatever
shape the tree had: an archive never lies at the path of its volume or above it, and what is
replaced by it is empty (`Settings.pathExists_of_removed`, `Settings.pathExists_of_archived`).  So a
deletion that succeeded succeeds again and changes nothing more, and it needs no class for that
unless the volume was retained (`Settings.delete_again`).
-/

/-- An event tells that the directory of a volume is gone: it was removed or archived, or was not
there. -/
def Event.TellsGone : Event → Prop
  | .volumeDeleted .. | .volumeArchived .. | .deletionSkipped .. => True
  | _ => False

namespace Settings

variable {settings : Settings} {paths : VolumePaths} {volume : Volume} {session : Session}
  {before after : Tree} {here : Location}

/-! ## What is gone -/

section Built

variable (built : settings.layout.Builds paths) (path : volume.nfs.path = paths.serverPath)
  (there : (before.answer here
    (.pathExists (settings.layout.localPathFor volume.nfs.path))).1 = .ok true)

include built path there

/-- What was removed is not there any more. -/
theorem pathExists_of_removed (absolute : settings.layout.mountRoot.absolute = true)
    (rooted : before.Rooted) {told : Bool}
    (removed : before.answer here
      (.removeTree (settings.layout.localPathFor volume.nfs.path)) = (.ok told, after)) :
    after.pathExists here (settings.layout.localPathFor volume.nfs.path) = .ok false := by
  rcases pathTo_of_builds absolute built with ⟨home, _, ordinary, _, _, looked, _⟩
  rw [path, looked] at there removed ⊢
  rcases List.eq_nil_or_concat home with rfl | ⟨base, name, rfl⟩
  · -- The top is there, so that it is emptied and not removed.
    have present := Tree.hasDirectory_of_pathExists_top (Tree.pathExists_of_answer there)
    have refused := Tree.removeTree_top present here
    change before.answer here (.removeTree "/") = _ at removed
    simp only [Tree.answer, refused] at removed
    cases removed
  · rw [List.concat_eq_append] at ordinary there removed ⊢
    have inhabited : (base ++ [name]).map Component.name ≠ [] := by simp
    rcases Tree.removeTree_cases rooted ordinary there with ⟨_, refused⟩ | ⟨_, done, vacated⟩
    · cases refused.symm.trans removed
    · cases done.symm.trans removed
      refine Tree.pathExists_of_absent (Tree.descends_pathTo ordinary) inhabited
        (Tree.pathExists_of_answer there) List.prefix_rfl ?_ ?_ fun above apart _ => ?_
      · rw [Tree.location_pathTo]
        simp [Tree.start, Route.ofPath]
      · rw [Tree.location_pathTo, vacated, if_pos List.prefix_rfl]
      · rw [Tree.location_pathTo] at apart
        rw [vacated, if_neg apart]

/-- What was archived is not there any more. -/
theorem pathExists_of_archived {told : Bool}
    (archived : before.answer here
      (.rename (settings.layout.localPathFor volume.nfs.path)
        (settings.layout.archivePathFor volume.nfs.path)) = (.ok told, after)) :
    after.pathExists here (settings.layout.localPathFor volume.nfs.path) = .ok false := by
  have renamed := Tree.rename_of_answer archived
  rw [path] at there renamed ⊢
  rcases Layout.archival_of_builds built renamed with
    ⟨source, target, leaves, enters, _, _, archival⟩
  have leaving : settings.layout.localPathFor paths.serverPath = source.text := leaves
  have entering : settings.layout.archivePathFor paths.serverPath = target.text := enters
  rw [leaving] at there ⊢
  rw [leaving, entering] at renamed
  -- The archive does not lie above the directory, which it would hide.
  have elsewhere : ¬target.location here <+: source.location here := by
    rw [archival.aims]
    exact (Tree.archived_eq archival renamed).2.1
  exact Tree.pathExists_of_inside archival archival elsewhere renamed List.prefix_rfl
    (Tree.pathExists_of_answer there)

omit there in
/-- After a deletion that succeeded the directory is gone, or it was retained. -/
theorem gone_or_retained (absolute : settings.layout.mountRoot.absolute = true)
    (rooted : before.Rooted) {result : Except ProvisionerError Unit} {steps : List Step}
    (done : result = .ok ()) (run : DeletionRun settings volume result steps)
    (answers : Tree.Answers here before (answered steps) after) :
    after.pathExists here (settings.layout.localPathFor volume.nfs.path) = .ok false ∨
      after = before ∧ eventsOf steps = [.volumeRetained volume.name volume.nfs.path] := by
  cases run with
  | skipped =>
      rcases Tree.Answers.of_look answers with ⟨absent, onward⟩
      cases onward
      exact .inl (Tree.pathExists_of_answer absent)
  | @released name sc policy result steps named decided run =>
      rcases Tree.Answers.of_look answers with ⟨there, onward⟩
      rw [eventsOf_call, eventsOf_findClass]
      generalize policy.action = action at run
      cases run with
      | kept =>
          cases onward
          exact .inr ⟨rfl, rfl⟩
      | removed =>
          have told := Tree.Answers.of_single onward
          exact .inl (pathExists_of_removed built path there absolute rooted told)
      | archived =>
          have told := Tree.Answers.of_single onward
          exact .inl (pathExists_of_archived built path there told)
      | unremoved | unarchived => cases done
  | unseen | nameless | unserved | undecided => cases done

end Built

/-! ## Deleting again -/

/-- A volume that is gone is skipped, whatever classes are served. -/
theorem delete_gone {later : Session} (on : later.On settings after here)
    (gone : after.pathExists here (settings.layout.localPathFor volume.nfs.path) = .ok false) :
    (later.delete volume).1 = .ok () ∧ (later.delete volume).2.On settings after here ∧
      eventsOf ((settings.delete volume).trace Session.host later) =
        [.deletionSkipped volume.name (settings.layout.localPathFor volume.nfs.path)] := by
  have absent : after.pathExists here (later.directoryOf volume) = .ok false := by
    rw [Session.directoryOf, on.settings]
    exact gone
  have asked := Session.host_pathExists on.disk (settings.layout.localPathFor volume.nfs.path)
  rw [gone] at asked
  rcases Session.delete_absent on.disk absent with ⟨done, same⟩
  rcases on.delete volume with ⟨left, ends, _⟩
  refine ⟨done, ⟨ends.settings, same.trans on.disk⟩, ?_⟩
  rw [trace_delete_gone Session.host (congrArg Prod.fst asked)]
  rfl

/-- What comes of deleting a volume again, after a deletion that left `after`. -/
structure DeletesAgain (settings : Settings) (volume : Volume) (session : Session) (here : Location)
    (after : Tree) : Prop where
  leaves : (session.delete volume).2.On settings after here
  classes : (session.delete volume).2.findClass = session.findClass
  /-- While the classes are the same, deleting again succeeds and leaves the tree as it is. -/
  repeats : ∀ later : Session, later.On settings after here →
    later.findClass = session.findClass →
    (later.delete volume).1 = .ok () ∧ (later.delete volume).2.On settings after here
  /-- If the directory is gone, this is so with any classes, and is told. -/
  skips : (∃ event ∈ eventsOf ((settings.delete volume).trace Session.host session),
      event.TellsGone) →
    ∀ later : Session, later.On settings after here →
      (later.delete volume).1 = .ok () ∧ (later.delete volume).2.On settings after here ∧
        eventsOf ((settings.delete volume).trace Session.host later) =
          [.deletionSkipped volume.name (settings.layout.localPathFor volume.nfs.path)]

/-- Below an absolute mount root, a built volume that was deleted can be deleted again with no
more effect. -/
theorem delete_again (absolute : settings.layout.mountRoot.absolute = true)
    (built : settings.layout.Builds paths) (on : session.On settings before here)
    (rooted : before.Rooted) (path : volume.nfs.path = paths.serverPath)
    (done : (session.delete volume).1 = .ok ()) :
    ∃ after, settings.DeletesAgain volume session here after := by
  rcases on.delete volume with ⟨after, ends, answers⟩
  have succeeded : ((settings.delete volume).run Session.host session).1 = .ok () := by
    rw [← on.settings]
    exact done
  refine ⟨after, ?_⟩
  rcases gone_or_retained built path absolute rooted succeeded
    (deletionRun Session.host settings volume session) answers with gone | ⟨rfl, told⟩
  · constructor
    case leaves => exact ends
    case classes => exact Session.findClass_run _ _
    case repeats =>
      intro later onLater _
      rcases delete_gone onLater gone with ⟨again, kept, _⟩
      exact ⟨again, kept⟩
    case skips => exact fun _ later onLater => delete_gone onLater gone
  · constructor
    case leaves => exact ends
    case classes => exact Session.findClass_run _ _
    case repeats =>
      intro later onLater served
      rcases on.run_congr (settings.delete volume) onLater served with ⟨same, left, one, other⟩
      rw [Session.delete, on.settings] at ends
      rw [Session.delete, onLater.settings, same, succeeded]
      exact ⟨rfl, one.tree_eq ends ▸ other⟩
    case skips =>
      rintro ⟨event, member, gone⟩
      rw [told, List.mem_singleton] at member
      rw [member] at gone
      exact gone.elim

/-- A session that serves no class any more. -/
def unserving (session : Session) : Session :=
  { session with registry := {} }

theorem on_unserving (on : session.On settings before here) :
    (unserving session).On settings before here :=
  ⟨on.settings, on.disk⟩

/-- A volume that was archived is skipped, also when no class is served any more. -/
theorem delete_again_unserved :
    let session := archivingSession (sampleTree ["gold", "data"] [["gold"]])
    let volume := volumeOf "pvc-1" (samplePaths "gold/data")
    let unserved := unserving (session.delete volume).2
    sample.layout.mountRoot.absolute = true ∧ sample.layout.Builds (samplePaths "gold/data") ∧
      session.On sample (sampleTree ["gold", "data"] [["gold"]]) [] ∧
      (sampleTree ["gold", "data"] [["gold"]]).Rooted ∧ (session.delete volume).1 = .ok () ∧
      session.disk.entry? ["persistentvolumes", "gold", "data", "notes"] =
        some (.file 0o644 0 0 "") ∧
      (unserved.delete volume).1 = .ok () ∧ (unserved.delete volume).2.disk = unserved.disk ∧
      eventsOf ((sample.delete volume).trace Session.host unserved) =
        [.deletionSkipped "pvc-1" "/persistentvolumes/gold/data"] := by
  intro session volume unserved
  have absolute : sample.layout.mountRoot.absolute = true := by decide
  have built : sample.layout.Builds (samplePaths "gold/data") :=
    ⟨sampleOrder.claim.metadata, "pvc-1", some "gold/data", by decide +kernel⟩
  have on : session.On sample (sampleTree ["gold", "data"] [["gold"]]) [] := ⟨rfl, rfl⟩
  have rooted : (sampleTree ["gold", "data"] [["gold"]]).Rooted := by decide +kernel
  have done : (session.delete volume).1 = .ok () := by decide +kernel
  rcases delete_again absolute built on rooted rfl done with ⟨after, again⟩
  have gone : ∃ event ∈ eventsOf ((sample.delete volume).trace Session.host session),
      event.TellsGone := by
    have told : .volumeArchived "pvc-1" "/export/k8s/gold/data" "/persistentvolumes/archived-data" ∈
        eventsOf ((sample.delete volume).trace Session.host session) := by
      decide +kernel
    exact ⟨_, told, trivial⟩
  have onUnserved : unserved.On sample after [] := on_unserving again.leaves
  rcases again.skips gone unserved onUnserved with ⟨once, kept, told⟩
  refine ⟨absolute, built, on, rooted, done, by decide +kernel, once,
    kept.disk.trans onUnserved.disk.symm, told.trans ?_⟩
  decide +kernel

end Settings
end ExportVolumes
