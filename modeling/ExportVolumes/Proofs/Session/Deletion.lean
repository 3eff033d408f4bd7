import ExportVolumes.Proofs.Filesystem.Release
import ExportVolumes.Proofs.Session.Archives
import ExportVolumes.Proofs.Session.Calls
import ExportVolumes.Proofs.Session.Places

namespace ExportVolumes

/-!
What a deletion leaves of a tree.

`Settings.DeletionLeaves` sets out what comes of it: a deletion that fails, skips or retains leaves
the tree as it is, one that removes takes away the directory of the volume with all that is below
it, and one that archives moves that directory.  This holds of every volume that was laid out below
an absolute mount root, unless the volume is the top of the tree itself
(`Settings.delete_leaves_iff`).
-/

theorem placeOf_pathTo {location : Location}
    (ordinary : ∀ name ∈ location, Path.IsOrdinary name) (here : Location) :
    placeOf here (Tree.pathTo location) = location := by
  rw [placeOf, Tree.pathTo, Path.ofText_text (Path.isRead_of_names ordinary),
    Tree.location_pathTo]

namespace Settings

/-- What comes of a deletion on a tree: its result, its events and the tree that it leaves. -/
inductive DeletionLeaves (settings : Settings) (volume : Volume) (before : Tree) :
    Except ProvisionerError Unit → List Event → Tree → Prop
  | failed {cause : ProvisionerError} :
      DeletionLeaves settings volume before (.error cause) [] before
  | skipped :
      DeletionLeaves settings volume before (.ok ())
        [.deletionSkipped volume.name (settings.layout.localPathFor volume.nfs.path)] before
  | retained :
      DeletionLeaves settings volume before (.ok ())
        [.volumeRetained volume.name volume.nfs.path] before
  | removed {after : Tree} (vacated : Tree.Vacated (settings.home volume) before after) :
      DeletionLeaves settings volume before (.ok ())
        [.volumeDeleted volume.name volume.nfs.path] after
  | archived {after : Tree}
      (moved : before.HasDirectory (settings.home volume) →
        Tree.Archived (settings.home volume)
            (locationOf (settings.layout.archivePathFor volume.nfs.path)) before after ∧
          Tree.KeepsFiles before after) :
      DeletionLeaves settings volume before (.ok ())
        [.volumeArchived volume.name volume.nfs.path
          (settings.layout.archivePathFor volume.nfs.path)] after

theorem DeletionLeaves.eq_of_error {settings : Settings} {volume : Volume} {before after : Tree}
    {cause : ProvisionerError} {events : List Event}
    (leaves : settings.DeletionLeaves volume before (.error cause) events after) :
    after = before := by
  cases leaves
  rfl

theorem DeletionLeaves.moves {settings : Settings} {volume : Volume} {before after : Tree}
    {result : Except ProvisionerError Unit} {events : List Event} {name path archive : String}
    (leaves : settings.DeletionLeaves volume before result events after)
    (told : .volumeArchived name path archive ∈ events)
    (directory : before.HasDirectory (settings.home volume)) :
    Tree.Archived (settings.home volume)
      (locationOf (settings.layout.archivePathFor volume.nfs.path)) before after := by
  cases leaves with
  | archived moved => exact (moved directory).1
  | failed | skipped | retained | removed => simp at told

/-- What the two calls that a deletion may make do to the directory of its volume. -/
structure Releases (settings : Settings) (volume : Volume) (before : Tree) (here : Location) :
    Prop where
  removes : (before.answer here (.pathExists (settings.layout.localPathFor volume.nfs.path))).1 =
      .ok true →
    (∃ fault, before.answer here (.removeTree (settings.layout.localPathFor volume.nfs.path)) =
        (.error fault, before)) ∨
      ∃ after, before.answer here (.removeTree (settings.layout.localPathFor volume.nfs.path)) =
          (.ok true, after) ∧ Tree.Vacated (settings.home volume) before after
  renames : (∃ fault, before.answer here (.rename (settings.layout.localPathFor volume.nfs.path)
        (settings.layout.archivePathFor volume.nfs.path)) = (.error fault, before)) ∨
      ∃ after, before.answer here (.rename (settings.layout.localPathFor volume.nfs.path)
          (settings.layout.archivePathFor volume.nfs.path)) = (.ok true, after) ∧
        (before.HasDirectory (settings.home volume) →
          Tree.Archived (settings.home volume)
            (locationOf (settings.layout.archivePathFor volume.nfs.path)) before after)

namespace Releases

variable {settings : Settings} {volume : Volume} {before after : Tree} {here : Location}
  {result : Except ProvisionerError Unit} {steps : List Step}
  (releases : settings.Releases volume before here)

include releases

theorem release {action : DeletionAction}
    (there : (before.answer here (.pathExists (settings.layout.localPathFor volume.nfs.path))).1 =
      .ok true)
    (run : ReleaseRun settings volume (settings.layout.localPathFor volume.nfs.path) action result
      steps)
    (answers : Tree.Answers here before (answered steps) after) :
    settings.DeletionLeaves volume before result (eventsOf steps) after := by
  cases run with
  | kept =>
      cases answers
      exact .retained
  | unremoved =>
      have told := Tree.Answers.of_single answers
      rcases releases.removes there with ⟨_, refused⟩ | ⟨_, removed, _⟩
      · cases refused.symm.trans told
        exact .failed
      · cases removed.symm.trans told
  | removed =>
      have told := Tree.Answers.of_single answers
      rcases releases.removes there with ⟨_, refused⟩ | ⟨_, removed, vacated⟩
      · cases refused.symm.trans told
      · cases removed.symm.trans told
        exact .removed vacated
  | unarchived =>
      have told := Tree.Answers.of_single answers
      rcases releases.renames with ⟨_, refused⟩ | ⟨_, renamed, _⟩
      · cases refused.symm.trans told
        exact .failed
      · cases renamed.symm.trans told
  | archived =>
      have told := Tree.Answers.of_single answers
      rcases releases.renames with ⟨_, refused⟩ | ⟨_, renamed, archived⟩
      · cases refused.symm.trans told
      · cases renamed.symm.trans told
        exact .archived fun directory => ⟨archived directory, (archived directory).keepsFiles⟩

/-- A deletion leaves what its calls leave, which is its directory removed, its directory moved or
nothing changed. -/
theorem deletion (run : DeletionRun settings volume result steps)
    (answers : Tree.Answers here before (answered steps) after) :
    settings.DeletionLeaves volume before result (eventsOf steps) after := by
  cases run with
  | unseen =>
      cases (Tree.Answers.of_look answers).2
      exact .failed
  | skipped =>
      cases (Tree.Answers.of_look answers).2
      exact .skipped
  | nameless =>
      cases (Tree.Answers.of_look answers).2
      exact .failed
  | unserved =>
      cases (Tree.Answers.of_look answers).2
      exact .failed
  | undecided =>
      cases (Tree.Answers.of_look answers).2
      exact .failed
  | @released name sc policy result steps named decided run =>
      rcases Tree.Answers.of_look answers with ⟨there, onward⟩
      rw [eventsOf_call, eventsOf_findClass]
      exact releases.release there run onward

end Releases

/-! ## Volumes that a layout builds -/

theorem ordinary_root (settings : Settings) {names : List String}
    (ordinary : ∀ name ∈ names, Path.IsOrdinary name) :
    ∀ name ∈ settings.root ++ names, Path.IsOrdinary name := by
  intro name member
  rcases List.mem_append.mp member with above | below
  · exact (Layout.isRead_mountRoot settings.exportPath settings.mountRoot).ordinary name
      (Path.mem_of_mem_names above)
  · exact ordinary name below

section Built

variable {settings : Settings} {paths : VolumePaths}
  (absolute : settings.layout.mountRoot.absolute = true) (built : settings.layout.Builds paths)

include absolute built

/-- Deletion looks for a built volume where it was built, and moves it to a name in the mount root,
both along names from the top. -/
theorem pathTo_of_builds :
    ∃ home place : Location, (∀ name ∈ home, Path.IsOrdinary name) ∧
      (∀ name ∈ place, Path.IsOrdinary name) ∧ paths.localPath = Tree.pathTo home ∧
      settings.layout.localPathFor paths.serverPath = Tree.pathTo home ∧
      settings.layout.archivePathFor paths.serverPath = Tree.pathTo place := by
  rcases Layout.names_of_builds built with ⟨names, ordinary, same⟩
  refine ⟨settings.root ++ names, settings.root ++ [Layout.archiveName paths.serverPath],
    settings.ordinary_root ordinary, settings.ordinary_root (Layout.ordinary_archiveName _),
    ?_, ?_, ?_⟩
  · rw [same]
    exact Layout.text_extend_mountRoot _ _ absolute names
  · rw [same]
    exact Layout.localPathFor_names _ _ absolute ordinary
  · exact Layout.text_extend_mountRoot _ _ absolute [_]

/-- What a rename of a built volume to its archive path does to the tree. -/
theorem archived_of_rename {before renamed : Tree} {here : Location} (rooted : before.Rooted)
    (outcome : before.rename here (settings.layout.localPathFor paths.serverPath)
      (settings.layout.archivePathFor paths.serverPath) = .ok renamed)
    (directory :
      before.HasDirectory (locationOf (settings.layout.localPathFor paths.serverPath))) :
    Tree.Archived (locationOf (settings.layout.localPathFor paths.serverPath))
      (locationOf (settings.layout.archivePathFor paths.serverPath)) before renamed := by
  rcases pathTo_of_builds absolute built with
    ⟨home, place, ordinary, reserved, text, looked, aimed⟩
  rcases Layout.archival_of_builds built outcome with
    ⟨source, target, leaves, enters, sits, aims, archival⟩
  have leaving : settings.layout.localPathFor paths.serverPath = source.text := leaves
  have entering : settings.layout.archivePathFor paths.serverPath = target.text := enters
  have origin : locationOf (settings.layout.localPathFor paths.serverPath) =
      source.location here := by
    rw [sits, text, placeOf_pathTo ordinary, looked, locationOf_pathTo ordinary]
  have goal : locationOf (settings.layout.archivePathFor paths.serverPath) =
      target.location here := by
    refine Eq.trans ?_ aims.symm
    change _ = placeOf here (settings.layout.archivePathFor paths.serverPath)
    rw [aimed, placeOf_pathTo reserved, locationOf_pathTo reserved]
  rw [origin] at directory ⊢
  rw [goal]
  rw [leaving, entering] at outcome
  exact .of_rename rooted archival directory outcome

/-- Below the top, a built volume is released by its calls. -/
theorem releases_of_builds {volume : Volume} {before : Tree} {here : Location}
    (rooted : before.Rooted) (path : volume.nfs.path = paths.serverPath)
    (below : paths.localPath ≠ "/") : settings.Releases volume before here := by
  constructor
  case removes =>
    rcases pathTo_of_builds absolute built with ⟨home, _, ordinary, _, text, looked, _⟩
    rcases List.eq_nil_or_concat home with rfl | ⟨base, name, rfl⟩
    · exact absurd text below
    · rw [List.concat_eq_append] at ordinary looked
      rw [Settings.home, path, looked, locationOf_pathTo ordinary]
      exact Tree.removeTree_cases rooted ordinary
  case renames =>
    rw [Settings.home, path]
    cases outcome : before.rename here (settings.layout.localPathFor paths.serverPath)
        (settings.layout.archivePathFor paths.serverPath) with
    | error cause =>
        refine .inl ⟨cause.message, ?_⟩
        simp only [Tree.answer, outcome]
        rfl
    | ok renamed =>
        refine .inr ⟨renamed, ?_, archived_of_rename absolute built rooted outcome⟩
        simp only [Tree.answer, outcome]
        rfl

end Built

/-! ## The top of the tree -/

/-- A volume that is the top of the tree is emptied, and then its deletion fails. -/
theorem delete_top {session : Session} {settings : Settings} {before : Tree} {here : Location}
    {volume : Volume} {sc : StorageClass} {policy : DeletionPolicy}
    (on : session.On settings before here) (present : before.HasDirectory [])
    (looked : settings.layout.localPathFor volume.nfs.path = "/")
    (served : session.classFor volume = .ok sc) (decided : DeletionPolicy.ofClass sc = .ok policy)
    (removes : policy.action = .remove) :
    (session.delete volume).1 =
        .error (.filesystem ((Call.removeTree "/").error SystemError.busy.message)) ∧
      (session.delete volume).2.On settings (before.dropBelow []) here := by
  have emptied := Tree.removeTree_top present here
  have asked := Session.host_pathExists on.disk "/"
  rw [Tree.pathExists_top present here] at asked
  rcases on.call (.removeTree "/") with ⟨told, onward⟩
  simp only [Tree.answer, emptied] at told onward
  rw [Session.delete, on.settings, Settings.delete, looked, Program.bind_eq_bind, Program.run_bind,
    Program.run_call_ok asked]
  simp only [Program.bind_eq_bind, Program.run_bind, Session.run_classOf, served, decided, removes,
    release, Program.run_call, told]
  exact ⟨rfl, onward⟩

/-- A session on a tree with one class, that has volumes removed. -/
def removingSession (settings : Settings) (tree : Tree) : Session where
  settings
  disk := .tree tree []
  registry := Registry.insert {}
    (({ name := "nfs" } : StorageClass).withParameter "onDelete" "delete")
  bus := { capacity := 1 }

/-- A built volume is deleted with no more effect than `DeletionLeaves` sets out, whatever the
session, unless it is the top of the tree: there is a session then in which its deletion fails and
yet changes the tree. -/
theorem delete_leaves_iff (settings : Settings) {paths : VolumePaths}
    (absolute : settings.layout.mountRoot.absolute = true) (built : settings.layout.Builds paths) :
    (∀ (session : Session) (before : Tree) (here : Location) (volume : Volume),
      session.On settings before here → before.Rooted → volume.nfs.path = paths.serverPath →
      ∃ after, (session.delete volume).2.On settings after here ∧ after.Rooted ∧
        settings.DeletionLeaves volume before (session.delete volume).1
          (eventsOf ((settings.delete volume).trace Session.host session)) after) ↔
      paths.localPath ≠ "/" := by
  constructor
  · intro leaves top
    rcases pathTo_of_builds absolute built with ⟨home, _, _, _, text, looked, _⟩
    rw [← text, top] at looked
    -- A deletion of the top fails, so it should have left the file that is in this tree.
    let tree := sampleTree [] []
    let volume := volumeOf "pvc-1" paths
    have on : (settings.removingSession tree).On settings tree [] := ⟨rfl, rfl⟩
    have present : tree.HasDirectory [] := Tree.hasDirectory_iff.mpr (by decide)
    have atTop : settings.layout.localPathFor volume.nfs.path = "/" := looked
    rcases delete_top on present atTop rfl rfl rfl with ⟨failed, emptied⟩
    rcases leaves _ tree [] volume on (by decide +kernel) rfl with ⟨after, ends, _, left⟩
    rw [failed] at left
    have kept := left.eq_of_error
    have gone := (ends.entry? ["persistentvolumes"]).symm.trans (emptied.entry? _)
    rw [kept] at gone
    exact absurd gone (by decide +kernel)
  · intro below session before here volume on rooted path
    rcases on.delete volume with ⟨after, ends, answers⟩
    have releases : settings.Releases volume before here :=
      releases_of_builds absolute built rooted path below
    refine ⟨after, ends, answers.rooted rooted, ?_⟩
    rw [Session.delete, on.settings]
    exact releases.deletion (deletionRun Session.host settings volume session) answers

/-- A volume with data in it that is archived in place of an empty directory. -/
theorem delete_leaves_archived :
    sample.layout.mountRoot.absolute = true ∧ sample.layout.Builds (samplePaths "gold/data") ∧
    let session := archivingSession (sampleTree ["gold", "data"] [["gold"], ["archived-data"]])
    let volume := volumeOf "pvc-1" (samplePaths "gold/data")
    (session.delete volume).1 = .ok () ∧
      (session.delete volume).2.disk.entry? ["persistentvolumes", "archived-data", "notes"] =
        some (.file 0o644 0 0 "") ∧
      ∀ rest, (session.delete volume).2.disk.entry?
        (["persistentvolumes", "gold", "data"] ++ rest) = none := by
  have absolute : sample.layout.mountRoot.absolute = true := by decide
  have built : sample.layout.Builds (samplePaths "gold/data") :=
    ⟨sampleOrder.claim.metadata, "pvc-1", some "gold/data", by decide +kernel⟩
  refine ⟨absolute, built, ?_⟩
  intro session volume
  let before := sampleTree ["gold", "data"] [["gold"], ["archived-data"]]
  rcases (delete_leaves_iff sample absolute built).mpr (by decide +kernel) session before [] volume
    ⟨rfl, rfl⟩ (by decide +kernel) rfl with ⟨after, ends, _, left⟩
  have told : .volumeArchived "pvc-1" "/export/k8s/gold/data" "/persistentvolumes/archived-data" ∈
      eventsOf ((sample.delete volume).trace Session.host session) := by
    decide +kernel
  have home : sample.home volume = ["persistentvolumes", "gold", "data"] := by decide +kernel
  have place : locationOf (sample.layout.archivePathFor volume.nfs.path) =
      ["persistentvolumes", "archived-data"] := by
    decide +kernel
  have moves := left.moves told (home ▸ Tree.hasDirectory_iff.mpr (by decide +kernel))
  rw [home, place] at moves
  refine ⟨by decide +kernel, ?_, fun rest => ?_⟩
  · rw [ends.entry?]
    exact (moves.moved ["notes"]).trans (by decide +kernel)
  · rw [ends.entry?, moves.vacated rest]

/-- A volume whose pattern is a slash, below the top. -/
def topSettings : Settings :=
  { sample with mountRoot := "/" }

theorem delete_empties_top :
    topSettings.layout.mountRoot.absolute = true ∧
      topSettings.layout.Builds ⟨"/export/k8s", "/"⟩ ∧ (sampleTree ["data"] []).Rooted ∧
      let session := topSettings.removingSession (sampleTree ["data"] [])
      let later := session.delete (volumeOf "pvc-1" ⟨"/export/k8s", "/"⟩)
      later.1 = .error (.filesystem ((Call.removeTree "/").error SystemError.busy.message)) ∧
        session.disk.entry? ["persistentvolumes", "data", "notes"] =
          some (.file 0o644 0 0 "") ∧
        later.2.disk.entry? ["persistentvolumes", "data", "notes"] = none := by
  have built : topSettings.layout.Builds ⟨"/export/k8s", "/"⟩ :=
    ⟨sampleOrder.claim.metadata, "pvc-1", some "/", by decide +kernel⟩
  refine ⟨by decide, built, by decide +kernel, ?_, ?_, ?_⟩ <;> decide +kernel

end Settings
end ExportVolumes
