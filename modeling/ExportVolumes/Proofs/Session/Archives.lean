import ExportVolumes.Proofs.Filesystem.Archival
import ExportVolumes.Proofs.Layout.Archive
import ExportVolumes.Proofs.Provisioner.Events
import ExportVolumes.Proofs.Session.Ledger

namespace ExportVolumes

/-!
Archives of two volumes of one layout.

A deletion that archives is one renaming, after the directory was found and the class said so
(`Session.Archives.renamed`).  Volumes with different archive paths are archived one after the
other as each of them would be alone, unless the second one lives where the first one is archived
to.
-/

namespace Session

variable {session : Session} {tree : Tree} {here : Location}

/-- The storage class that a session serves for a volume. -/
def classFor (session : Session) (volume : Volume) : Except LookupError StorageClass :=
  ((Settings.classOf volume).run host session).1

/-- Where a session looks for a volume. -/
def directoryOf (session : Session) (volume : Volume) : String :=
  session.settings.layout.localPathFor volume.nfs.path

/-- Where a session moves a volume that it archives. -/
def archiveOf (session : Session) (volume : Volume) : String :=
  session.settings.layout.archivePathFor volume.nfs.path

/-- Deletion of a volume succeeds, and its directory is there and its class says to archive it. -/
structure Archives (session : Session) (volume : Volume) (after : Session) : Prop where
  present : (session.disk.answer (.pathExists (session.directoryOf volume))).1 = .ok true
  served : ∃ sc, session.classFor volume = .ok sc ∧ DeletionPolicy.ofClass sc = .ok .archive
  succeeds : session.delete volume = (.ok (), after)

theorem run_classOf (session : Session) (volume : Volume) :
    (Settings.classOf volume).run host session = (session.classFor volume, session) := by
  rw [classFor]
  rcases Settings.classOf_cases volume with missing | ⟨name, _, look⟩
  · rw [missing]
    rfl
  · rw [look]
    rfl

section OnTree

variable {volume : Volume} (disk : session.disk = .tree tree here)

include disk

theorem host_pathExists (path : String) :
    host (.call (.pathExists path)) session =
      ((tree.pathExists here path).mapError SystemError.message, session) := by
  rcases session with ⟨settings, _, registry, lookupFault, bus, notices⟩
  cases disk
  rfl

theorem host_rename (source target : String) :
    host (.call (.rename source target)) session =
      match tree.rename here source target with
      | .ok renamed => (.ok true, { session with disk := .tree renamed here })
      | .error cause => (.error cause.message, session) := by
  rcases session with ⟨settings, _, registry, lookupFault, bus, notices⟩
  cases disk
  simp only [host, Disk.answer, Tree.answer]
  cases tree.rename here source target <;> rfl

/-- A volume whose directory is gone is deleted without a change to the tree. -/
theorem delete_absent (absent : tree.pathExists here (session.directoryOf volume) = .ok false) :
    (session.delete volume).1 = .ok () ∧ (session.delete volume).2.disk = session.disk := by
  have asked := host_pathExists disk (session.directoryOf volume)
  rw [absent] at asked
  have run : session.delete volume = (.ok (), { session with
      notices := .deletionSkipped (session.directoryOf volume) :: session.notices
      bus := session.bus.send (.deletionSkipped volume.name (session.directoryOf volume)) }) := by
    rw [delete, Settings.delete, ← directoryOf, Program.bind_eq_bind, Program.run_bind,
      Program.run_call_ok asked]
    rfl
  rw [run]
  exact ⟨rfl, rfl⟩

/-- A volume that is there and whose class says so is archived. -/
theorem delete_present {sc : StorageClass}
    (present : tree.pathExists here (session.directoryOf volume) = .ok true)
    (served : session.classFor volume = .ok sc)
    (decided : DeletionPolicy.ofClass sc = .ok .archive) :
    session.delete volume =
      (session.settings.release volume (session.directoryOf volume) .archive).run host session := by
  have asked := host_pathExists disk (session.directoryOf volume)
  rw [present] at asked
  rw [delete, Settings.delete, ← directoryOf, Program.bind_eq_bind, Program.run_bind,
    Program.run_call_ok asked]
  simp only [Program.bind_eq_bind, Program.run_bind, run_classOf, served, decided]
  rfl

theorem run_archive (volume : Volume) (directory : String) :
    (session.settings.release volume directory .archive).run host session =
      match tree.rename here directory (session.archiveOf volume) with
      | .ok renamed => (.ok (), { session with
          disk := .tree renamed here
          bus := session.bus.send (.volumeArchived volume.name volume.nfs.path
            (session.archiveOf volume)) })
      | .error cause =>
          (.error (.filesystem ((Call.rename directory (session.archiveOf volume)).error
            cause.message)), session) := by
  have asked := host_rename disk directory (session.archiveOf volume)
  cases outcome : tree.rename here directory (session.archiveOf volume) with
  | error cause =>
      rw [outcome] at asked
      rw [Settings.release, ← archiveOf, Program.bind_eq_bind, Program.run_bind,
        Program.run_call_error asked]
      rfl
  | ok renamed =>
      rw [outcome] at asked
      rw [Settings.release, ← archiveOf, Program.bind_eq_bind, Program.run_bind,
        Program.run_call_ok asked]
      rfl

theorem archives_of_done (present : tree.pathExists here (session.directoryOf volume) = .ok true)
    (served : ∃ sc, session.classFor volume = .ok sc ∧ DeletionPolicy.ofClass sc = .ok .archive)
    (done : (session.delete volume).1 = .ok ()) :
    session.Archives volume (session.delete volume).2 := by
  refine ⟨?_, served, Prod.ext done rfl⟩
  rw [disk]
  simp only [Disk.answer, Tree.answer, present]
  rfl

/-- A deletion that archives has renamed the directory, and leaves the classes as they were. -/
theorem Archives.renamed {after : Session} (archives : session.Archives volume after) :
    tree.pathExists here (session.directoryOf volume) = .ok true ∧
      after.settings = session.settings ∧
      (∀ other, after.classFor other = session.classFor other) ∧
      ∃ renamed, after.disk = .tree renamed here ∧
        tree.rename here (session.directoryOf volume) (session.archiveOf volume) = .ok renamed := by
  rcases archives with ⟨present, ⟨sc, served, decided⟩, succeeds⟩
  have there : tree.pathExists here (session.directoryOf volume) = .ok true := by
    rw [disk] at present
    cases found : tree.pathExists here (session.directoryOf volume) with
    | error cause =>
        simp only [Disk.answer, Tree.answer, found] at present
        cases present
    | ok answer =>
        simp only [Disk.answer, Tree.answer, found] at present
        exact congrArg Except.ok (Except.ok.inj present)
  rw [delete_present disk there served decided, run_archive disk] at succeeds
  cases outcome : tree.rename here (session.directoryOf volume) (session.archiveOf volume) with
  | error cause =>
      simp only [outcome] at succeeds
      cases succeeds
  | ok renamed =>
      simp only [outcome] at succeeds
      cases succeeds
      refine ⟨there, rfl, fun other => ?_, renamed, rfl, rfl⟩
      rcases Settings.classOf_cases other with missing | ⟨name, _, look⟩
      · rw [classFor, classFor, missing]
        rfl
      · rw [classFor, classFor, look]
        rfl

end OnTree

/-- After one directory was archived, deletion of another one that its class has archived succeeds.
Either the other one went along with the first, or it is archived as it would have been alone. -/
theorem delete_archived {tree moved alone : Tree} {here parent : Location}
    {source target aside final : Path} {name otherName : String} {volume : Volume}
    {sc : StorageClass} (disk : session.disk = .tree moved here)
    (looked : session.directoryOf volume = aside.text)
    (aimed : session.archiveOf volume = final.text) (served : session.classFor volume = .ok sc)
    (decided : DeletionPolicy.ofClass sc = .ok .archive)
    (archival : Tree.Archival here parent source target name)
    (archivalOther : Tree.Archival here parent aside final otherName) (ne : name ≠ otherName)
    (beside : ¬ target.location here <+: aside.location here)
    (renamed : tree.rename here source.text target.text = .ok moved)
    (feasible : tree.rename here aside.text final.text = .ok alone)
    (there : tree.pathExists here aside.text = .ok true) :
    (session.delete volume).1 = .ok () ∧
      (∀ rest, (session.delete volume).2.disk.entry? (target.location here ++ rest) =
        tree.get? (source.location here ++ rest)) ∧
      ∀ rest, ¬ source.location here <+: aside.location here ++ rest →
        (session.delete volume).2.disk.entry? (final.location here ++ rest) =
          tree.get? (aside.location here ++ rest) := by
  by_cases inside : source.location here <+: aside.location here
  · have gone := Tree.pathExists_of_inside archival archivalOther beside renamed inside there
    rw [← looked] at gone
    rcases delete_absent disk gone with ⟨done, same⟩
    rw [same, disk]
    refine ⟨done, Tree.get?_archive archival renamed, fun rest below => ?_⟩
    exact absurd (inside.trans (List.prefix_append _ rest)) below
  · have still := Tree.pathExists_of_apart archival archivalOther beside renamed inside there
    have onward := Tree.rename_after archival archivalOther ne beside renamed feasible inside
    have held := Tree.get?_archives archival archivalOther ne beside renamed feasible
    rw [← looked] at still
    have run := delete_present disk still served decided
    rw [run_archive disk, looked, aimed, onward] at run
    rw [run]
    exact ⟨rfl, fun rest => (held rest).1, fun rest => (held rest).2⟩

end Session

namespace Layout

/-- Where archiving a new volume takes it from and to. -/
theorem archival_of_builds {exportPath mountRoot : String} {paths : VolumePaths}
    (built : (ofTexts exportPath mountRoot).Builds paths) {tree renamed : Tree} {here : Location}
    (succeeded : tree.rename here ((ofTexts exportPath mountRoot).localPathFor paths.serverPath)
      ((ofTexts exportPath mountRoot).archivePathFor paths.serverPath) = .ok renamed) :
    ∃ source target : Path,
      (ofTexts exportPath mountRoot).localPathFor paths.serverPath = source.text ∧
      (ofTexts exportPath mountRoot).archivePathFor paths.serverPath = target.text ∧
      source.location here = placeOf here paths.localPath ∧
      target.location here =
        placeOf here ((ofTexts exportPath mountRoot).archivePathFor paths.serverPath) ∧
      Tree.Archival here ((ofTexts exportPath mountRoot).mountRoot.location here) source target
        (archiveName paths.serverPath) := by
  rcases names_of_builds built with ⟨names, ordinary, rfl⟩
  rcases descends_localPathFor exportPath mountRoot ordinary with
    ⟨source, leaves, written, absolute, leads⟩
  let archive := archiveName ((ofTexts exportPath mountRoot).exportRoot.extend names).text
  have aims := Path.location_extend here (ofTexts exportPath mountRoot).mountRoot [archive]
  rw [written] at succeeded
  refine ⟨source, (ofTexts exportPath mountRoot).mountRoot.extend [archive], written, rfl, ?_, ?_,
    leaves, ?_, ?_, aims, ?_, Tree.inhabited_of_rename succeeded, ?_⟩
  · rw [leads, placeOf, location_localPath exportPath mountRoot ordinary]
  · rw [placeOf, ofText_archivePathFor]
  · exact (descends_mountRoot exportPath mountRoot).extend (ordinary_archiveName _)
  · rw [Path.location, ← absolute]
    exact List.prefix_append _ _
  · rw [leads, aims]
    exact fun same => names_ne_archiveName exportPath mountRoot ordinary
      (List.append_cancel_left same)
  · exact List.append_ne_nil_of_right_ne_nil _ (List.cons_ne_nil _ _)

end Layout

namespace Settings

/-- Two new volumes have one archive path exactly when their server paths end in one name.  Where
they have two, and the second volume does not live in the archive of the first one, archiving the
one does not hinder archiving the other: what would be archived alone is archived afterwards too,
or went along with the first, and each archive holds what its directory held. -/
theorem archives_apart (settings : Settings) {one other : VolumePaths}
    (built : settings.layout.Builds one) (builtOther : settings.layout.Builds other) :
    (settings.layout.archivePathFor one.serverPath =
        settings.layout.archivePathFor other.serverPath ↔
      (Path.ofText one.serverPath).fileName? = (Path.ofText other.serverPath).fileName?) ∧
    (settings.layout.archivePathFor one.serverPath ≠
        settings.layout.archivePathFor other.serverPath →
      ¬ Path.LiesIn (Path.ofText (settings.layout.archivePathFor one.serverPath))
        (Path.ofText other.localPath) →
      ∀ (session after alone : Session) (tree : Tree) (here : Location) (first second : Volume),
        session.settings = settings → session.disk = .tree tree here →
        first.nfs.path = one.serverPath → second.nfs.path = other.serverPath →
        session.Archives first after → session.Archives second alone →
        (after.delete second).1 = .ok () ∧
        (∀ rest, (after.delete second).2.disk.entry?
            (placeOf here (settings.layout.archivePathFor one.serverPath) ++ rest) =
          tree.get? (placeOf here one.localPath ++ rest)) ∧
        ∀ rest, ¬ placeOf here one.localPath <+: placeOf here other.localPath ++ rest →
          (after.delete second).2.disk.entry?
              (placeOf here (settings.layout.archivePathFor other.serverPath) ++ rest) =
            tree.get? (placeOf here other.localPath ++ rest)) := by
  refine ⟨Layout.archivePathFor_eq_iff _ _ _ _, ?_⟩
  rintro ne elsewhere session after alone tree here first second rfl disk path pathOther archives
    feasible
  rcases archives.renamed disk with ⟨_, sameSettings, sameClasses, moved, movedDisk, renamed⟩
  rcases feasible.renamed disk with ⟨there, _, _, _, _, renamedAlone⟩
  obtain ⟨exportPath, mountRoot, layout⟩ : ∃ exportPath mountRoot,
      session.settings.layout = Layout.ofTexts exportPath mountRoot := ⟨_, _, rfl⟩
  rw [layout] at built builtOther ne elsewhere ⊢
  rw [Session.directoryOf, Session.archiveOf, layout, path] at renamed
  rw [Session.directoryOf, layout, pathOther] at there
  rw [Session.directoryOf, Session.archiveOf, layout, pathOther] at renamedAlone
  rcases Layout.archival_of_builds built renamed with
    ⟨source, target, origin, goal, sits, aims, archival⟩
  rcases Layout.archival_of_builds builtOther renamedAlone with
    ⟨aside, final, originOther, goalOther, sitsOther, aimsOther, archivalOther⟩
  rw [origin, goal] at renamed
  rw [originOther] at there
  rw [originOther, goalOther] at renamedAlone
  have apart : Layout.archiveName one.serverPath ≠ Layout.archiveName other.serverPath :=
    fun same => ne ((Layout.archivePathFor_eq_iff _ _ _ _).mpr
      ((Layout.archiveName_inj _ _).mp same))
  have beside : ¬ target.location here <+: aside.location here := by
    rw [aims, sitsOther]
    exact fun covers => elsewhere (Layout.liesIn_archive builtOther covers)
  have looked : after.directoryOf second = aside.text := by
    rw [Session.directoryOf, sameSettings, layout, pathOther, originOther]
  have aimed : after.archiveOf second = final.text := by
    rw [Session.archiveOf, sameSettings, layout, pathOther, goalOther]
  rcases feasible.served with ⟨sc, served, decided⟩
  rw [← sameClasses] at served
  rw [← sits, ← aims, ← sitsOther, ← aimsOther]
  exact Session.delete_archived movedDisk looked aimed served decided archival archivalOther apart
    beside renamed renamedAlone there

/-! ## Samples -/

/-- The paths of the sample layout for a pattern. -/
def samplePaths (pattern : String) : VolumePaths :=
  ⟨"/export/k8s/" ++ pattern, "/persistentvolumes/" ++ pattern⟩

/-- A volume in a directory of the sample export. -/
def volumeOf (name : String) (paths : VolumePaths) : Volume :=
  { name
    storageClassName := some "nfs"
    nfs := ⟨sample.server, paths.serverPath, false⟩ }

/-- A tree whose mount root holds a file in a directory and some directories beside it. -/
def sampleTree (filled : Location) (directories : List Location) : Tree :=
  ⟨("persistentvolumes" :: filled ++ ["notes"], .file 0o644 0 0 "") ::
    (filled :: [] :: directories).map (fun names =>
      ("persistentvolumes" :: names, .directory 0o755 0 0)) ++ [([], .directory 0o755 0 0)]⟩

/-- A session on a tree, whose class has volumes archived. -/
def archivingSession (tree : Tree) : Session where
  settings := sample
  disk := .tree tree []
  registry := Registry.insert {} { name := "nfs" }
  bus := { capacity := 1 }

/-- The sample class has a directory archived whenever its deletion succeeds. -/
theorem archives_archivingSession {tree : Tree} {volume : Volume}
    (named : volume.storageClassName = some "nfs")
    (present : tree.pathExists [] ((archivingSession tree).directoryOf volume) = .ok true)
    (done : ((archivingSession tree).delete volume).1 = .ok ()) :
    (archivingSession tree).Archives volume ((archivingSession tree).delete volume).2 := by
  refine Session.archives_of_done rfl present ⟨{ name := "nfs" }, ?_, ?_⟩ done
  · rw [Session.classFor, Settings.classOf, named]
    rfl
  · decide

/-- A session with two directories that end in different names. -/
def goldAndSilver : Tree :=
  sampleTree ["gold", "data"] [["gold"], ["silver"], ["silver", "logs"]]

/-- Two volumes with different last names are archived one after the other. -/
theorem archives_apart_gold_silver :
    let session := archivingSession goldAndSilver
    let later := (session.delete (volumeOf "pvc-1" (samplePaths "gold/data"))).2.delete
      (volumeOf "pvc-2" (samplePaths "silver/logs"))
    later.1 = .ok () ∧
      (∀ rest, later.2.disk.entry? (["persistentvolumes", "archived-data"] ++ rest) =
        goldAndSilver.get? (["persistentvolumes", "gold", "data"] ++ rest)) ∧
      ∀ rest, later.2.disk.entry? (["persistentvolumes", "archived-logs"] ++ rest) =
        goldAndSilver.get? (["persistentvolumes", "silver", "logs"] ++ rest) := by
  have built : sample.layout.Builds (samplePaths "gold/data") :=
    ⟨sampleOrder.claim.metadata, "pvc-1", some "gold/data", by decide +kernel⟩
  have builtOther : sample.layout.Builds (samplePaths "silver/logs") :=
    ⟨sampleOrder.claim.metadata, "pvc-1", some "silver/logs", by decide +kernel⟩
  have archives := @archives_archivingSession goldAndSilver
    (volumeOf "pvc-1" (samplePaths "gold/data")) rfl (by decide +kernel) (by decide +kernel)
  have alone := @archives_archivingSession goldAndSilver
    (volumeOf "pvc-2" (samplePaths "silver/logs")) rfl (by decide +kernel) (by decide +kernel)
  have apart := (archives_apart sample built builtOther).2 (by decide +kernel) (by decide +kernel)
    _ _ _ goldAndSilver [] _ _ rfl rfl rfl rfl archives alone
  rw [show placeOf [] (sample.layout.archivePathFor (samplePaths "gold/data").serverPath) =
      ["persistentvolumes", "archived-data"] by decide +kernel,
    show placeOf [] (sample.layout.archivePathFor (samplePaths "silver/logs").serverPath) =
      ["persistentvolumes", "archived-logs"] by decide +kernel,
    show placeOf [] (samplePaths "gold/data").localPath = ["persistentvolumes", "gold", "data"] by
      decide +kernel,
    show placeOf [] (samplePaths "silver/logs").localPath =
      ["persistentvolumes", "silver", "logs"] by decide +kernel] at apart
  rcases apart with ⟨done, first, second⟩
  refine ⟨done, first, fun rest => second rest ?_⟩
  simp

/-- Two volumes with one last name have one archive, and so the second one cannot be archived.
Where a volume is named like the archive of another one, it takes that archive along. -/
theorem archives_collide :
    (sample.layout.build sampleOrder.claim.metadata "pvc-1" (some "gold/data") =
          .ok (samplePaths "gold/data") ∧
        sample.layout.build sampleOrder.claim.metadata "pvc-2" (some "silver/data") =
          .ok (samplePaths "silver/data") ∧
        (samplePaths "gold/data").localPath ≠ (samplePaths "silver/data").localPath ∧
        sample.layout.archivePathFor (samplePaths "gold/data").serverPath =
          sample.layout.archivePathFor (samplePaths "silver/data").serverPath ∧
        let session := archivingSession
          (sampleTree ["gold", "data"] [["gold"], ["silver"], ["silver", "data"]])
        (session.delete (volumeOf "pvc-2" (samplePaths "silver/data"))).1 = .ok () ∧
          ((session.delete (volumeOf "pvc-1" (samplePaths "gold/data"))).2.delete
              (volumeOf "pvc-2" (samplePaths "silver/data"))).1 =
            .error (.filesystem ((Call.rename "/persistentvolumes/silver/data"
              "/persistentvolumes/archived-data").error SystemError.notEmpty.message))) ∧
      sample.layout.build sampleOrder.claim.metadata "pvc-1" (some "data") =
          .ok (samplePaths "data") ∧
        sample.layout.build sampleOrder.claim.metadata "pvc-2" (some "archived-data") =
          .ok (samplePaths "archived-data") ∧
        sample.layout.archivePathFor (samplePaths "data").serverPath ≠
          sample.layout.archivePathFor (samplePaths "archived-data").serverPath ∧
        let session := archivingSession (sampleTree ["data"] [["archived-data"]])
        let later := (session.delete (volumeOf "pvc-1" (samplePaths "data"))).2.delete
          (volumeOf "pvc-2" (samplePaths "archived-data"))
        later.1 = .ok () ∧
          later.2.disk.entry? ["persistentvolumes", "archived-data"] = none := by
  refine ⟨⟨?_, ?_, ?_, ?_, ?_, ?_⟩, ?_, ?_, ?_, ?_, ?_⟩ <;> decide +kernel

end Settings
end ExportVolumes
