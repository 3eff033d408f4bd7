import ExportVolumes.Proofs.Layout.RoundTrip
import ExportVolumes.Proofs.Provisioner.Effects
import ExportVolumes.Session

namespace ExportVolumes

/-!
How far deletion can reach.

The archive of a volume always lies in the mount root (`Layout.archivePathFor_liesBelow`).  Its
directory does so only under a condition on the server path: below the export, the parent marks
may climb out of the mount root only to come back by the same names, and elsewhere the text with
the first mention of the export replaced has to lead there by itself.  `Layout.Confines` is that
condition, and `Settings.delete_confined_iff` says that it decides whether every deletion stays
inside.  The server path of a volume that was provisioned satisfies it.
-/

namespace Path

theorem IsOrdinary.archived {name : String} (free : '/' ∉ name.toList) :
    IsOrdinary (Layout.archiveMark ++ name) := by
  have opens : (Layout.archiveMark ++ name).toList = "archived-".toList ++ name.toList :=
    String.toList_append
  have apart : ∀ text : String, text.toList.head? ≠ some 'a' →
      Layout.archiveMark ++ name ≠ text := by
    rintro _ other rfl
    exact other (by rw [opens]; rfl)
  refine ⟨apart "" (by decide), apart "." (by decide), apart ".." (by decide), ?_⟩
  rw [opens, List.mem_append, not_or]
  exact ⟨by decide, free⟩

theorem IsRead.no_slash_fileName {path : Path} (read : path.IsRead) :
    '/' ∉ (path.fileName?.getD "").toList := by
  unfold fileName?
  split
  · rename_i name last
    exact (read.ordinary name (List.mem_of_getLast? last)).no_slash
  · decide

end Path

namespace Layout

variable (exportPath mountRoot : String)

theorem archivePathFor_liesBelow (serverPath : String) :
    Path.LiesBelow (ofTexts exportPath mountRoot).mountRoot
      (Path.ofText ((ofTexts exportPath mountRoot).archivePathFor serverPath)) := by
  let name := archiveMark ++ (Path.ofText serverPath).fileName?.getD ""
  have ordinary : ∀ other ∈ [name], Path.IsOrdinary other := by
    intro other member
    rw [List.mem_singleton.mp member]
    exact .archived (Path.isRead_ofText serverPath).no_slash_fileName
  change Path.LiesBelow _
    (Path.ofText ((ofTexts exportPath mountRoot).mountRoot.extend [name]).text)
  rw [ofText_extend_mountRoot exportPath mountRoot ordinary, Path.liesBelow_extend_iff]
  exact List.cons_ne_nil _ _

/-- Whether the directory that a server path is mapped to lies in the mount root. -/
def Confines (layout : Layout) (serverPath : String) : Prop :=
  match layout.belowExport? serverPath with
  | some suffix =>
      let ascent := Path.ascent (Path.ofText suffix).components
      layout.mountRoot.names.drop (layout.mountRoot.names.length - ascent.levels) <+:
        ascent.stack.reverse
  | none =>
      Path.LiesIn layout.mountRoot <| Path.ofText <| String.ofList <|
        replaceFirst layout.exportRoot.text.toList layout.mountRoot.text.toList serverPath.toList

instance (layout : Layout) (serverPath : String) : Decidable (layout.Confines serverPath) := by
  unfold Confines
  split <;> infer_instance

/-- Below the export, the place of a server path is read back as the clean path of the suffix
behind the mount root. -/
theorem ofText_localPathFor_of_belowExport? {serverPath suffix : String}
    (below : (ofTexts exportPath mountRoot).belowExport? serverPath = some suffix) :
    Path.ofText ((ofTexts exportPath mountRoot).localPathFor serverPath) =
      ((ofTexts exportPath mountRoot).mountRoot.join (Path.ofText suffix)).clean := by
  have read :
      ((ofTexts exportPath mountRoot).mountRoot.join (Path.ofText suffix)).clean.IsRead := by
    apply Path.isRead_clean
    intro name member
    rw [show (ofTexts exportPath mountRoot).mountRoot.join (Path.ofText suffix) = _ from
      Path.join_clean (Path.ofText mountRoot) (ofText_relative_of_belowExport? below)] at member
    rcases List.mem_append.mp member with before | behind
    · exact (isRead_mountRoot exportPath mountRoot).ordinary name before
    · exact (Path.isRead_ofText suffix).ordinary name (List.mem_filter.mp behind).1
  rw [localPathFor, below]
  exact Path.ofText_text read

theorem liesIn_localPathFor_iff (serverPath : String) :
    Path.LiesIn (ofTexts exportPath mountRoot).mountRoot
        (Path.ofText ((ofTexts exportPath mountRoot).localPathFor serverPath)) ↔
      (ofTexts exportPath mountRoot).Confines serverPath := by
  unfold Confines
  cases below : (ofTexts exportPath mountRoot).belowExport? serverPath with
  | none =>
      simp only [localPathFor, below]
  | some suffix =>
      have relative := ofText_relative_of_belowExport? below
      have absolute := Path.join_clean_absolute (Path.ofText mountRoot) relative
      have reached := Path.names_join (Path.ofText mountRoot) relative
      simp only
      rw [ofText_localPathFor_of_belowExport? exportPath mountRoot below, Path.LiesIn,
        Path.clean_absolute, Path.names_clean, and_iff_right (by exact absolute)]
      change (Path.ofText mountRoot).clean.names <+:
        ((Path.ofText mountRoot).clean.join (Path.ofText suffix)).names ↔ _
      rw [reached]
      exact Path.prefix_take_append_iff _ _ _

theorem confines_of_build {metadata : ClaimMetadata} {volumeName : String}
    {pattern : Option String} {paths : VolumePaths}
    (built : (ofTexts exportPath mountRoot).build metadata volumeName pattern = .ok paths) :
    (ofTexts exportPath mountRoot).Confines paths.serverPath := by
  rcases build_eq_ok_iff.mp built with ⟨names, climbFree, rfl⟩
  unfold Confines
  rw [belowExport?_extend]
  simp only
  rw [ascent_tail (fun name member => isOrdinary_of_climbFreeNames climbFree member), Nat.sub_zero,
    List.drop_length]
  exact List.nil_prefix

end Layout

namespace Settings

/-- A session in which a volume of a class that deletes is there to be removed. -/
def removalSession (settings : Settings) (volume : Volume) (className : String) : Session where
  settings := settings
  disk := .recording (.ofPaths [settings.layout.localPathFor volume.nfs.path])
  registry := Registry.insert {}
    { name := className, parameters := Dictionary.empty.insert "onDelete" "delete" }
  bus := { capacity := 1 }

theorem removeTree_mem_calls (settings : Settings) {volume : Volume} {className : String}
    (named : volume.storageClassName = some className) (inhabited : className ≠ "") :
    .removeTree (settings.layout.localPathFor volume.nfs.path) ∈
      (settings.delete volume).calls Session.host (settings.removalSession volume className) := by
  let session := settings.removalSession volume className
  let directory := settings.layout.localPathFor volume.nfs.path
  have answered : session.disk.answer (.pathExists directory) =
      (.ok true, (session.disk.answer (.pathExists directory)).2) := by
    simp [session, directory, removalSession, Disk.answer, Recording.answer, Recording.ofPaths,
      Dictionary.ofList]
  have present : Session.host (.call (.pathExists directory)) session =
      (.ok true, { session with disk := (session.disk.answer (.pathExists directory)).2 }) := by
    simp only [Session.host]
    rw [answered]
  have served : Session.host (.findClass className)
      { session with disk := (session.disk.answer (.pathExists directory)).2 } =
        (.ok { name := className, parameters := Dictionary.empty.insert "onDelete" "delete" },
          { session with disk := (session.disk.answer (.pathExists directory)).2 }) := by
    simp [Session.host, Session.findClass, session, removalSession, Registry.find, Registry.get?,
      Registry.insert, inhabited]
  have decided : DeletionPolicy.ofClass
      { name := className, parameters := Dictionary.empty.insert "onDelete" "delete" } =
        .ok .delete := by
    simp [DeletionPolicy.ofClass, StorageClass.onDelete?]
  rw [calls_delete present named inhabited served decided]
  apply List.mem_cons_of_mem
  rw [DeletionPolicy.action, release, Program.bind_eq_bind, Program.calls_bind, Program.calls_call]
  exact List.mem_cons_self

/-- A deletion stays inside the mount root exactly when its server path is confined: then no
answer of the filesystem or the registry makes it touch anything outside, and otherwise there is
a session in which it removes a directory outside.  Volumes that were provisioned are confined. -/
theorem delete_confined_iff (settings : Settings) (serverPath : String) :
    (settings.layout.Confines serverPath →
      ∀ (σ : Type) (host : Host σ) (state : σ) (volume : Volume), volume.nfs.path = serverPath →
        ∀ call ∈ (settings.delete volume).calls host state, ∀ path ∈ call.touched,
          Path.LiesIn settings.layout.mountRoot (Path.ofText path)) ∧
    (¬ settings.layout.Confines serverPath →
      ∃ (session : Session) (volume : Volume),
        session.settings = settings ∧ volume.nfs.path = serverPath ∧
          ∃ call ∈ (settings.delete volume).calls Session.host session, ∃ path ∈ call.touched,
            ¬ Path.LiesIn settings.layout.mountRoot (Path.ofText path)) ∧
    (∀ metadata volumeName pattern paths,
      settings.layout.build metadata volumeName pattern = .ok paths →
        settings.layout.Confines paths.serverPath) := by
  refine ⟨?_, ?_, ?_⟩
  · rintro confined σ host state volume rfl call made path touched
    rcases touched_of_mem_calls made touched with rfl | rfl
    · exact (Layout.liesIn_localPathFor_iff _ _ _).mpr confined
    · exact (Layout.archivePathFor_liesBelow _ _ _).liesIn
  · intro escapes
    let volume : Volume :=
      { name := "", storageClassName := some "class", nfs := ⟨settings.server, serverPath, false⟩ }
    exact ⟨settings.removalSession volume "class", volume, rfl, rfl, _,
      settings.removeTree_mem_calls rfl (by decide), _, List.mem_singleton_self _,
      fun inside => escapes ((Layout.liesIn_localPathFor_iff _ _ _).mp inside)⟩
  · exact fun metadata volumeName pattern paths built => Layout.confines_of_build _ _ built

/-- A server path that climbs out of the mount root and comes back is confined, and its volume is
removed inside. -/
theorem delete_confined_returning :
    sample.layout.Confines "/export/k8s/../persistentvolumes/gold" ∧
    ∀ call ∈ (sample.delete ⟨"pvc-1", some "class", .delete, [], [], none,
        ⟨"10.0.0.1", "/export/k8s/../persistentvolumes/gold", false⟩⟩).calls Session.host
          (sample.removalSession ⟨"pvc-1", some "class", .delete, [], [], none,
            ⟨"10.0.0.1", "/export/k8s/../persistentvolumes/gold", false⟩⟩ "class"),
      ∀ path ∈ call.touched, Path.LiesIn sample.layout.mountRoot (Path.ofText path) := by
  have confined : sample.layout.Confines "/export/k8s/../persistentvolumes/gold" := by
    decide
  exact ⟨confined, (delete_confined_iff sample _).1 confined _ _ _ _ rfl⟩

/-- A server path with one parent mark too many has a directory outside of the mount root
removed. -/
theorem delete_climbs_out :
    ∃ call ∈ (sample.delete ⟨"pvc-1", some "class", .delete, [], [], none,
        ⟨"10.0.0.1", "/export/k8s/../etc", false⟩⟩).calls Session.host
          (sample.removalSession ⟨"pvc-1", some "class", .delete, [], [], none,
            ⟨"10.0.0.1", "/export/k8s/../etc", false⟩⟩ "class"),
      "/etc" ∈ call.touched ∧ ¬ Path.LiesIn sample.layout.mountRoot (Path.ofText "/etc") := by
  refine ⟨.removeTree "/etc", removeTree_mem_calls sample rfl (by decide), ?_, ?_⟩
  · decide
  · decide

end Settings
end ExportVolumes
