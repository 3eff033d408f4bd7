import ExportVolumes.Proofs.Filesystem.Rename
import ExportVolumes.Proofs.Layout.DefaultNaming
import ExportVolumes.Proofs.Provisioner.Confinement

namespace ExportVolumes

/-!
Where a layout puts the archive of a volume.

An archive is named by the last name of its volume alone, so two volumes have one archive path
exactly when their server paths end alike (`Layout.archivePathFor_eq_iff`).  The directory of a
volume and its archive are both reached by paths that never climb, and are two places.
-/

namespace Path

theorem descends_clean {path : Path}
    (ordinary : ∀ name, .name name ∈ path.components → IsOrdinary name) : path.clean.Descends where
  read := isRead_clean ordinary
  free := by
    by_cases bare : path.clean = here
    · rw [bare]
      decide
    · rw [clean_eq_of_ne_here bare]
      intro member
      rcases List.mem_map.mp member with ⟨name, _, impossible⟩
      cases impossible

theorem Descends.extend {path : Path} (descends : path.Descends) {names : List String}
    (ordinary : ∀ name ∈ names, IsOrdinary name) : (path.extend names).Descends where
  read := descends.read.extend ordinary
  free := by
    intro member
    rcases List.mem_append.mp member with before | behind
    · exact descends.free before
    · rcases List.mem_map.mp behind with ⟨name, _, impossible⟩
      cases impossible

theorem IsRead.fileName?_ne_empty {path : Path} (read : path.IsRead) :
    path.fileName? ≠ some "" := by
  intro last
  unfold fileName? at last
  split at last
  · rename_i found there
    cases last
    exact (read.ordinary _ (List.mem_of_getLast? there)).ne_empty rfl
  · cases last

/-- No file name is empty, so the empty text may stand for none. -/
theorem getD_fileName?_inj {one other : Path} (read : one.IsRead) (readOther : other.IsRead)
    (same : one.fileName?.getD "" = other.fileName?.getD "") :
    one.fileName? = other.fileName? := by
  have inhabited := read.fileName?_ne_empty
  have inhabitedOther := readOther.fileName?_ne_empty
  cases first : one.fileName? with
  | none =>
      cases second : other.fileName? with
      | none => rfl
      | some name =>
          rw [first, second] at same
          cases same
          exact absurd second inhabitedOther
  | some name =>
      cases second : other.fileName? with
      | none =>
          rw [first, second] at same
          cases same
          exact absurd first inhabited
      | some last =>
          rw [first, second] at same
          exact congrArg some same

theorem location_extend (here : Location) (path : Path) (names : List String) :
    (path.extend names).location here = path.location here ++ names := by
  rw [location, names_extend, ← List.append_assoc]
  rfl

end Path

/-- Where the text of a path leads from a working directory. -/
def placeOf (here : Location) (text : String) : Location :=
  (Path.ofText text).location here

namespace Layout

variable (exportPath mountRoot : String)

theorem descends_mountRoot : (ofTexts exportPath mountRoot).mountRoot.Descends :=
  Path.descends_clean (Path.isRead_ofText mountRoot).ordinary

/-! ## Archive paths -/

/-- The name of the archive of a server path. -/
def archiveName (serverPath : String) : String :=
  archiveMark ++ (Path.ofText serverPath).fileName?.getD ""

theorem ordinary_archiveName (serverPath : String) :
    ∀ name ∈ [archiveName serverPath], Path.IsOrdinary name := by
  intro name member
  rw [List.mem_singleton.mp member]
  exact .archived (Path.isRead_ofText serverPath).no_slash_fileName

theorem ofText_archivePathFor (serverPath : String) :
    Path.ofText ((ofTexts exportPath mountRoot).archivePathFor serverPath) =
      (ofTexts exportPath mountRoot).mountRoot.extend [archiveName serverPath] := by
  change Path.ofText
    ((ofTexts exportPath mountRoot).mountRoot.extend [archiveName serverPath]).text = _
  exact ofText_extend_mountRoot exportPath mountRoot (ordinary_archiveName serverPath)

theorem archiveName_inj (one other : String) :
    archiveName one = archiveName other ↔
      (Path.ofText one).fileName? = (Path.ofText other).fileName? := by
  constructor
  · intro same
    have lists := congrArg String.toList same
    rw [archiveName, archiveName, String.toList_append, String.toList_append] at lists
    have ends := String.toList_inj.mp (List.append_cancel_left lists)
    exact Path.getD_fileName?_inj (Path.isRead_ofText one) (Path.isRead_ofText other) ends
  · intro same
    rw [archiveName, archiveName, same]

/-- Two volumes have one archive path exactly when their server paths end in one name. -/
theorem archivePathFor_eq_iff (one other : String) :
    (ofTexts exportPath mountRoot).archivePathFor one =
        (ofTexts exportPath mountRoot).archivePathFor other ↔
      (Path.ofText one).fileName? = (Path.ofText other).fileName? := by
  rw [← archiveName_inj]
  constructor
  · intro same
    have paths := congrArg Path.ofText same
    rw [ofText_archivePathFor, ofText_archivePathFor] at paths
    have names := congrArg Path.names paths
    rw [Path.names_extend, Path.names_extend] at names
    exact List.singleton_inj.mp (List.append_cancel_left names)
  · intro same
    exact congrArg (fun name => ((ofTexts exportPath mountRoot).mountRoot.extend [name]).text) same

/-! ## Directories and archives of new volumes -/

/-- The locations of a volume are those that the layout builds. -/
def Builds (layout : Layout) (paths : VolumePaths) : Prop :=
  ∃ metadata volumeName pattern, layout.build metadata volumeName pattern = .ok paths

variable {exportPath mountRoot}

theorem names_of_builds {paths : VolumePaths}
    (built : (ofTexts exportPath mountRoot).Builds paths) :
    ∃ names, (∀ name ∈ names, Path.IsOrdinary name) ∧
      paths = ⟨((ofTexts exportPath mountRoot).exportRoot.extend names).text,
        ((ofTexts exportPath mountRoot).mountRoot.extend names).text⟩ := by
  rcases built with ⟨metadata, volumeName, pattern, built⟩
  rcases build_eq_ok_iff.mp built with ⟨names, climbFree, same⟩
  exact ⟨names, fun name member => isOrdinary_of_climbFreeNames climbFree member, same⟩

section Names

variable {names : List String} (ordinary : ∀ name ∈ names, Path.IsOrdinary name)

include ordinary

variable (exportPath mountRoot) in
/-- Deletion looks for a volume along a path that never climbs, to the names of the volume behind
the mount root. -/
theorem descends_localPathFor :
    ∃ path : Path, path.Descends ∧
      (ofTexts exportPath mountRoot).localPathFor
        ((ofTexts exportPath mountRoot).exportRoot.extend names).text = path.text ∧
      path.absolute = (ofTexts exportPath mountRoot).mountRoot.absolute ∧
      ∀ here, path.location here =
        (ofTexts exportPath mountRoot).mountRoot.location here ++ names := by
  have below := belowExport?_extend exportPath mountRoot names
  have relative := ofText_relative_of_belowExport? below
  have absolute := Path.join_clean_absolute (Path.ofText mountRoot) relative
  have reached := Path.names_join (Path.ofText mountRoot) relative
  rw [ascent_tail ordinary, Nat.sub_zero, List.take_length, List.reverse_reverse] at reached
  refine ⟨((Path.ofText mountRoot).clean.join (Path.ofText (dropSlashes (tail names)))).clean,
    Path.descends_clean ?_, ?_, (Path.clean_absolute _).trans absolute, fun here => ?_⟩
  · rw [Path.join_clean (Path.ofText mountRoot) relative]
    intro name member
    rcases List.mem_append.mp member with before | behind
    · exact (isRead_mountRoot exportPath mountRoot).ordinary name before
    · exact (Path.isRead_ofText _).ordinary name (List.mem_filter.mp behind).1
  · simp only [localPathFor, below]
    rfl
  · rw [Path.location, Path.clean_absolute, absolute, Path.names_clean, reached,
      ← List.append_assoc]
    rfl

variable (exportPath mountRoot) in
theorem location_localPath (here : Location) :
    (Path.ofText ((ofTexts exportPath mountRoot).mountRoot.extend names).text).location here =
      (ofTexts exportPath mountRoot).mountRoot.location here ++ names := by
  rw [ofText_extend_mountRoot exportPath mountRoot ordinary, Path.location_extend]

variable (exportPath mountRoot) in
/-- The archive of a volume is named after its last name. -/
theorem archiveName_of_getLast? {last : String} (ends : names.getLast? = some last) :
    archiveName ((ofTexts exportPath mountRoot).exportRoot.extend names).text =
      archiveMark ++ last := by
  rw [archiveName, ofText_extend_exportRoot exportPath mountRoot ordinary]
  have inhabited : names ≠ [] := by
    rintro rfl
    cases ends
  have components : ((ofTexts exportPath mountRoot).exportRoot.extend names).components.getLast? =
      some (.name last) := by
    rw [Path.extend, List.getLast?_append_of_ne_nil _ (by simpa using inhabited),
      List.getLast?_map, ends]
    rfl
  rw [Path.fileName?, components]
  rfl

variable (exportPath mountRoot) in
/-- A volume does not live where it is archived to. -/
theorem names_ne_archiveName :
    names ≠ [archiveName ((ofTexts exportPath mountRoot).exportRoot.extend names).text] := by
  intro same
  have ends := congrArg List.getLast? same
  rw [List.getLast?_singleton] at ends
  have marked := archiveName_of_getLast? exportPath mountRoot ordinary ends
  exact archiveMark_append_ne _ marked.symm

end Names

/-- A volume that lives where an archive goes lies in the path of the archive. -/
theorem liesIn_archive {exportPath mountRoot : String} {paths : VolumePaths}
    (built : (ofTexts exportPath mountRoot).Builds paths) {here : Location} {serverPath : String}
    (covers : placeOf here ((ofTexts exportPath mountRoot).archivePathFor serverPath) <+:
      placeOf here paths.localPath) :
    Path.LiesIn (Path.ofText ((ofTexts exportPath mountRoot).archivePathFor serverPath))
      (Path.ofText paths.localPath) := by
  rcases names_of_builds built with ⟨names, ordinary, rfl⟩
  rw [placeOf, placeOf, location_localPath exportPath mountRoot ordinary, ofText_archivePathFor,
    Path.location_extend, List.prefix_append_right_inj] at covers
  rw [ofText_archivePathFor, ofText_extend_mountRoot exportPath mountRoot ordinary]
  refine ⟨rfl, ?_⟩
  rw [Path.names_extend, Path.names_extend, List.prefix_append_right_inj]
  exact covers

end Layout
end ExportVolumes
