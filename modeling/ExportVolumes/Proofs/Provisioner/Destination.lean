import ExportVolumes.Proofs.Path.Ending
import ExportVolumes.Proofs.Session.Archives

namespace ExportVolumes

/-!
Where a released volume is archived to.

The archive of every server path is one name in the mount root, marked and then taken from the end
of the path as its text shows it.  A volume below the mount root neither lives there nor has it
below its own directory.  A renaming is refused as invalid only where it leads into what it moves
(`Tree.prefix_of_rename_invalid`), and it changes nothing only between two paths to one place, so
the rename of a deletion does neither (`Settings.archive_placed`).
-/

namespace Tree

/-- Renaming one path to another is never refused for leading into what it moves and, where it
succeeds, takes something away from the one place to the other: on every tree and from every
working directory. -/
structure Displaces (source target : String) : Prop where
  apart : ∀ (tree : Tree) (here : Location), tree.rename here source target ≠ .error .invalid
  takes : ∀ (tree renamed : Tree) (here : Location),
    tree.rename here source target = .ok renamed →
      ∃ entry, tree.get? ((Path.ofText source).location here) = some entry ∧
        renamed.get? ((Path.ofText source).location here) = none ∧
        renamed.get? ((Path.ofText target).location here) = some entry

variable {here : Location} {source target : Path} (first : source.Descends)
  (second : target.Descends) (inhabited : source.components ≠ [])
  (inhabited_target : target.components ≠ [])

include first second inhabited inhabited_target

/-- A renaming is refused as invalid only where it leads into what it moves. -/
theorem prefix_of_rename_invalid {tree : Tree}
    (failed : tree.rename here source.text target.text = .error .invalid) :
    source.location here <+: target.location here := by
  rcases tree.rename_reaches first second inhabited inhabited_target with
    ⟨cause, valid, other⟩ | ⟨_, _, _, _, entry, _, _, _, led⟩
  · exact absurd (Except.error.inj (other.symm.trans failed)) valid
  · exact prefix_of_replace_invalid (led.symm.trans failed)

/-- Renaming displaces where the first path never leads to the second or above it. -/
theorem displaces_of_apart (apart : ∀ here, ¬ source.location here <+: target.location here) :
    Displaces source.text target.text where
  apart := fun _ here failed =>
    apart here (prefix_of_rename_invalid first second inhabited inhabited_target failed)
  takes := by
    intro tree renamed here succeeded
    rw [Path.ofText_text first.read, Path.ofText_text second.read]
    have ne : source.location here ≠ target.location here :=
      fun same => apart here (same ▸ List.prefix_rfl)
    rcases (rename_eq_ok_iff first second inhabited inhabited_target).mp succeeded with
      ⟨_, _, _, _, entry, _, _, held, replaced⟩
    rcases (replace_eq_ok_iff ne).mp replaced with ⟨clear, outside, _, rfl⟩
    refine ⟨entry, held, get?_move_source tree outside, ?_⟩
    have moved := get?_move_inside clear outside tree []
    rwa [List.append_nil, List.append_nil, held] at moved

end Tree

namespace Layout

variable (exportPath mountRoot : String)

/-- The archive of a server path is named after what its text ends in. -/
theorem ofText_archivePathFor_of_endsIn {serverPath base : String}
    (ends : Path.EndsIn ('/' :: serverPath.toList) base) :
    Path.ofText ((ofTexts exportPath mountRoot).archivePathFor serverPath) =
      (ofTexts exportPath mountRoot).mountRoot.extend [archiveMark ++ base] := by
  rw [ofText_archivePathFor, archiveName, Path.endsIn_iff.mp ends]

section Names

variable {names : List String} (ordinary : ∀ name ∈ names, Path.IsOrdinary name)

include ordinary

/-- The archive of a volume does not lie behind the names of the volume, if it has any. -/
theorem prefix_archiveName_iff :
    names <+: [archiveName ((ofTexts exportPath mountRoot).exportRoot.extend names).text] ↔
      names = [] := by
  constructor
  · intro covers
    rcases List.prefix_cons_iff.mp covers with nothing | ⟨rest, whole, short⟩
    · exact nothing
    · rw [List.prefix_nil.mp short] at whole
      exact absurd whole (names_ne_archiveName exportPath mountRoot ordinary)
  · rintro rfl
    exact List.nil_prefix

theorem liesIn_archivePathFor_iff :
    Path.LiesIn (Path.ofText ((ofTexts exportPath mountRoot).mountRoot.extend names).text)
        (Path.ofText ((ofTexts exportPath mountRoot).archivePathFor
          ((ofTexts exportPath mountRoot).exportRoot.extend names).text)) ↔ names = [] := by
  rw [ofText_extend_mountRoot exportPath mountRoot ordinary, ofText_archivePathFor, Path.LiesIn,
    Path.names_extend, Path.names_extend, List.prefix_append_right_inj,
    prefix_archiveName_iff exportPath mountRoot ordinary]
  exact and_iff_right rfl

/-- Moving a volume below the mount root to its archive displaces it. -/
theorem displaces_archive (inhabited : names ≠ []) :
    Tree.Displaces
      ((ofTexts exportPath mountRoot).localPathFor
        ((ofTexts exportPath mountRoot).exportRoot.extend names).text)
      ((ofTexts exportPath mountRoot).archivePathFor
        ((ofTexts exportPath mountRoot).exportRoot.extend names).text) := by
  rcases descends_localPathFor exportPath mountRoot ordinary with
    ⟨source, leaves, written, _, leads⟩
  have aimed : (ofTexts exportPath mountRoot).archivePathFor
      ((ofTexts exportPath mountRoot).exportRoot.extend names).text =
        ((ofTexts exportPath mountRoot).mountRoot.extend
          [archiveName ((ofTexts exportPath mountRoot).exportRoot.extend names).text]).text := rfl
  rw [written, aimed]
  refine Tree.displaces_of_apart leaves
    ((descends_mountRoot exportPath mountRoot).extend (ordinary_archiveName _)) ?_ ?_ ?_
  · intro bare
    -- A path without components leads to where it begins, and the volume lies deeper.
    have nowhere : source.names = [] := by
      rw [Path.names, bare]
      rfl
    have deeper := leads []
    simp only [Path.location, nowhere, ite_self, List.nil_append] at deeper
    exact inhabited (List.append_eq_nil_iff.mp deeper.symm).2
  · exact List.append_ne_nil_of_right_ne_nil _ (List.cons_ne_nil _ _)
  · intro here covers
    rw [leads, Path.location_extend, List.prefix_append_right_inj] at covers
    exact inhabited ((prefix_archiveName_iff exportPath mountRoot ordinary).mp covers)

end Names

end Layout

namespace Settings

/-- The archive of a server path is one name in the cleaned mount root, the mark and what the path
ends in.  For a new volume it lies elsewhere than the volume and outside of its directory exactly
when the volume lies below the mount root; then every rename that a deletion of the volume asks for
displaces its directory. -/
theorem archive_placed (settings : Settings) :
    (∀ serverPath, ∃ base, Path.EndsIn ('/' :: serverPath.toList) base ∧
      (∀ other, Path.EndsIn ('/' :: serverPath.toList) other → other = base) ∧
      settings.layout.archivePathFor serverPath =
        ((Path.ofText settings.mountRoot).clean.extend ["archived-" ++ base]).text ∧
      Path.ofText (settings.layout.archivePathFor serverPath) =
        (Path.ofText settings.mountRoot).clean.extend ["archived-" ++ base]) ∧
    ∀ paths, settings.layout.Builds paths →
      (¬ Path.LiesIn (Path.ofText paths.localPath)
          (Path.ofText (settings.layout.archivePathFor paths.serverPath)) ↔
        Path.LiesBelow settings.layout.mountRoot (Path.ofText paths.localPath)) ∧
      (Path.LiesBelow settings.layout.mountRoot (Path.ofText paths.localPath) →
        ∀ (σ : Type) (host : Host σ) (state : σ) (volume : Volume) (source target : String),
          volume.nfs.path = paths.serverPath →
          .rename source target ∈ (settings.delete volume).calls host state →
            Tree.Displaces source target) := by
  constructor
  · intro serverPath
    let base := (Path.ofText serverPath).fileName?.getD ""
    have ends : Path.EndsIn ('/' :: serverPath.toList) base := Path.endsIn_iff.mpr rfl
    exact ⟨base, ends, fun other found => Path.endsIn_iff.mp found, rfl,
      Layout.ofText_archivePathFor_of_endsIn _ _ ends⟩
  · intro paths built
    rcases Layout.names_of_builds built with ⟨names, ordinary, rfl⟩
    have below : Path.LiesBelow settings.layout.mountRoot
        (Path.ofText (settings.layout.mountRoot.extend names).text) ↔ names ≠ [] := by
      rw [layout, Layout.ofText_extend_mountRoot _ _ ordinary, Path.liesBelow_extend_iff]
    constructor
    · exact (Layout.liesIn_archivePathFor_iff _ _ ordinary).not.trans below.symm
    · intro deep σ host state volume source target path asked
      have named := (settings.delete_onlyAsks volume).of_mem_calls host state asked
      rw [named.1, named.2, path]
      exact Layout.displaces_archive _ _ ordinary (below.mp deep)

/-- A volume whose name is marked like an archive. -/
def markedPaths : VolumePaths := samplePaths "team/archived-data"

/-- A volume that is named like an archive is displaced all the same, and what follows its name in
the text of its server path does not change its archive. -/
theorem archive_placed_marked :
    sample.layout.Builds markedPaths ∧
      Path.LiesBelow sample.layout.mountRoot (Path.ofText markedPaths.localPath) ∧
      .rename markedPaths.localPath "/persistentvolumes/archived-archived-data" ∈
        (sample.delete (volumeOf "pvc-1" markedPaths)).calls Session.host
          (archivingSession (sampleTree ["team", "archived-data"] [["team"]])) ∧
      Tree.Displaces markedPaths.localPath "/persistentvolumes/archived-archived-data" ∧
      Path.EndsIn ('/' :: "/export/k8s/team/archived-data//./".toList) "archived-data" ∧
      sample.layout.archivePathFor "/export/k8s/team/archived-data//./" =
        "/persistentvolumes/archived-archived-data" := by
  have built : sample.layout.Builds markedPaths :=
    ⟨sampleOrder.claim.metadata, "pvc-1", some "team/archived-data", by decide +kernel⟩
  have below : Path.LiesBelow sample.layout.mountRoot (Path.ofText markedPaths.localPath) :=
    ⟨by decide, ["team", "archived-data"], by decide, by decide +kernel⟩
  have asked : .rename markedPaths.localPath "/persistentvolumes/archived-archived-data" ∈
      (sample.delete (volumeOf "pvc-1" markedPaths)).calls Session.host
        (archivingSession (sampleTree ["team", "archived-data"] [["team"]])) := by
    decide +kernel
  have ends : Path.EndsIn ('/' :: "/export/k8s/team/archived-data//./".toList) "archived-data" :=
    Path.endsIn_iff.mpr (by decide +kernel)
  rcases (archive_placed sample).1 "/export/k8s/team/archived-data//./" with
    ⟨base, _, only, archived, _⟩
  rw [← only _ ends] at archived
  exact ⟨built, below, asked,
    ((archive_placed sample).2 _ built).2 below _ _ _ _ _ _ rfl asked, ends,
    archived.trans (by decide +kernel)⟩

end Settings
end ExportVolumes
