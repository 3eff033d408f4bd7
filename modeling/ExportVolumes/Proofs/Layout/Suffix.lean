import ExportVolumes.Proofs.Layout.RoundTrip
import ExportVolumes.Proofs.Path.Climbing

namespace ExportVolumes

/-!
Which suffixes a layout takes, and where it lays a volume with them.

The suffix of a volume is told by `Layout.IsSuffix`, and what becomes of it by `Layout.Lays`: it is
refused if its components climb, and otherwise they fold to names that are the same under both
roots.  The main statement is `Layout.build_lays`.
-/

namespace Layout

/-- The suffix of a volume: what the pattern expands to, unless this is empty or there is none. -/
inductive IsSuffix (metadata : ClaimMetadata) (volumeName : String) :
    Option String → String → Prop
  | expanded {pattern : String} (inhabited : Template.expand pattern metadata ≠ "") :
      IsSuffix metadata volumeName (some pattern) (Template.expand pattern metadata)
  | named {pattern : Option String}
      (empty : ∀ given, pattern = some given → Template.expand given metadata = "") :
      IsSuffix metadata volumeName pattern
        (metadata.namespaceName ++ "-" ++ metadata.name ++ "-" ++ volumeName)

/-- Where a volume with a suffix is laid below the cleaned roots, or why it is not. -/
inductive Lays (exportPath mountRoot suffix : String) :
    Except ParameterError VolumePaths → Prop
  | refused (climbs : Path.Climbs (Path.ofText suffix).components) :
      Lays exportPath mountRoot suffix (.error (.escapesRoot suffix))
  | laid {names : List String} (stays : ¬Path.Climbs (Path.ofText suffix).components)
      (folds : ∀ other, Path.FoldsTo (Path.ofText suffix).components other ↔ other = names)
      (ordinary : ∀ name ∈ names, Path.IsOrdinary name) :
      Lays exportPath mountRoot suffix (.ok
        { serverPath := ((Path.ofText exportPath).clean.extend names).text
          localPath := ((Path.ofText mountRoot).clean.extend names).text })

theorem suffix_of_empty {metadata : ClaimMetadata} {pattern : String}
    (empty : Template.expand pattern metadata = "") (volumeName : String) :
    suffix metadata volumeName (some pattern) = suffix metadata volumeName none := by
  simp [suffix, empty]

theorem isSuffix_suffix (metadata : ClaimMetadata) (volumeName : String)
    (pattern : Option String) :
    IsSuffix metadata volumeName pattern (suffix metadata volumeName pattern) := by
  cases pattern with
  | none => exact .named fun given same => by cases same
  | some pattern =>
      by_cases empty : Template.expand pattern metadata = ""
      · rw [suffix_of_empty empty]
        refine .named fun given same => ?_
        rwa [← Option.some.inj same]
      · have expanded : suffix metadata volumeName (some pattern) =
            Template.expand pattern metadata := by
          simp [suffix, empty]
        rw [expanded]
        exact .expanded empty

/-- A volume is laid with the suffix of its pattern or, where this is empty, of its names. -/
theorem build_lays (exportPath mountRoot : String) (metadata : ClaimMetadata)
    (volumeName : String) (pattern : Option String) :
    ∃ suffix, IsSuffix metadata volumeName pattern suffix ∧
      Lays exportPath mountRoot suffix
        ((ofTexts exportPath mountRoot).build metadata volumeName pattern) ∧
      ∀ given, pattern = some given → Template.expand given metadata = "" →
        (ofTexts exportPath mountRoot).build metadata volumeName pattern =
          (ofTexts exportPath mountRoot).build metadata volumeName none := by
  refine ⟨suffix metadata volumeName pattern, isSuffix_suffix metadata volumeName pattern, ?_, ?_⟩
  · simp only [build]
    cases folded : (Path.ofText (suffix metadata volumeName pattern)).climbFreeNames? with
    | none => exact .refused (Path.climbFreeNames?_eq_none_iff.mp folded)
    | some names =>
        refine .laid (fun climbs => ?_) (fun other => ?_) fun name member =>
          isOrdinary_of_climbFreeNames folded member
        · cases folded.symm.trans (Path.climbFreeNames?_eq_none_iff.mpr climbs)
        · rw [Path.foldsTo_iff, folded, Option.some.injEq]
          exact eq_comm
  · rintro given rfl empty
    simp only [build, suffix_of_empty empty]

/-- A suffix may come back to its start but not go above it, wherever it goes afterwards. -/
example : ¬Path.Climbs (Path.ofText "/a/./..//b").components ∧
    Path.Climbs (Path.ofText "a/../../etc/b/c").components := by decide

end Layout
end ExportVolumes
