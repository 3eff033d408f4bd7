import ExportVolumes.Proofs.Filesystem.Way
import ExportVolumes.Proofs.Layout.RoundTrip

namespace ExportVolumes

/-!
Names of volume directories without a pattern.

A directory is named by the namespace and the name of its claim and by its volume, with dashes
between them.  Where the namespace ends and the claim begins cannot be read off such a name, but
volume names of one length stand at its end (`Layout.eq_of_dashed_eq`), and the mark of an archive
only makes the text before them longer.
-/

/-- Two names have one length, counted in characters or in octets. -/
def SameLength (first second : String) : Prop :=
  first.length = second.length ∨ first.utf8ByteSize = second.utf8ByteSize

instance (first second : String) : Decidable (SameLength first second) :=
  inferInstanceAs (Decidable (_ ∨ _))

theorem SameLength.symm {first second : String} (same : SameLength first second) :
    SameLength second first :=
  same.imp Eq.symm Eq.symm

/-- A text that ends in another one of the same length is that text. -/
theorem eq_of_append_eq {front text other : String} (whole : front ++ text = other)
    (same : SameLength text other) : text = other := by
  have empty : front = "" := by
    rcases same with characters | octets
    · have sum := congrArg String.length whole
      rw [String.length_append, characters] at sum
      exact String.length_eq_zero_iff.mp (Nat.add_eq_right.mp sum)
    · have sum := congrArg String.utf8ByteSize whole
      rw [String.utf8ByteSize_append, octets] at sum
      exact String.utf8ByteSize_eq_zero_iff.mp (Nat.add_eq_right.mp sum)
  rw [← whole, empty, String.empty_append]

/-- Texts of the same length at the end of one text are the same. -/
theorem eq_of_append_eq_append {front behind text other : String}
    (whole : front ++ text = behind ++ other) (same : SameLength text other) : text = other := by
  have lists := congrArg String.toList whole
  rw [String.toList_append, String.toList_append] at lists
  rcases List.append_eq_append_iff.mp lists with ⟨middle, _, longer⟩ | ⟨middle, _, longer⟩
  · have ends : String.ofList middle ++ other = text := by
      rw [← String.toList_inj, String.toList_append, String.toList_ofList, longer]
    exact (eq_of_append_eq ends same.symm).symm
  · have ends : String.ofList middle ++ text = other := by
      rw [← String.toList_inj, String.toList_append, String.toList_ofList, longer]
    exact eq_of_append_eq ends same

namespace Layout

/-- A text and the name of a volume, with a dash between them. -/
def dashed (label volumeName : String) : String :=
  label ++ "-" ++ volumeName

theorem archiveMark_append_dashed (label volumeName : String) :
    archiveMark ++ dashed label volumeName = dashed (archiveMark ++ label) volumeName := by
  simp only [dashed, String.append_assoc]

/-- The end of a dashed text tells the volume. -/
theorem eq_of_dashed_eq {label otherLabel volumeName otherName : String}
    (whole : dashed label volumeName = dashed otherLabel otherName)
    (same : SameLength volumeName otherName) : volumeName = otherName :=
  eq_of_append_eq_append whole same

theorem archiveMark_append_ne (name : String) : archiveMark ++ name ≠ name := by
  intro whole
  have sum := congrArg String.length whole
  rw [String.length_append] at sum
  have mark : archiveMark.length = 9 := by decide
  omega

theorem isOrdinary_dashed {label volumeName : String} (labelFree : '/' ∉ label.toList)
    (nameFree : '/' ∉ volumeName.toList) : Path.IsOrdinary (dashed label volumeName) := by
  have whole : (dashed label volumeName).toList = label.toList ++ '-' :: volumeName.toList := by
    simp [dashed, String.toList_append]
  have apart : ∀ text : String, '-' ∉ text.toList → dashed label volumeName ≠ text := by
    rintro _ other rfl
    exact other (by rw [whole]; simp)
  refine ⟨apart "" (by decide), apart "." (by decide), apart ".." (by decide), ?_⟩
  rw [whole]
  simp [labelFree, nameFree]

variable (exportPath mountRoot : String) {name : String} (ordinary : Path.IsOrdinary name)

include ordinary

theorem ordinary_singleton : ∀ other ∈ [name], Path.IsOrdinary other := by
  intro other member
  rw [List.mem_singleton.mp member]
  exact ordinary

theorem climbFreeNames?_of_isOrdinary : (Path.ofText name).climbFreeNames? = some [name] := by
  have folded := climbFreeNames?_tail (ordinary_singleton ordinary)
  rwa [show tail [name] = name from String.intercalate_singleton] at folded

theorem build_of_isOrdinary {metadata : ClaimMetadata} {volumeName : String}
    (named : defaultSuffix metadata volumeName = name) :
    (ofTexts exportPath mountRoot).build metadata volumeName none =
      .ok ⟨((ofTexts exportPath mountRoot).exportRoot.extend [name]).text,
        ((ofTexts exportPath mountRoot).mountRoot.extend [name]).text⟩ := by
  refine build_eq_ok_iff.mpr ⟨[name], ?_, rfl⟩
  rw [suffix, named]
  exact climbFreeNames?_of_isOrdinary ordinary

theorem fileName?_serverPath :
    (Path.ofText ((ofTexts exportPath mountRoot).exportRoot.extend [name]).text).fileName? =
      some name := by
  rw [ofText_extend_exportRoot exportPath mountRoot (ordinary_singleton ordinary)]
  simp [Path.fileName?, Path.extend]

/-! ## Places under an absolute mount root -/

variable (absolute : (ofTexts exportPath mountRoot).mountRoot.absolute = true)

omit ordinary in
include absolute in
theorem text_extend_mountRoot (names : List String) :
    ((ofTexts exportPath mountRoot).mountRoot.extend names).text =
      Tree.pathTo ((ofTexts exportPath mountRoot).mountRoot.names ++ names) := by
  have away : (Path.ofText mountRoot).clean ≠ Path.here := by
    intro same
    rw [ofTexts, same] at absolute
    cases absolute
  have form := congrArg Path.components (Path.clean_eq_of_ne_here away)
  rw [← Path.names_clean] at form
  have components : (ofTexts exportPath mountRoot).mountRoot.components =
      (ofTexts exportPath mountRoot).mountRoot.names.map .name := form
  rw [Path.extend, absolute, components, Tree.pathTo, List.map_append]

include absolute

omit ordinary in
/-- Deletion looks for a volume along its names in the mount root. -/
theorem localPathFor_names {names : List String}
    (ordinary : ∀ other ∈ names, Path.IsOrdinary other) :
    (ofTexts exportPath mountRoot).localPathFor
        ((ofTexts exportPath mountRoot).exportRoot.extend names).text =
      Tree.pathTo ((ofTexts exportPath mountRoot).mountRoot.names ++ names) := by
  have away : (ofTexts exportPath mountRoot).mountRoot ≠ Path.here := by
    intro same
    rw [same] at absolute
    cases absolute
  rw [localPathFor_of_belowExport? exportPath mountRoot away
    (belowExport?_extend exportPath mountRoot names) (climbFreeNames?_tail ordinary)]
  exact text_extend_mountRoot exportPath mountRoot absolute names

/-- Deletion looks for a volume under the name of its directory in the mount root. -/
theorem localPathFor_name :
    (ofTexts exportPath mountRoot).localPathFor
        ((ofTexts exportPath mountRoot).exportRoot.extend [name]).text =
      Tree.pathTo ((ofTexts exportPath mountRoot).mountRoot.names ++ [name]) :=
  localPathFor_names exportPath mountRoot absolute (ordinary_singleton ordinary)

/-- The archive of a volume lies beside it, under the marked name of its directory. -/
theorem archivePathFor_name :
    (ofTexts exportPath mountRoot).archivePathFor
        ((ofTexts exportPath mountRoot).exportRoot.extend [name]).text =
      Tree.pathTo ((ofTexts exportPath mountRoot).mountRoot.names ++ [archiveMark ++ name]) := by
  have last := fileName?_serverPath exportPath mountRoot ordinary
  rw [archivePathFor, last, Option.getD_some]
  exact text_extend_mountRoot exportPath mountRoot absolute [archiveMark ++ name]

end Layout
end ExportVolumes
