import ExportVolumes.Layout
import ExportVolumes.Proofs.Path.Folding

namespace ExportVolumes

/-!
From the server's side of a layout back to this process.

A volume is built with one suffix under two roots, and its descriptor keeps the server path
only.  Mapping that text back strips the text of the export, tests for a slash and cleans what
is left behind the mount root; the statements here say that it arrives where the volume was
built, also for a server path whose suffix was never put into its normal form.
-/

/-! ## Texts -/

namespace Layout

theorem dropPrefix?_append (start rest : String) :
    dropPrefix? start (start ++ rest) = some rest := by
  rw [dropPrefix?, String.toList_append, Pattern.dropLiteral?_append, Option.map_some,
    String.ofList_toList]

/-- A text that follows the export after a slash lies below the export. -/
theorem belowExport?_append_slash (layout : Layout) (suffix : String) :
    layout.belowExport? (layout.exportRoot.text ++ "/" ++ suffix) =
      some (dropSlashes suffix) := by
  have slash : ("/" ++ suffix).toList = '/' :: suffix.toList := by
    rw [String.toList_append]
    rfl
  have trimmed : dropSlashes ("/" ++ suffix) = dropSlashes suffix := by
    rw [dropSlashes, slash, List.dropWhile_cons_of_pos (by decide), dropSlashes]
  simp only [belowExport?, String.append_assoc, dropPrefix?_append, slash, List.head?_cons,
    or_true, if_true, trimmed]

/-! ## Suffixes without their leading slashes -/

theorem steps_dropSlashes (suffix : String) :
    Path.steps (dropSlashes suffix).toList = Path.steps suffix.toList := by
  rw [dropSlashes, String.toList_ofList]
  induction suffix.toList with
  | nil => rfl
  | cons c rest ih =>
      by_cases slash : c = '/'
      · rw [List.dropWhile_cons_of_pos (by simpa using slash), ih, slash,
          ← List.nil_append ('/' :: rest), Path.steps_append_slash]
        rfl
      · rw [List.dropWhile_cons_of_neg (by simpa using slash)]

theorem ofText_dropSlashes_relative (suffix : String) :
    (Path.ofText (dropSlashes suffix)).absolute = false := by
  rw [Path.ofText, Path.ofChars_eq, dropSlashes, String.toList_ofList]
  apply decide_eq_false
  intro slash
  have outside := List.head?_dropWhile_not (fun c : Char => decide (c = '/')) suffix.toList
  rw [slash] at outside
  simp at outside

/-- What is found below the export never starts at the top. -/
theorem ofText_relative_of_belowExport? {layout : Layout} {serverPath suffix : String}
    (below : layout.belowExport? serverPath = some suffix) :
    (Path.ofText suffix).absolute = false := by
  unfold belowExport? at below
  simp only at below
  split at below
  · cases below
  · split at below
    · cases below
      exact ofText_dropSlashes_relative _
    · cases below

/-- Taking the leading slashes off a suffix changes nothing of where it leads. -/
theorem ascent_dropSlashes (suffix : String) :
    Path.ascent (Path.ofText (dropSlashes suffix)).components =
      Path.ascent (Path.ofText suffix).components := by
  have marked : ∀ chars : List Char,
      Path.ascent (Path.ofChars chars).components = Path.ascent (Path.steps chars) := by
    intro chars
    rw [Path.ofChars_eq]
    by_cases opens : Path.opensHere chars = true
    · rw [if_pos opens]
      rfl
    · rw [if_neg opens, List.nil_append]
  rw [Path.ofText, marked, steps_dropSlashes, ← marked, Path.ofText]

/-! ## Server paths of new volumes -/

/-- The names of a suffix with slashes between them. -/
def tail (names : List String) : String :=
  String.intercalate "/" names

theorem toList_tail (names : List String) :
    (tail names).toList = Path.joined (names.map .name) := by
  rw [tail, String.toList_intercalate, Path.joined, List.map_map]
  rfl

/-- The text of a path behind a root: the text of the root, a slash unless the root is one, and
the names. -/
theorem text_extend (root : Path) {names : List String} (inhabited : names ≠ []) :
    (root.extend names).text =
      if root.components = [] then root.text ++ tail names
      else root.text ++ "/" ++ tail names := by
  rcases root with ⟨absolute, components⟩
  have texts : (names.map Component.name).map Component.text = names := by
    rw [List.map_map]
    exact List.map_id names
  simp only [Path.text, Path.extend, List.map_append, texts, tail]
  by_cases bare : components = []
  · rw [if_pos bare, bare, List.map_nil, List.nil_append, String.intercalate_nil,
      String.append_empty]
    rfl
  · rw [if_neg bare, String.intercalate_append_of_ne_nil (by simpa using bare) inhabited]
    simp only [String.append_assoc]
    rfl

theorem text_clean_of_nil {path : Path} (bare : path.clean.components = []) :
    path.clean.text = "/" := by
  have ne : path.clean ≠ Path.here := by
    intro same
    rw [same] at bare
    cases bare
  have rooted : path.clean.absolute = true := by
    rw [Path.clean_eq_of_ne_here ne, List.map_eq_nil_iff] at bare
    cases kind : path.clean.absolute with
    | true => rfl
    | false =>
        rw [Path.clean_absolute] at kind
        exact absurd (Path.clean_eq_here_iff.mpr ⟨kind, bare⟩) ne
  rw [Path.text, rooted, bare]
  rfl

/-- A layout builds where the suffix of the volume leads, under both of its roots. -/
theorem build_eq_ok_iff {layout : Layout} {metadata : ClaimMetadata} {volumeName : String}
    {pattern : Option String} {paths : VolumePaths} :
    layout.build metadata volumeName pattern = .ok paths ↔
      ∃ names, (Path.ofText (suffix metadata volumeName pattern)).climbFreeNames? = some names ∧
        paths = ⟨(layout.exportRoot.extend names).text, (layout.mountRoot.extend names).text⟩ := by
  simp only [build]
  cases folded : (Path.ofText (suffix metadata volumeName pattern)).climbFreeNames? with
  | none => simp
  | some names =>
      simp only [Except.ok.injEq, Option.some.injEq, exists_eq_left']
      exact eq_comm

theorem isOrdinary_of_climbFreeNames {text name : String} {names : List String}
    (climbFree : (Path.ofText text).climbFreeNames? = some names) (member : name ∈ names) :
    Path.IsOrdinary name :=
  (Path.isRead_ofText text).ordinary name (Path.mem_of_mem_climbFreeNames climbFree member)

variable (exportPath mountRoot : String)

theorem isRead_mountRoot : (ofTexts exportPath mountRoot).mountRoot.IsRead :=
  Path.isRead_clean (Path.isRead_ofText mountRoot).ordinary

theorem isRead_exportRoot : (ofTexts exportPath mountRoot).exportRoot.IsRead :=
  Path.isRead_clean (Path.isRead_ofText exportPath).ordinary

theorem ofText_extend_mountRoot {names : List String}
    (ordinary : ∀ name ∈ names, Path.IsOrdinary name) :
    Path.ofText ((ofTexts exportPath mountRoot).mountRoot.extend names).text =
      (ofTexts exportPath mountRoot).mountRoot.extend names :=
  Path.ofText_text ((isRead_mountRoot exportPath mountRoot).extend ordinary)

theorem ofText_extend_exportRoot {names : List String}
    (ordinary : ∀ name ∈ names, Path.IsOrdinary name) :
    Path.ofText ((ofTexts exportPath mountRoot).exportRoot.extend names).text =
      (ofTexts exportPath mountRoot).exportRoot.extend names :=
  Path.ofText_text ((isRead_exportRoot exportPath mountRoot).extend ordinary)

theorem belowExport?_extend (names : List String) :
    (ofTexts exportPath mountRoot).belowExport?
        ((ofTexts exportPath mountRoot).exportRoot.extend names).text =
      some (dropSlashes (tail names)) := by
  cases names with
  | nil =>
      have same : (ofTexts exportPath mountRoot).exportRoot.extend [] =
          (ofTexts exportPath mountRoot).exportRoot := by
        simp [Path.extend]
      have whole := dropPrefix?_append (ofTexts exportPath mountRoot).exportRoot.text ""
      rw [String.append_empty] at whole
      simp [belowExport?, same, whole, tail]
  | cons name others =>
      rw [text_extend _ (List.cons_ne_nil name others)]
      split
      · rename_i bare
        -- The export is the top: its text is a slash, and no other one follows.
        have slash : (ofTexts exportPath mountRoot).exportRoot.text = "/" := text_clean_of_nil bare
        simp only [belowExport?, dropPrefix?_append, slash, true_or, if_true]
      · exact belowExport?_append_slash _ _

/-- Below the export, a suffix that does not climb leads behind the mount root through the names
that it leaves. -/
theorem localPathFor_of_belowExport? {serverPath suffix : String} {names : List String}
    (rooted : (ofTexts exportPath mountRoot).mountRoot ≠ Path.here)
    (below : (ofTexts exportPath mountRoot).belowExport? serverPath = some (dropSlashes suffix))
    (climbFree : (Path.ofText suffix).climbFreeNames? = some names) :
    (ofTexts exportPath mountRoot).localPathFor serverPath =
      ((ofTexts exportPath mountRoot).mountRoot.extend names).text := by
  rcases Path.climbFreeNames?_eq_some_iff.mp climbFree with ⟨level, stacked⟩
  have relative := ofText_dropSlashes_relative suffix
  have reached := Path.names_join (Path.ofText mountRoot) relative
  rw [ascent_dropSlashes, level, Nat.sub_zero, List.take_length, stacked] at reached
  have absolute := Path.join_clean_absolute (Path.ofText mountRoot) relative
  have reaches : ((ofTexts exportPath mountRoot).mountRoot.join
      (Path.ofText (dropSlashes suffix))).clean =
        (ofTexts exportPath mountRoot).mountRoot.extend names :=
    Path.clean_eq_extend rooted absolute reached
  simp only [localPathFor, below, reaches]

theorem climbFreeNames?_tail {names : List String}
    (ordinary : ∀ name ∈ names, Path.IsOrdinary name) :
    (Path.ofText (tail names)).climbFreeNames? = some names := by
  have written : (⟨false, names.map .name⟩ : Path).text = tail names := by
    rw [← String.toList_inj, Path.toList_text, toList_tail]
    rfl
  rw [Path.climbFreeNames?_eq_some_iff, ← written,
    Path.ofText_text (Path.isRead_of_names ordinary), Path.ascent_names]
  exact ⟨rfl, List.reverse_reverse names⟩

/-- The suffix that is found in the server path of a new volume does not climb. -/
theorem ascent_tail {names : List String} (ordinary : ∀ name ∈ names, Path.IsOrdinary name) :
    Path.ascent (Path.ofText (dropSlashes (tail names))).components = ⟨0, names.reverse⟩ := by
  rcases Path.climbFreeNames?_eq_some_iff.mp (climbFreeNames?_tail ordinary) with ⟨level, stacked⟩
  rw [ascent_dropSlashes]
  cases folded : Path.ascent (Path.ofText (tail names)).components with
  | mk levels stack =>
      rw [folded] at level stacked
      rw [show levels = 0 from level, ← stacked, List.reverse_reverse]

/-- Deletion looks for a volume where provisioning put it.  The server path of every volume
built under two roots is mapped to its place in this process, and so is every text that puts a
suffix which does not climb behind the export as it stands. -/
theorem localPathFor_serverPath
    (rooted : (ofTexts exportPath mountRoot).mountRoot.text ≠ ".") :
    (∀ metadata volumeName pattern paths,
      (ofTexts exportPath mountRoot).build metadata volumeName pattern = .ok paths →
        (ofTexts exportPath mountRoot).localPathFor paths.serverPath = paths.localPath) ∧
    (∀ suffix names, (Path.ofText suffix).climbFreeNames? = some names →
      (ofTexts exportPath mountRoot).localPathFor
          ((ofTexts exportPath mountRoot).exportRoot.text ++ "/" ++ suffix) =
        ((ofTexts exportPath mountRoot).mountRoot.extend names).text) := by
  have away : (ofTexts exportPath mountRoot).mountRoot ≠ Path.here :=
    fun same => rooted (same ▸ rfl)
  constructor
  · intro metadata volumeName pattern paths built
    rcases build_eq_ok_iff.mp built with ⟨names, climbFree, rfl⟩
    exact localPathFor_of_belowExport? exportPath mountRoot away
      (belowExport?_extend exportPath mountRoot names)
      (climbFreeNames?_tail (fun name member => isOrdinary_of_climbFreeNames climbFree member))
  · intro suffix names climbFree
    exact localPathFor_of_belowExport? exportPath mountRoot away
      (belowExport?_append_slash _ suffix) climbFree

/-- A trailing slash of the export, doubled slashes and a name that is taken back do not lead
deletion astray. -/
theorem localPathFor_serverPath_untidy :
    (ofTexts "/export/k8s/" "/persistentvolumes").mountRoot.text ≠ "." ∧
    ((ofTexts "/export/k8s/" "/persistentvolumes").build ⟨"data", "a//..", .empty, .empty⟩ "pvc-9"
        none = .ok ⟨"/export/k8s/a/..-data-pvc-9", "/persistentvolumes/a/..-data-pvc-9"⟩ ∧
      (ofTexts "/export/k8s/" "/persistentvolumes").localPathFor "/export/k8s/a/..-data-pvc-9" =
        "/persistentvolumes/a/..-data-pvc-9") ∧
    (Path.ofText "/gold/./spare/..//data/").climbFreeNames? = some ["gold", "data"] ∧
    (ofTexts "/export/k8s/" "/persistentvolumes").localPathFor
        ((ofTexts "/export/k8s/" "/persistentvolumes").exportRoot.text ++ "/" ++
          "/gold/./spare/..//data/") =
      ((ofTexts "/export/k8s/" "/persistentvolumes").mountRoot.extend ["gold", "data"]).text := by
  have rooted : (ofTexts "/export/k8s/" "/persistentvolumes").mountRoot.text ≠ "." := by decide
  have built : (ofTexts "/export/k8s/" "/persistentvolumes").build ⟨"data", "a//..", .empty, .empty⟩
      "pvc-9" none =
        .ok ⟨"/export/k8s/a/..-data-pvc-9", "/persistentvolumes/a/..-data-pvc-9"⟩ := by decide
  have folded :
      (Path.ofText "/gold/./spare/..//data/").climbFreeNames? = some ["gold", "data"] := by
    decide
  have both := localPathFor_serverPath "/export/k8s/" "/persistentvolumes" rooted
  exact ⟨rooted, ⟨built, both.1 _ _ _ _ built⟩, folded, both.2 _ _ folded⟩

end Layout
end ExportVolumes
