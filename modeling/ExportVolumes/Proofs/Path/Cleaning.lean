import ExportVolumes.Proofs.Path.Folding
import Mathlib.Data.Set.List

namespace ExportVolumes

/-!
The laws of cleaning.

`Path.cleanText` cleans a text and writes the result out again, and `Path.joinText` puts one text
behind another; cleaning what was joined reads the texts anew, so the laws are stated on texts.
What a path cleans to is told without a stack by `Path.CleansTo`: the rules of folding, and the one
that nothing lies above the top.  The main statement is `Path.cleaningLaws`.
-/

namespace Path

/-- Components clean to names by dropping the marks of the current directory, by taking out each
name that a parent mark follows, with the mark, and by dropping a parent mark that comes first. -/
inductive CleansTo : List Component → List String → Prop
  | names (names : List String) : CleansTo (names.map .name) names
  | current {front back : List Component} {names : List String}
      (onward : CleansTo (front ++ back) names) : CleansTo (front ++ .current :: back) names
  | parent {front back : List Component} {name : String} {names : List String}
      (onward : CleansTo (front ++ back) names) :
      CleansTo (front ++ .name name :: .parent :: back) names
  | top {back : List Component} {names : List String} (onward : CleansTo back names) :
      CleansTo (.parent :: back) names

/-- The text that a text is cleaned to. -/
def cleanText (text : String) : String :=
  (ofText text).clean.text

/-- Put `second` behind `first`; an absolute `second` replaces `first`.  A slash comes between them
unless `first` is empty or ends in one. -/
def joinText (first second : String) : String :=
  if second.toList.head? = some '/' then second
  else if first = "" ∨ first.toList.getLast? = some '/' then first ++ second
  else first ++ "/" ++ second

/-! ## What is left of the components -/

theorem foldedNames_current (front back : List Component) :
    foldedNames (front ++ .current :: back) = foldedNames (front ++ back) := by
  simp [foldedNames, fold]

theorem foldedNames_name_parent (front back : List Component) (name : String) :
    foldedNames (front ++ .name name :: .parent :: back) = foldedNames (front ++ back) := by
  simp [foldedNames, fold]

/-- Names that are on a stack and components behind them clean to what is on the stack in the
end. -/
theorem cleansTo_foldl (stack : List String) (components : List Component) :
    CleansTo (stack.reverse.map .name ++ components) (components.foldl fold stack).reverse := by
  induction components generalizing stack with
  | nil =>
      rw [List.append_nil]
      exact .names _
  | cons component components ih =>
      cases component with
      | current => exact .current (ih stack)
      | name name =>
          have cleans := ih (name :: stack)
          rwa [List.reverse_cons, List.map_append, List.append_assoc] at cleans
      | parent =>
          cases stack with
          | nil => exact .top (ih [])
          | cons latest others =>
              rw [List.reverse_cons, List.map_append, List.append_assoc]
              exact .parent (ih others)

/-- However its components are cleaned, the names of a path are left. -/
theorem cleansTo_iff {path : Path} {names : List String} :
    CleansTo path.components names ↔ names = path.names := by
  constructor
  · intro cleans
    rw [Path.names]
    generalize path.components = components at cleans
    induction cleans with
    | names names => rw [foldedNames_names]
    | current _ ih => rwa [foldedNames_current]
    | parent _ ih => rwa [foldedNames_name_parent]
    | top _ ih => exact ih
  · rintro rfl
    exact cleansTo_foldl [] path.components

/-! ## The normal form -/

theorem isClean_clean (path : Path) : path.clean.IsClean := by
  by_cases bare : path.clean = here
  · exact Or.inl bare
  · rw [clean_eq_of_ne_here bare]
    refine Or.inr ⟨?_, ?_⟩
    · intro component member
      rcases List.mem_map.mp member with ⟨name, _, same⟩
      exact ⟨name, same.symm⟩
    · intro relative empty
      apply bare
      exact clean_eq_here_iff.mpr ⟨relative, List.map_eq_nil_iff.mp empty⟩

/-- Cleaning leaves clean paths as they are, and no others. -/
theorem clean_eq_self_iff {path : Path} : path.clean = path ↔ path.IsClean := by
  constructor
  · intro same
    exact same ▸ isClean_clean path
  · rcases path with ⟨absolute, components⟩
    rintro (same | ⟨named, inhabited⟩)
    · rw [same]
      rfl
    · have listed : components ∈ Set.range (List.map Component.name) := by
        rw [Set.range_list_map]
        intro component member
        rcases named component member with ⟨name, rfl⟩
        exact ⟨name, rfl⟩
      rcases listed with ⟨names, rfl⟩
      have kept : ¬ (absolute = false ∧ names = []) := by
        rintro ⟨relative, rfl⟩
        exact inhabited relative rfl
      rw [clean, foldedNames_names, ofNames, if_neg kept]

/-- A clean path is the current directory by itself or has no mark. -/
theorem IsClean.unmarked {path : Path} (isClean : path.IsClean) :
    path = here ∨ .current ∉ path.components ∧ .parent ∉ path.components := by
  rcases isClean with bare | ⟨named, _⟩
  · exact Or.inl bare
  · refine Or.inr ⟨?_, ?_⟩
    · intro member
      rcases named _ member with ⟨_, impossible⟩
      cases impossible
    · intro member
      rcases named _ member with ⟨_, impossible⟩
      cases impossible

theorem ofText_cleanText (text : String) : ofText (cleanText text) = (ofText text).clean :=
  ofText_text (isRead_clean (isRead_ofText text).ordinary)

/-! ## Joining -/

/-- Paths that lead through the same names from the same start are cleaned alike. -/
theorem clean_congr {first second : Path} (absolute : first.absolute = second.absolute)
    (names : first.names = second.names) : first.clean = second.clean := by
  rw [clean, clean, absolute]
  exact congrArg (ofNames second.absolute) names

theorem join_absolute (first : Path) {second : Path} (relative : second.absolute = false) :
    (first.join second).absolute = first.absolute := by
  rw [join, relative, if_neg Bool.false_ne_true]
  split
  · rename_i empty
    rw [relative, empty.1]
  · rfl

/-- What was joined folds like the components of both paths. -/
theorem names_join_eq (first : Path) {second : Path} (relative : second.absolute = false) :
    (first.join second).names = foldedNames (first.components ++ second.components) := by
  rw [join, relative, if_neg Bool.false_ne_true]
  split
  · rename_i empty
    rw [empty.2, List.nil_append, names]
  · rw [names, foldedNames_append, ascent_filter, ← foldedNames_append]

/-- A path may be cleaned before another one is put behind it. -/
theorem clean_join (first second : Path) :
    (first.clean.join second).clean = (first.join second).clean := by
  cases kind : second.absolute with
  | true => rw [join, join, kind, if_pos rfl, if_pos rfl]
  | false =>
      apply clean_congr
      · rw [join_absolute _ kind, join_absolute _ kind, clean_absolute]
      · have cleaned : foldedNames first.clean.components = foldedNames first.components :=
          names_clean first
        rw [names_join_eq _ kind, names_join_eq _ kind, foldedNames_append, cleaned,
          ← foldedNames_append]

/-! ## Joining texts -/

theorem ofPiece?_eq_none_iff {piece : List Char} :
    Path.ofPiece? piece = none ↔ piece = [] ∨ piece = ['.'] := by
  unfold Path.ofPiece?
  split <;> simp_all

/-- Only the empty text is read as a path with nothing in it. -/
theorem eq_nil_of_ofChars {chars : List Char} (empty : ofChars chars = ⟨false, []⟩) :
    chars = [] := by
  rw [ofChars_eq, Path.mk.injEq, List.append_eq_nil_iff] at empty
  rcases empty with ⟨relative, unopened, stepless⟩
  cases chars with
  | nil => rfl
  | cons c rest =>
      -- The first piece stands for nothing, so it is empty or a dot; neither can open the text.
      rcases List.head?_eq_some_iff.mp (head?_pieces (c :: rest)) with ⟨others, cut⟩
      rw [steps, cut, List.filterMap_eq_nil_iff] at stepless
      rcases ofPiece?_eq_none_iff.mp (stepless _ List.mem_cons_self) with bare | dot
      · have slash : c = '/' := by simpa [List.takeWhile_cons] using bare
        simp [slash] at relative
      · rw [opensHere, decide_eq_true dot] at unopened
        cases unopened

theorem takeWhile_append_slash (front rest : List Char) :
    (front ++ '/' :: rest).takeWhile (· ≠ '/') = front.takeWhile (· ≠ '/') := by
  induction front with
  | nil => rfl
  | cons c front ih =>
      by_cases slash : c = '/'
      · simp [slash]
      · rw [List.cons_append, List.takeWhile_cons_of_pos (by simpa using slash),
          List.takeWhile_cons_of_pos (by simpa using slash), ih]

/-- Behind a slash, a text adds its steps to what is before. -/
theorem ofChars_append_slash (front rest : List Char) :
    ofChars (front ++ '/' :: rest) =
      { ofChars (front ++ ['/']) with
        components := (ofChars (front ++ ['/'])).components ++ steps rest } := by
  have opens : opensHere (front ++ '/' :: rest) = opensHere (front ++ ['/']) := by
    rw [opensHere, opensHere, takeWhile_append_slash, takeWhile_append_slash]
  have starts : (front ++ '/' :: rest).head? = (front ++ ['/']).head? := by
    cases front <;> rfl
  simp only [ofChars_eq, opens, starts, steps_append_slash, steps_nil, List.append_nil,
    List.append_assoc]

/-- A slash at the end does not count. -/
theorem ofChars_trailing_slash {chars : List Char} (inhabited : chars ≠ []) :
    ofChars (chars ++ ['/']) = ofChars chars := by
  have opens : opensHere (chars ++ ['/']) = opensHere chars := by
    rw [opensHere, takeWhile_append_slash, opensHere]
  rw [ofChars_eq, ofChars_eq, opens, List.head?_append_of_ne_nil _ inhabited, steps_append_slash,
    steps_nil, List.append_nil]

/-- Without the mark of the current directory, a text leads through its steps. -/
theorem filter_components (text : String) :
    (ofText text).components.filter (· ≠ .current) = steps text.toList := by
  have unmarked : (steps text.toList).filter (· ≠ .current) = steps text.toList := by
    rw [List.filter_eq_self]
    intro component member
    exact decide_eq_true fun mark => current_not_mem_steps _ (mark ▸ member)
  rw [ofText, ofChars_eq, List.filter_append, unmarked]
  split <;> rfl

/-- A text that is not empty is joined as it stands or with a slash, before a slash in any case. -/
theorem exists_toList_joinText {first second : String} (inhabited : first ≠ "")
    (relative : second.toList.head? ≠ some '/') :
    ∃ front : List Char, ofChars (front ++ ['/']) = ofText first ∧
      (joinText first second).toList = front ++ '/' :: second.toList := by
  have filled : first.toList ≠ [] := fun empty => inhabited (String.toList_eq_nil_iff.mp empty)
  rw [joinText, if_neg relative]
  by_cases ends : first.toList.getLast? = some '/'
  · rcases List.getLast?_eq_some_iff.mp ends with ⟨front, whole⟩
    refine ⟨front, by rw [ofText, whole], ?_⟩
    rw [if_pos (Or.inr ends), String.toList_append, whole, List.append_assoc,
      List.singleton_append]
  · refine ⟨first.toList, ofChars_trailing_slash filled, ?_⟩
    rw [if_neg (not_or.mpr ⟨inhabited, ends⟩), String.toList_append, String.toList_append,
      List.append_assoc]
    rfl

/-- A joined text is read as the joined paths. -/
theorem ofText_joinText (first second : String) :
    ofText (joinText first second) = (ofText first).join (ofText second) := by
  have kind : (ofText second).absolute = decide (second.toList.head? = some '/') := by
    rw [ofText, ofChars_eq]
  by_cases absolute : second.toList.head? = some '/'
  · rw [joinText, if_pos absolute, join, kind, if_pos (decide_eq_true absolute)]
  · rw [join, kind, if_neg (by simpa using absolute)]
    by_cases bare : first = ""
    · rw [joinText, if_neg absolute, if_pos (Or.inl bare), bare, String.empty_append]
      exact (if_pos ⟨rfl, rfl⟩).symm
    · have inhabited : ¬ ((ofText first).absolute = false ∧ (ofText first).components = []) := by
        rintro ⟨relative, none⟩
        apply bare
        apply String.toList_eq_nil_iff.mp
        apply eq_nil_of_ofChars
        change ofText first = _
        rw [← relative, ← none]
      rcases exists_toList_joinText bare absolute with ⟨front, read, whole⟩
      rw [if_neg inhabited, ofText, whole, ofChars_append_slash, read, filter_components]

/-! ## The laws -/

/-- What cleaning makes of a text, and that it may be done before another text is put behind. -/
structure CleaningLaws (text : String) : Prop where
  /-- What is left is the mark of the current directory by itself or has no mark at all. -/
  unmarked : cleanText text = "." ∨
    .current ∉ (ofText (cleanText text)).components ∧
      .parent ∉ (ofText (cleanText text)).components
  /-- It starts at the top exactly if the text does. -/
  absolute : (ofText (cleanText text)).absolute = true ↔ (ofText text).absolute = true
  /-- It leads through the names that the components clean to, and they clean to no others. -/
  names : ∃ names, (∀ other, CleansTo (ofText text).components other ↔ other = names) ∧
    ofText (cleanText text) = ofNames (ofText text).absolute names
  /-- The paths that are clean already are those that cleaning leaves as they are. -/
  normal : (ofText text).clean = ofText text ↔ (ofText text).IsClean
  /-- Nothing is left to clean. -/
  again : cleanText (cleanText text) = cleanText text
  /-- A text that is put behind is read on from there. -/
  joins : ∀ behind, ofText (joinText text behind) = (ofText text).join (ofText behind)
  /-- It makes no difference whether the text was cleaned before. -/
  absorbs : ∀ behind, cleanText (joinText text behind) = cleanText (joinText (cleanText text) behind)

/-- Cleaning brings every text to a normal form and absorbs joins. -/
theorem cleaningLaws (text : String) : CleaningLaws text where
  unmarked := by
    rw [ofText_cleanText]
    rcases (isClean_clean (ofText text)).unmarked with bare | free
    · rw [cleanText, bare]
      exact Or.inl rfl
    · exact Or.inr free
  absolute := by rw [ofText_cleanText, clean_absolute]
  names := ⟨(ofText text).names, fun _ => cleansTo_iff, ofText_cleanText text⟩
  normal := clean_eq_self_iff
  again := by rw [cleanText, ofText_cleanText, clean_clean, cleanText]
  joins := ofText_joinText text
  absorbs := fun behind => by
    rw [cleanText, cleanText, ofText_joinText, ofText_joinText, ofText_cleanText, clean_join]

/-- Parent marks may climb out of what they stand behind, and above the top there is nothing. -/
example : cleanText "a/./b//../../../c/" = "c" ∧ cleanText "/../.." = "/" ∧
    cleanText (joinText "" "a/..") = "." ∧ cleanText (joinText "/a/.." "../b") = "/b" := by decide

end Path
end ExportVolumes
