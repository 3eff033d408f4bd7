import ExportVolumes.Path
import Mathlib.Data.List.Basic

namespace ExportVolumes

/-!
Reading paths and writing them out again.

Reading cuts a text at its slashes and keeps the pieces that stand for something.  A path
that was read has names without slashes and dots of their own, and marks the current
directory at most once, where it opens a relative path; `Path.IsRead` is that form.  The main
statement is `ofText_text`: a path in this form is what its text is read as.
-/

namespace Path

/-- A name that a piece of a text can stand for. -/
structure IsOrdinary (name : String) : Prop where
  ne_empty : name ≠ ""
  ne_current : name ≠ "."
  ne_parent : name ≠ ".."
  no_slash : '/' ∉ name.toList

/-! ## Pieces -/

theorem pieces_ne_nil (chars : List Char) : pieces chars ≠ [] := by
  cases chars with
  | nil => exact List.cons_ne_nil _ _
  | cons c rest =>
      unfold pieces
      split
      · exact List.cons_ne_nil _ _
      · split <;> exact List.cons_ne_nil _ _

/-- Cutting at a slash that stands between two texts leaves the pieces of both. -/
theorem pieces_append_slash (first second : List Char) :
    pieces (first ++ '/' :: second) = pieces first ++ pieces second := by
  induction first with
  | nil => simp only [List.nil_append, pieces, if_true, List.cons_append]
  | cons c rest ih =>
      by_cases slash : c = '/'
      · simp only [List.cons_append, pieces, if_pos slash, ih]
      · simp only [List.cons_append, pieces, if_neg slash, ih]
        cases cut : pieces rest with
        | nil => exact absurd cut (pieces_ne_nil rest)
        | cons piece others => rfl

theorem pieces_of_no_slash {chars : List Char} (free : '/' ∉ chars) : pieces chars = [chars] := by
  induction chars with
  | nil => rfl
  | cons c rest ih =>
      simp only [List.mem_cons, not_or] at free
      simp only [pieces, if_neg (Ne.symm free.1), ih free.2]

theorem no_slash_of_mem_pieces {chars piece : List Char} (member : piece ∈ pieces chars) :
    '/' ∉ piece := by
  induction chars generalizing piece with
  | nil =>
      rw [List.mem_singleton.mp member]
      exact List.not_mem_nil
  | cons c rest ih =>
      by_cases slash : c = '/'
      · simp only [pieces, if_pos slash] at member
        rcases List.mem_cons.mp member with rfl | later
        · exact List.not_mem_nil
        · exact ih later
      · cases cut : pieces rest with
        | nil => exact absurd cut (pieces_ne_nil rest)
        | cons head others =>
            simp only [pieces, if_neg slash, cut] at member
            rw [cut] at ih
            rcases List.mem_cons.mp member with rfl | later
            · simp only [List.mem_cons, not_or]
              exact ⟨Ne.symm slash, ih List.mem_cons_self⟩
            · exact ih (List.mem_cons_of_mem _ later)

/-- Texts without slashes are the pieces of the text that puts slashes between them. -/
theorem pieces_intercalate {texts : List (List Char)} (inhabited : texts ≠ [])
    (free : ∀ text ∈ texts, '/' ∉ text) : pieces (['/'].intercalate texts) = texts := by
  induction texts with
  | nil => exact absurd rfl inhabited
  | cons text others ih =>
      have head := pieces_of_no_slash (free text List.mem_cons_self)
      cases others with
      | nil => rw [List.intercalate_singleton, head]
      | cons second rest =>
          have tail := ih (List.cons_ne_nil _ _)
            (fun other member => free other (List.mem_cons_of_mem _ member))
          rw [List.intercalate_cons_cons, List.append_assoc, List.singleton_append,
            pieces_append_slash, head, tail, List.singleton_append]

/-! ## What pieces stand for -/

theorem ofPiece?_ne_current (piece : List Char) : ofPiece? piece ≠ some .current := by
  unfold ofPiece?
  split <;> simp

theorem isOrdinary_of_ofPiece? {piece : List Char} {name : String}
    (read : ofPiece? piece = some (.name name)) (free : '/' ∉ piece) : IsOrdinary name := by
  unfold ofPiece? at read
  split at read
  · cases read
  · cases read
  · cases read
  · rename_i notEmpty notCurrent notParent
    obtain rfl : String.ofList piece = name := by simpa using read
    have apart : ∀ text : String, text.toList ≠ piece → String.ofList piece ≠ text := by
      rintro _ differ rfl
      exact differ String.toList_ofList
    refine ⟨apart "" ?_, apart "." ?_, apart ".." ?_, ?_⟩
    · exact fun same => notEmpty same.symm
    · exact fun same => notCurrent same.symm
    · exact fun same => notParent same.symm
    · rwa [String.toList_ofList]

theorem IsOrdinary.ofPiece? {name : String} (ordinary : IsOrdinary name) :
    ofPiece? name.toList = some (.name name) := by
  unfold Path.ofPiece?
  split
  · rename_i same
    exact absurd (String.toList_eq_nil_iff.mp same) ordinary.ne_empty
  · rename_i same
    exact absurd (String.toList_inj.mp same) ordinary.ne_current
  · rename_i same
    exact absurd (String.toList_inj.mp same) ordinary.ne_parent
  · rw [String.ofList_toList]

/-- The pieces of a text that stand for something, without the mark of the current directory. -/
def steps (chars : List Char) : List Component :=
  (pieces chars).filterMap Path.ofPiece?

theorem steps_append_slash (first second : List Char) :
    steps (first ++ '/' :: second) = steps first ++ steps second := by
  rw [steps, pieces_append_slash, List.filterMap_append, steps, steps]

@[simp]
theorem steps_nil : steps [] = [] := rfl

theorem current_not_mem_steps (chars : List Char) : .current ∉ steps chars := by
  intro member
  rcases List.mem_filterMap.mp member with ⟨piece, _, read⟩
  exact ofPiece?_ne_current piece read

theorem isOrdinary_of_mem_steps {chars : List Char} {name : String}
    (member : .name name ∈ steps chars) : IsOrdinary name := by
  rcases List.mem_filterMap.mp member with ⟨piece, cut, read⟩
  exact isOrdinary_of_ofPiece? read (no_slash_of_mem_pieces cut)

/-! ## Reading -/

theorem head?_pieces (chars : List Char) :
    (pieces chars).head? = some (chars.takeWhile (· ≠ '/')) := by
  induction chars with
  | nil => rfl
  | cons c rest ih =>
      by_cases slash : c = '/'
      · simp [pieces, slash]
      · cases cut : pieces rest with
        | nil => exact absurd cut (pieces_ne_nil rest)
        | cons piece others =>
            rw [cut, List.head?_cons, Option.some.injEq] at ih
            simp [pieces, slash, cut, ih]

/-- Whether a text opens with the mark of the current directory. -/
def opensHere (chars : List Char) : Bool :=
  chars.takeWhile (· ≠ '/') = ['.']

/-- What reading gives: the steps of the text, behind the mark of the current directory where
the text opens with it. -/
theorem ofChars_eq (chars : List Char) :
    ofChars chars =
      ⟨chars.head? = some '/', (if opensHere chars then [.current] else []) ++ steps chars⟩ := by
  unfold ofChars
  split
  · rfl
  · rfl
  · simp [opensHere, steps]
  · rename_i notSlash notMark notOpening
    have relative : chars.head? ≠ some '/' := by
      intro same
      rcases List.head?_eq_some_iff.mp same with ⟨rest, rfl⟩
      exact notSlash rest rfl
    have elsewhere : opensHere chars = false := by
      match chars with
      | [] => rfl
      | [c] => by_cases slash : c = '/' <;> simp_all [opensHere]
      | c :: d :: rest =>
          by_cases first : c = '/' <;> by_cases second : d = '/' <;> simp_all [opensHere]
    simp [relative, elsewhere, steps]

/-- The form of a path that was read. -/
structure IsRead (path : Path) : Prop where
  ordinary : ∀ name, .name name ∈ path.components → IsOrdinary name
  marked :
    .current ∉ path.components ∨
      path.absolute = false ∧ ∃ rest, path.components = .current :: rest ∧ .current ∉ rest

theorem isRead_ofText (text : String) : (ofText text).IsRead := by
  rw [ofText, ofChars_eq]
  constructor
  · intro name member
    refine isOrdinary_of_mem_steps (?_ : .name name ∈ steps text.toList)
    rcases List.mem_append.mp member with mark | step
    · split at mark <;> simp at mark
    · exact step
  · by_cases opens : opensHere text.toList = true
    · refine Or.inr ⟨?_, steps text.toList, ?_, current_not_mem_steps _⟩
      · apply decide_eq_false
        intro slash
        rcases List.head?_eq_some_iff.mp slash with ⟨rest, same⟩
        simp [opensHere, same] at opens
      · simp [opens]
    · exact Or.inl (by simpa [opens] using current_not_mem_steps text.toList)

/-! ## Writing and reading back -/

/-- The characters of a list of components with single slashes between them. -/
def joined (components : List Component) : List Char :=
  ['/'].intercalate (components.map (fun component => component.text.toList))

theorem toList_text (path : Path) :
    path.text.toList = (if path.absolute then ['/'] else []) ++ joined path.components := by
  unfold text joined
  rw [String.toList_append, String.toList_intercalate, List.map_map]
  cases path.absolute <;> rfl

theorem no_slash_text {component : Component}
    (ordinary : ∀ name, component = .name name → IsOrdinary name) :
    '/' ∉ component.text.toList := by
  cases component with
  | current => decide
  | parent => decide
  | name name => exact (ordinary name rfl).no_slash

theorem ofPiece?_text {component : Component} (ne : component ≠ .current)
    (ordinary : ∀ name, component = .name name → IsOrdinary name) :
    Path.ofPiece? component.text.toList = some component := by
  cases component with
  | current => exact absurd rfl ne
  | parent => rfl
  | name name => exact (ordinary name rfl).ofPiece?

theorem pieces_joined {components : List Component} (inhabited : components ≠ [])
    (ordinary : ∀ name, .name name ∈ components → IsOrdinary name) :
    pieces (joined components) = components.map (fun component => component.text.toList) := by
  apply pieces_intercalate (by simpa using inhabited)
  intro text member
  rcases List.mem_map.mp member with ⟨component, listed, rfl⟩
  exact no_slash_text (fun name same => ordinary name (same ▸ listed))

theorem steps_joined {components : List Component} (unmarked : .current ∉ components)
    (ordinary : ∀ name, .name name ∈ components → IsOrdinary name) :
    steps (joined components) = components := by
  cases components with
  | nil => rfl
  | cons first others =>
      have back : ∀ component ∈ first :: others,
          (ofPiece? ∘ fun component => component.text.toList) component = some component := by
        intro component member
        exact ofPiece?_text (fun same => unmarked (same ▸ member))
          (fun name same => ordinary name (same ▸ member))
      rw [steps, pieces_joined (List.cons_ne_nil _ _) ordinary, List.filterMap_map,
        List.filterMap_congr back, List.filterMap_some]

theorem takeWhile_joined {first : Component} {others : List Component}
    (ordinary : ∀ name, .name name ∈ first :: others → IsOrdinary name) :
    (joined (first :: others)).takeWhile (· ≠ '/') = first.text.toList := by
  have head := head?_pieces (joined (first :: others))
  rw [pieces_joined (List.cons_ne_nil _ _) ordinary] at head
  exact (Option.some.inj head).symm

theorem text_eq_dot_iff {component : Component}
    (ordinary : ∀ name, component = .name name → IsOrdinary name) :
    component.text.toList = ['.'] ↔ component = .current := by
  cases component with
  | current => exact iff_of_true rfl rfl
  | parent => exact iff_of_false (by decide) (by simp)
  | name name =>
      exact iff_of_false (fun same => (ordinary name rfl).ne_current (String.toList_inj.mp same))
        (by simp)

theorem text_ne_empty {component : Component}
    (ordinary : ∀ name, component = .name name → IsOrdinary name) :
    component.text.toList ≠ [] := by
  cases component with
  | current => decide
  | parent => decide
  | name name =>
      exact fun same => (ordinary name rfl).ne_empty (String.toList_eq_nil_iff.mp same)

theorem head?_joined_ne_slash {components : List Component}
    (ordinary : ∀ name, .name name ∈ components → IsOrdinary name) :
    (joined components).head? ≠ some '/' := by
  cases components with
  | nil => simp [joined]
  | cons first others =>
      intro slash
      have first_ordinary : ∀ name, first = .name name → IsOrdinary name :=
        fun name same => ordinary name (same ▸ List.mem_cons_self)
      rcases List.head?_eq_some_iff.mp slash with ⟨rest, same⟩
      have front := takeWhile_joined ordinary
      rw [same, List.takeWhile_cons_of_neg (by simp)] at front
      exact text_ne_empty first_ordinary front.symm

theorem opensHere_joined {components : List Component}
    (ordinary : ∀ name, .name name ∈ components → IsOrdinary name) :
    opensHere (joined components) = true ↔ components.head? = some .current := by
  cases components with
  | nil => exact iff_of_false (by decide) (by simp)
  | cons first others =>
      rw [opensHere, takeWhile_joined ordinary, decide_eq_true_iff, List.head?_cons,
        Option.some.injEq]
      exact text_eq_dot_iff (fun name same => ordinary name (same ▸ List.mem_cons_self))

/-- A path in the form that reading gives is read back from its text. -/
theorem ofText_text {path : Path} (read : path.IsRead) : ofText path.text = path := by
  rcases path with ⟨absolute, components⟩
  rcases read with ⟨ordinary, marked⟩
  rw [ofText, ofChars_eq, toList_text]
  cases absolute with
  | true =>
      have unmarked : .current ∉ components := by simpa using marked
      have front : steps ('/' :: joined components) = components := by
        rw [← List.nil_append ('/' :: joined components), steps_append_slash, steps_nil,
          List.nil_append, steps_joined unmarked ordinary]
      simp [opensHere, front]
  | false =>
      have relative : (joined components).head? ≠ some '/' := head?_joined_ne_slash ordinary
      have opens := opensHere_joined ordinary
      rcases marked with unmarked | ⟨_, rest, rfl, unmarked⟩
      · have elsewhere : opensHere (joined components) = false := by
          rw [Bool.eq_false_iff, ne_eq, opens]
          exact fun head => unmarked (List.mem_of_head? head)
        simp [relative, elsewhere, steps_joined unmarked ordinary]
      · have steps_rest : steps (joined (.current :: rest)) = rest := by
          cases rest with
          | nil => rfl
          | cons second others =>
              have back : joined (.current :: second :: others) =
                  ['.'] ++ '/' :: joined (second :: others) := rfl
              rw [back, steps_append_slash, steps_joined unmarked
                (fun name member => ordinary name (List.mem_cons_of_mem _ member))]
              rfl
        simp [relative, opens.mpr rfl, steps_rest]

end Path
end ExportVolumes
