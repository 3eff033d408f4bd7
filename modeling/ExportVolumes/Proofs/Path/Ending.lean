import ExportVolumes.Proofs.Path.Reading
import Mathlib.Data.List.Induction

namespace ExportVolumes

/-!
The end of a path, as its text shows it.

`Path.EndsIn` takes the last name of a path off the end of its text, without cutting the text into
pieces.  A slash is put before the text, so that its first piece is like every other one.  The last
component that reading gives is the same name (`Path.endsIn_iff`).
-/

namespace Path

/-- What a text behind a slash ends in.  A slash at the end does not count, nor does a dot by itself
behind a slash.  What is left ends in its last piece if that is a name; a parent mark is none, and
where nothing is left there is none. -/
inductive EndsIn : List Char → String → Prop
  | bare : EndsIn [] ""
  | slash {chars : List Char} {name : String} (ends : EndsIn chars name) :
      EndsIn (chars ++ ['/']) name
  | current {chars : List Char} {name : String} (ends : EndsIn chars name) :
      EndsIn (chars ++ ['/', '.']) name
  | parent (chars : List Char) : EndsIn (chars ++ ['/', '.', '.']) ""
  | name (chars : List Char) {name : String} (ordinary : IsOrdinary name) :
      EndsIn (chars ++ '/' :: name.toList) name

/-! ## The last of the steps -/

/-- The last of some components, if it is a name, and the empty text otherwise. -/
def lastName (components : List Component) : String :=
  (⟨false, components⟩ : Path).fileName?.getD ""

theorem lastName_append_name (components : List Component) (name : String) :
    lastName (components ++ [.name name]) = name := by
  simp [lastName, fileName?]

theorem lastName_append_parent (components : List Component) :
    lastName (components ++ [.parent]) = "" := by
  simp [lastName, fileName?]

theorem lastName_cons_current (components : List Component) :
    lastName (.current :: components) = lastName components := by
  cases components with
  | nil => rfl
  | cons component rest =>
      rw [lastName, lastName, fileName?, fileName?, List.getLast?_cons_cons]

/-- The mark of the current directory that opens a path is not its last name. -/
theorem getD_fileName?_ofText (text : String) :
    (ofText text).fileName?.getD "" = lastName (steps text.toList) := by
  rw [ofText, ofChars_eq]
  by_cases opens : opensHere text.toList = true
  · rw [if_pos opens, List.singleton_append, ← lastName_cons_current]
    rfl
  · rw [if_neg opens, List.nil_append]
    rfl

theorem steps_of_isOrdinary {name : String} (ordinary : IsOrdinary name) :
    steps name.toList = [.name name] := by
  rw [steps, pieces_of_no_slash ordinary.no_slash, List.filterMap_cons_some ordinary.ofPiece?,
    List.filterMap_nil]

theorem EndsIn.lastName_eq {chars : List Char} {name : String} (ends : EndsIn chars name) :
    lastName (steps chars) = name := by
  induction ends with
  | bare => rfl
  | slash _ ih => rwa [steps_append_slash, steps_nil, List.append_nil]
  | @current chars name _ ih =>
      have dot : steps ['.'] = [] := rfl
      rwa [steps_append_slash, dot, List.append_nil]
  | parent chars =>
      have mark : steps ['.', '.'] = [.parent] := rfl
      rw [steps_append_slash, mark, lastName_append_parent]
  | name chars ordinary =>
      rw [steps_append_slash, steps_of_isOrdinary ordinary, lastName_append_name]

/-! ## Every text ends in something -/

/-- A piece of a text is empty, a mark or a name. -/
theorem piece_cases {piece : List Char} (free : '/' ∉ piece) :
    piece = [] ∨ piece = ['.'] ∨ piece = ['.', '.'] ∨
      ∃ name, IsOrdinary name ∧ piece = name.toList := by
  by_cases empty : piece = []
  · exact Or.inl empty
  · by_cases current : piece = ['.']
    · exact Or.inr (Or.inl current)
    · by_cases parent : piece = ['.', '.']
      · exact Or.inr (Or.inr (Or.inl parent))
      · have read : Path.ofPiece? piece = some (.name (String.ofList piece)) := by
          unfold Path.ofPiece?
          split <;> simp_all
        exact Or.inr (Or.inr (Or.inr ⟨_, isOrdinary_of_ofPiece? read free,
          String.toList_ofList.symm⟩))

/-- A text behind a slash is its pieces, each behind a slash. -/
theorem flatMap_pieces (chars : List Char) : (pieces chars).flatMap ('/' :: ·) = '/' :: chars := by
  induction chars with
  | nil => rfl
  | cons c rest ih =>
      by_cases slash : c = '/'
      · rw [pieces, if_pos slash, List.flatMap_cons, ih, slash]
        rfl
      · cases cut : pieces rest with
        | nil => exact absurd cut (pieces_ne_nil rest)
        | cons piece others =>
            rw [cut, List.flatMap_cons, List.cons_append, List.cons_inj_right] at ih
            simp only [pieces, if_neg slash, cut, List.flatMap_cons, List.cons_append, ih]

theorem exists_endsIn_flatMap {cut : List (List Char)} (free : ∀ piece ∈ cut, '/' ∉ piece) :
    ∃ name, EndsIn (cut.flatMap ('/' :: ·)) name := by
  induction cut using List.reverseRecOn with
  | nil => exact ⟨"", .bare⟩
  | append_singleton cut piece ih =>
      rw [List.flatMap_append, List.flatMap_singleton]
      rcases ih fun other member => free other (List.mem_append_left _ member) with ⟨name, ends⟩
      rcases piece_cases (free piece (by simp)) with rfl | rfl | rfl | ⟨last, ordinary, rfl⟩
      · exact ⟨name, .slash ends⟩
      · exact ⟨name, .current ends⟩
      · exact ⟨"", .parent _⟩
      · exact ⟨last, .name _ ordinary⟩

/-- The end of a text is the last component of its path, if that is a name, and nothing
otherwise. -/
theorem endsIn_iff {text name : String} :
    EndsIn ('/' :: text.toList) name ↔ name = (ofText text).fileName?.getD "" := by
  have found : ∀ {name}, EndsIn ('/' :: text.toList) name →
      name = (ofText text).fileName?.getD "" := by
    intro name ends
    rw [getD_fileName?_ofText, ← ends.lastName_eq, ← List.nil_append ('/' :: _),
      steps_append_slash, steps_nil, List.nil_append]
  constructor
  · exact found
  · rintro rfl
    have free : ∀ piece ∈ pieces text.toList, '/' ∉ piece :=
      fun _ member => no_slash_of_mem_pieces member
    rcases exists_endsIn_flatMap free with ⟨name, ends⟩
    rw [flatMap_pieces] at ends
    exact found ends ▸ ends

end Path
end ExportVolumes
