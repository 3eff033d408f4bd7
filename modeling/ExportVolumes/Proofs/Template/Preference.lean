import ExportVolumes.Template.Pattern

namespace ExportVolumes
namespace Pattern

/-!
Matching as choice among ways.

`Pattern.ways` lists every way in which a pattern matches at the start of a text, the preferred way
first: an earlier alternative before a later one, and a shorter lazy run before a longer one.
Matching with a continuation takes the first way that the continuation accepts
(`matchThen_eq_findSome?`), so that a match alone is the first way of all, and replacing goes from
left to right by first ways (`replaced_iff`).
-/

/-! ## Ways -/

/-- What a lazy run may leave of a text, from the shortest run to the longest. -/
def runs (admits : Char → Bool) : List Char → List (List Char)
  | [] => [[]]
  | c :: text => (c :: text) :: if admits c then runs admits text else []

/-- The ways to match a pattern at the start of a text, the preferred one first: what each leaves
of the text, and what the groups have recorded. -/
def ways : Pattern → List Char → Captures → List (List Char × Captures)
  | literal chars, text, captures =>
      (dropLiteral? chars text).toList.map fun after => (after, captures)
  | lazyRun admits, text, captures => (runs admits text).map fun after => (after, captures)
  | group index inner, text, captures =>
      (ways inner text captures).map fun way =>
        (way.1, (index, text.take (text.length - way.1.length)) :: way.2)
  | sequence first second, text, captures =>
      (ways first text captures).flatMap fun way => ways second way.1 way.2
  | choice first second, text, captures => ways first text captures ++ ways second text captures

variable {α : Type}

theorem findSome?_flatMap {β γ : Type} (f : β → List γ) (g : γ → Option α) (list : List β) :
    (list.flatMap f).findSome? g = list.findSome? fun value => (f value).findSome? g := by
  induction list with
  | nil => rfl
  | cons value list ih =>
      rw [List.flatMap_cons, List.findSome?_append, List.findSome?_cons, ih]
      cases (f value).findSome? g <;> rfl

theorem runLazily_eq_findSome? (admits : Char → Bool) (rest : List Char → Option α)
    (text : List Char) : runLazily admits rest text = (runs admits text).findSome? rest := by
  induction text with
  | nil => cases found : rest [] <;> simp [runLazily, runs, found]
  | cons c text ih =>
      rw [runLazily, runs, List.findSome?_cons]
      cases rest (c :: text) with
      | some result => rfl
      | none =>
          by_cases admitted : admits c = true
          · simp [admitted, ih]
          · simp [admitted]

/-- Matching takes the first way that the continuation accepts. -/
theorem matchThen_eq_findSome? (pattern : Pattern) (text : List Char) (captures : Captures)
    (rest : List Char → Captures → Option α) :
    pattern.matchThen text captures rest =
      (pattern.ways text captures).findSome? fun way => rest way.1 way.2 := by
  induction pattern generalizing text captures rest with
  | literal chars =>
      rw [matchThen, ways]
      cases dropLiteral? chars text <;> simp
  | lazyRun admits =>
      rw [matchThen, ways, runLazily_eq_findSome?, List.findSome?_map]
      rfl
  | group index inner ih =>
      rw [matchThen, ways, ih, List.findSome?_map]
      rfl
  | sequence first second firstIh secondIh =>
      rw [matchThen, ways, firstIh, findSome?_flatMap]
      simp only [secondIh]
  | choice first second firstIh secondIh =>
      rw [matchThen, ways, firstIh, secondIh, List.findSome?_append]
      cases (first.ways text captures).findSome? _ <;> rfl

theorem matchPrefix?_eq_head? (pattern : Pattern) (text : List Char) :
    pattern.matchPrefix? text = (pattern.ways text []).head?.map Prod.swap := by
  rw [matchPrefix?, matchThen_eq_findSome?]
  cases pattern.ways text [] <;> rfl

/-- A run leaves an end of the text. -/
theorem length_le_of_mem_runs {admits : Char → Bool} {text after : List Char}
    (member : after ∈ runs admits text) : after.length ≤ text.length := by
  induction text with
  | nil => exact Nat.le_of_eq (congrArg List.length (List.mem_singleton.mp member))
  | cons c text ih =>
      rcases List.mem_cons.mp member with rfl | later
      · exact Nat.le_refl _
      · split at later
        · exact Nat.le_trans (ih later) (Nat.le_succ _)
        · cases later

/-- No way leaves more than there was. -/
theorem length_le_of_mem_ways {pattern : Pattern} {text : List Char} {captures : Captures}
    {way : List Char × Captures} (member : way ∈ pattern.ways text captures) :
    way.1.length ≤ text.length := by
  induction pattern generalizing text captures way with
  | literal chars =>
      rcases List.mem_map.mp member with ⟨after, found, rfl⟩
      rw [dropLiteral?_eq_some_iff.mp (Option.mem_toList.mp found), List.length_append]
      exact Nat.le_add_left _ _
  | lazyRun admits =>
      rcases List.mem_map.mp member with ⟨after, run, rfl⟩
      exact length_le_of_mem_runs run
  | group index inner ih =>
      rcases List.mem_map.mp member with ⟨way, inside, rfl⟩
      have shorter := ih inside
      exact shorter
  | sequence first second firstIh secondIh =>
      rcases List.mem_flatMap.mp member with ⟨middle, before, behind⟩
      exact Nat.le_trans (secondIh behind) (firstIh before)
  | choice first second firstIh secondIh =>
      rcases List.mem_append.mp member with taken | taken
      · exact firstIh taken
      · exact secondIh taken

/-! ## Replacing -/

/-- A text with every match replaced, from left to right: at the leftmost place where the pattern
matches, the preferred way is replaced and the rest goes on behind it; a character where it does not
match is copied. -/
inductive Replaced (pattern : Pattern) (replacement : Captures → List Char) :
    List Char → List Char → Prop
  | done : Replaced pattern replacement [] []
  | found {text after result : List Char} {captures : Captures}
      {others : List (List Char × Captures)}
      (preferred : pattern.ways text [] = (after, captures) :: others)
      (onward : Replaced pattern replacement after result) :
      Replaced pattern replacement text (replacement captures ++ result)
  | copied {c : Char} {text result : List Char} (unmatched : pattern.ways (c :: text) [] = [])
      (onward : Replaced pattern replacement text result) :
      Replaced pattern replacement (c :: text) (c :: result)

/-- A pattern takes at least one character wherever it matches. -/
def Consumes (pattern : Pattern) : Prop :=
  ∀ text way, way ∈ pattern.ways text [] → way.1.length < text.length

theorem consumes_sequence_literal {literal : List Char} (inhabited : literal ≠ [])
    (rest : Pattern) : Consumes (.sequence (.literal literal) rest) := by
  intro text way member
  rcases List.mem_flatMap.mp member with ⟨middle, before, behind⟩
  rcases List.mem_map.mp before with ⟨after, found, rfl⟩
  rw [dropLiteral?_eq_some_iff.mp (Option.mem_toList.mp found), List.length_append]
  have shorter := length_le_of_mem_ways behind
  have positive := List.length_pos_iff.mpr inhabited
  simp only at shorter
  omega

variable {pattern : Pattern} {replacement : Captures → List Char} {text result : List Char}

theorem replaceAll_of_preferred (consumes : pattern.Consumes) {after : List Char}
    {captures : Captures} {others : List (List Char × Captures)}
    (preferred : pattern.ways text [] = (after, captures) :: others) :
    pattern.replaceAll replacement text =
      replacement captures ++ pattern.replaceAll replacement after := by
  have shorter := consumes text (after, captures) (preferred ▸ List.mem_cons_self)
  have first : pattern.matchPrefix? text = some (captures, after) := by
    rw [matchPrefix?_eq_head?, preferred]
    rfl
  cases text with
  | nil => exact absurd shorter (Nat.not_lt_zero _)
  | cons c text =>
      rw [replaceAll, first]
      exact if_pos shorter

theorem replaceAll_of_unmatched {c : Char} (unmatched : pattern.ways (c :: text) [] = []) :
    pattern.replaceAll replacement (c :: text) = c :: pattern.replaceAll replacement text := by
  have nowhere : pattern.matchPrefix? (c :: text) = none := by
    rw [matchPrefix?_eq_head?, unmatched]
    rfl
  rw [replaceAll, nowhere]

/-- Replacing is what the relation says, if the pattern never matches without taking anything. -/
theorem replaced_iff (consumes : pattern.Consumes) :
    pattern.Replaced replacement text result ↔ pattern.replaceAll replacement text = result := by
  constructor
  · intro replaced
    induction replaced with
    | done => rw [replaceAll]
    | found preferred _ ih => rw [replaceAll_of_preferred consumes preferred, ih]
    | copied unmatched _ ih => rw [replaceAll_of_unmatched unmatched, ih]
  · rintro rfl
    fun_induction replaceAll pattern replacement text with
    | case1 => exact .done
    | case2 c text captures after found _ ih =>
        rw [matchPrefix?_eq_head?] at found
        rcases Option.map_eq_some_iff.mp found with ⟨way, first, swapped⟩
        rcases List.head?_eq_some_iff.mp first with ⟨others, preferred⟩
        cases swapped
        exact .found preferred ih
    | case3 c text captures after found longer ih =>
        rw [matchPrefix?_eq_head?] at found
        rcases Option.map_eq_some_iff.mp found with ⟨way, first, swapped⟩
        cases swapped
        exact absurd (consumes _ way (List.mem_of_head? first)) longer
    | case4 c text unmatched ih =>
        rw [matchPrefix?_eq_head?, Option.map_eq_none_iff, List.head?_eq_none_iff] at unmatched
        exact .copied unmatched ih

end Pattern
end ExportVolumes
