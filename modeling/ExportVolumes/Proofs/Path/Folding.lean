import ExportVolumes.Proofs.Path.Reading

namespace ExportVolumes

/-!
Folding the parent marks of a path.

A list of components climbs some levels above its start and then leads through some names;
`Path.ascent` computes both.  All ways of folding are read off it: a stack that never runs
empty (`foldl_fold`), the refusal of a suffix that climbs (`climbFreeNames?_eq_some_iff`) and
the names that a path has behind a root (`names_join`).

`Path.LiesIn` and `Path.LiesBelow` compare paths after folding.
-/

namespace Path

/-- The names of a path after folding. -/
def names (path : Path) : List String :=
  foldedNames path.components

/-- The path of the current directory. -/
def here : Path := ⟨false, [.current]⟩

/-! ## Climbing -/

/-- Where a list of components leads: some levels up, and from there through some names, the
latest first. -/
structure Ascent where
  levels : Nat := 0
  stack : List String := []

/-- Take in one component more. -/
def Ascent.step (ascent : Ascent) : Component → Ascent
  | .current => ascent
  | .name name => { ascent with stack := name :: ascent.stack }
  | .parent =>
      match ascent.stack with
      | [] => { ascent with levels := ascent.levels + 1 }
      | _ :: rest => { ascent with stack := rest }

/-- Where a list of components leads. -/
def ascent (components : List Component) : Ascent :=
  components.foldl Ascent.step {}

theorem levels_le_foldl (start : Ascent) (components : List Component) :
    start.levels ≤ (components.foldl Ascent.step start).levels := by
  induction components generalizing start with
  | nil => exact Nat.le_refl _
  | cons component rest ih =>
      refine Nat.le_trans ?_ (ih (start.step component))
      cases component with
      | current => exact Nat.le_refl _
      | name name => exact Nat.le_refl _
      | parent =>
          rcases start with ⟨levels, stack⟩
          cases stack with
          | nil => exact Nat.le_succ levels
          | cons latest others => exact Nat.le_refl levels

/-- Folding onto names that are there already: the levels climbed are taken off them. -/
theorem foldl_fold (base : List String) (start : Ascent) (components : List Component) :
    components.foldl fold (start.stack ++ base.drop start.levels) =
      (components.foldl Ascent.step start).stack ++
        base.drop (components.foldl Ascent.step start).levels := by
  induction components generalizing start with
  | nil => rfl
  | cons component rest ih =>
      rw [List.foldl_cons, List.foldl_cons, ← ih (start.step component)]
      congr 1
      cases component with
      | current => rfl
      | name name => rfl
      | parent =>
          rcases start with ⟨levels, stack⟩
          cases stack with
          | nil => simp [fold, Ascent.step, List.tail_drop]
          | cons latest others => rfl

/-- A stack that may not run empty is the ascent without a level climbed. -/
theorem climbFreeStack_eq (levels : Nat) (stack : List String) (components : List Component) :
    climbFreeStack stack components =
      if (components.foldl Ascent.step ⟨levels, stack⟩).levels = levels then
        some (components.foldl Ascent.step ⟨levels, stack⟩).stack
      else none := by
  -- Only the stack varies: the one step that would change the levels is refused.
  induction components generalizing stack with
  | nil => simp [climbFreeStack]
  | cons component rest ih =>
      cases component with
      | current => exact ih stack
      | name name => exact ih (name :: stack)
      | parent =>
          cases stack with
          | cons latest others => exact ih others
          | nil =>
              -- No later name takes the level back.
              have climbed := levels_le_foldl ⟨levels + 1, []⟩ rest
              have above : (rest.foldl Ascent.step ⟨levels + 1, []⟩).levels ≠ levels :=
                Nat.ne_of_gt climbed
              exact (if_neg above).symm

theorem climbFreeNames?_eq_some_iff {path : Path} {names : List String} :
    path.climbFreeNames? = some names ↔
      (ascent path.components).levels = 0 ∧ (ascent path.components).stack.reverse = names := by
  have refused := climbFreeStack_eq 0 [] path.components
  change _ = if (ascent path.components).levels = 0 then
    some (ascent path.components).stack else none at refused
  rw [climbFreeNames?, refused]
  by_cases level : (ascent path.components).levels = 0
  · simp [level]
  · simp [level]

theorem mem_stack_foldl {start : Ascent} {components : List Component} {name : String}
    (member : name ∈ (components.foldl Ascent.step start).stack) :
    name ∈ start.stack ∨ .name name ∈ components := by
  induction components generalizing start with
  | nil => exact Or.inl member
  | cons component rest ih =>
      rcases ih member with earlier | later
      · cases component with
        | current => exact Or.inl earlier
        | name other =>
            rcases List.mem_cons.mp earlier with rfl | before
            · exact Or.inr List.mem_cons_self
            · exact Or.inl before
        | parent =>
            rcases start with ⟨levels, stack⟩
            cases stack with
            | nil => exact Or.inl earlier
            | cons latest others => exact Or.inl (List.mem_cons_of_mem _ earlier)
      · exact Or.inr (List.mem_cons_of_mem _ later)

theorem foldedNames_eq (components : List Component) :
    foldedNames components = (ascent components).stack.reverse := by
  have folded := foldl_fold [] {} components
  simp only [List.drop_nil, List.append_nil] at folded
  rw [foldedNames, folded, ascent]

/-- Names come out of folding only if they went in. -/
theorem mem_of_mem_names {path : Path} {name : String} (member : name ∈ path.names) :
    .name name ∈ path.components := by
  rw [names, foldedNames_eq, List.mem_reverse] at member
  rcases mem_stack_foldl member with impossible | listed
  · cases impossible
  · exact listed

theorem mem_of_mem_climbFreeNames {path : Path} {names : List String} {name : String}
    (climbFree : path.climbFreeNames? = some names) (member : name ∈ names) :
    .name name ∈ path.components := by
  rcases climbFreeNames?_eq_some_iff.mp climbFree with ⟨_, rfl⟩
  rw [← foldedNames_eq] at member
  exact mem_of_mem_names member

/-- Components behind others: the levels that they climb are taken off the names before. -/
theorem foldedNames_append (first second : List Component) :
    foldedNames (first ++ second) =
      (foldedNames first).take ((foldedNames first).length - (ascent second).levels) ++
        (ascent second).stack.reverse := by
  have onto := foldl_fold (first.foldl fold []) {} second
  simp only [List.nil_append, List.drop_zero] at onto
  rw [foldedNames, List.foldl_append, onto, List.reverse_append, foldedNames]
  congr 1
  rw [List.reverse_eq_iff, ← List.drop_reverse, List.reverse_reverse]
  rfl

theorem ascent_names (names : List String) : ascent (names.map .name) = ⟨0, names.reverse⟩ := by
  have stacked : ∀ start : Ascent, (names.map .name).foldl Ascent.step start =
      ⟨start.levels, names.reverse ++ start.stack⟩ := by
    induction names with
    | nil => exact fun start => rfl
    | cons name rest ih =>
        intro start
        rw [List.map_cons, List.foldl_cons, ih, List.reverse_cons, List.append_assoc]
        rfl
  rw [ascent, stacked, List.append_nil]

theorem foldedNames_names (names : List String) : foldedNames (names.map .name) = names := by
  rw [foldedNames_eq, ascent_names, List.reverse_reverse]

/-! ## Clean paths -/

theorem clean_absolute (path : Path) : path.clean.absolute = path.absolute := by
  unfold clean ofNames
  split
  · rename_i relative
    exact relative.1.symm
  · rfl

theorem clean_eq_of_ne_here {path : Path} (ne : path.clean ≠ here) :
    path.clean = ⟨path.absolute, path.names.map .name⟩ := by
  unfold clean ofNames at ne ⊢
  split
  · rename_i empty
    exact absurd (if_pos empty) ne
  · rfl

theorem clean_eq_here_iff {path : Path} :
    path.clean = here ↔ path.absolute = false ∧ path.names = [] := by
  unfold clean ofNames
  constructor
  · intro same
    split at same
    · assumption
    · have components : path.names.map Component.name = [.current] :=
        congrArg Path.components same
      have mark : Component.current ∈ path.names.map Component.name :=
        components ▸ List.mem_singleton_self _
      rcases List.mem_map.mp mark with ⟨name, _, impossible⟩
      cases impossible
  · exact fun empty => if_pos empty

theorem names_clean (path : Path) : path.clean.names = path.names := by
  by_cases empty : path.clean = here
  · rw [empty, (clean_eq_here_iff.mp empty).2]
    rfl
  · rw [clean_eq_of_ne_here empty, names, foldedNames_names]

/-- Cleaning leaves no component only at the top. -/
theorem clean_eq_top {path : Path} (bare : path.clean.components = []) :
    path.clean = ⟨true, []⟩ := by
  unfold clean ofNames at bare ⊢
  split
  · rename_i relative
    rw [if_pos relative] at bare
    cases bare
  · rename_i kept
    rw [if_neg kept, List.map_eq_nil_iff] at bare
    rw [bare] at kept ⊢
    rw [eq_true_of_ne_false fun relative => kept ⟨relative, rfl⟩, List.map_nil]

theorem clean_clean (path : Path) : path.clean.clean = path.clean := by
  have same := names_clean path
  rw [clean, clean_absolute, ← names, same]
  rfl

theorem isRead_of_names {absolute : Bool} {names : List String}
    (ordinary : ∀ name ∈ names, IsOrdinary name) : IsRead ⟨absolute, names.map .name⟩ := by
  constructor
  · intro name member
    rcases List.mem_map.mp member with ⟨other, listed, same⟩
    exact Component.name.inj same ▸ ordinary other listed
  · refine Or.inl (fun member => ?_)
    rcases List.mem_map.mp member with ⟨other, _, impossible⟩
    cases impossible

theorem isRead_here : here.IsRead where
  ordinary := by simp [here]
  marked := Or.inr ⟨rfl, [], rfl, List.not_mem_nil⟩

/-- Cleaning needs names that are ordinary, and nothing else, to give a path that can be read
back. -/
theorem isRead_clean {path : Path}
    (ordinary : ∀ name, .name name ∈ path.components → IsOrdinary name) : path.clean.IsRead := by
  by_cases bare : path.clean = here
  · rw [bare]
    exact isRead_here
  · rw [clean_eq_of_ne_here bare]
    exact isRead_of_names (fun name member => ordinary name (mem_of_mem_names member))

theorem IsRead.extend {path : Path} (read : path.IsRead) {names : List String}
    (ordinary : ∀ name ∈ names, IsOrdinary name) : (path.extend names).IsRead := by
  have fresh : ∀ component ∈ names.map Component.name, component ≠ .current := by
    intro component member
    rcases List.mem_map.mp member with ⟨name, _, rfl⟩
    exact Component.noConfusion
  constructor
  · intro name member
    rcases List.mem_append.mp member with before | behind
    · exact read.ordinary name before
    · rcases List.mem_map.mp behind with ⟨other, listed, same⟩
      exact Component.name.inj same ▸ ordinary other listed
  · rcases read.marked with unmarked | ⟨relative, rest, opens, unmarked⟩
    · left
      intro member
      rcases List.mem_append.mp member with before | behind
      · exact unmarked before
      · exact fresh _ behind rfl
    · right
      refine ⟨relative, rest ++ names.map .name, ?_, ?_⟩
      · simp [Path.extend, opens]
      · intro member
        rcases List.mem_append.mp member with before | behind
        · exact unmarked before
        · exact fresh _ behind rfl

theorem names_extend (path : Path) (names : List String) :
    (path.extend names).names = path.names ++ names := by
  rw [Path.names, Path.extend, foldedNames_append, ascent_names, Path.names]
  simp

theorem ascent_filter (components : List Component) :
    ascent (components.filter (· ≠ .current)) = ascent components := by
  have folded : ∀ start : Ascent,
      (components.filter (· ≠ .current)).foldl Ascent.step start =
        components.foldl Ascent.step start := by
    induction components with
    | nil => exact fun start => rfl
    | cons component rest ih =>
        intro start
        cases component with
        | current => exact ih start
        | parent => exact ih (start.step .parent)
        | name name => exact ih (start.step (.name name))
  exact folded {}

theorem join_clean (root : Path) {suffix : Path} (relative : suffix.absolute = false) :
    root.clean.join suffix =
      { root.clean with
        components := root.clean.components ++ suffix.components.filter (· ≠ .current) } := by
  have inhabited : ¬ (root.clean.absolute = false ∧ root.clean.components = []) := by
    rintro ⟨kind, empty⟩
    by_cases bare : root.clean = here
    · rw [bare] at empty
      cases empty
    · rw [clean_eq_of_ne_here bare, List.map_eq_nil_iff] at empty
      exact bare (clean_eq_here_iff.mpr ⟨clean_absolute root ▸ kind, empty⟩)
  rw [join, relative, if_neg Bool.false_ne_true, if_neg inhabited]

theorem join_clean_absolute (root : Path) {suffix : Path} (relative : suffix.absolute = false) :
    (root.clean.join suffix).absolute = root.clean.absolute := by
  rw [join_clean root relative]

/-- Behind a root, a suffix takes off the levels that it climbs and adds its names. -/
theorem names_join (root : Path) {suffix : Path} (relative : suffix.absolute = false) :
    (root.clean.join suffix).names =
      root.clean.names.take (root.clean.names.length - (ascent suffix.components).levels) ++
        (ascent suffix.components).stack.reverse := by
  rw [join_clean root relative, names, foldedNames_append, ascent_filter, names]

/-- A path that leads through the names of a clean root and then through others is cleaned to the
extended root. -/
theorem clean_eq_extend {root path : Path} {others : List String} (rooted : root.clean ≠ here)
    (absolute : path.absolute = root.clean.absolute)
    (reached : path.names = root.clean.names ++ others) :
    path.clean = root.clean.extend others := by
  have ne : path.clean ≠ here := by
    intro bare
    rcases clean_eq_here_iff.mp bare with ⟨relative, empty⟩
    rw [reached, names_clean] at empty
    rw [absolute, clean_absolute] at relative
    exact rooted (clean_eq_here_iff.mpr ⟨relative, (List.append_eq_nil_iff.mp empty).1⟩)
  rw [clean_eq_of_ne_here ne, absolute, reached, clean_eq_of_ne_here rooted, extend]
  simp [names, foldedNames_names]

/-! ## One path inside another -/

/-- A path that is another one or lies below it, once `.` and `..` are resolved. -/
def LiesIn (root path : Path) : Prop :=
  path.absolute = root.absolute ∧ root.names <+: path.names

/-- A path that lies at least one name below another one, once `.` and `..` are resolved. -/
def LiesBelow (root path : Path) : Prop :=
  path.absolute = root.absolute ∧ ∃ names, names ≠ [] ∧ path.names = root.names ++ names

instance (root path : Path) : Decidable (LiesIn root path) :=
  inferInstanceAs (Decidable (_ ∧ _))

theorem prefix_take_append_iff (names others : List String) (count : Nat) :
    names <+: names.take count ++ others ↔ names.drop count <+: others := by
  constructor
  · intro longer
    rw [← List.prefix_append_right_inj (names.take count), List.take_append_drop]
    exact longer
  · intro shorter
    conv => lhs; rw [← List.take_append_drop count names]
    exact (List.prefix_append_right_inj _).mpr shorter

theorem LiesBelow.liesIn {root path : Path} (below : LiesBelow root path) : LiesIn root path := by
  rcases below with ⟨absolute, names, _, same⟩
  exact ⟨absolute, same ▸ List.prefix_append _ _⟩

theorem liesBelow_extend_iff (root : Path) (names : List String) :
    LiesBelow root (root.extend names) ↔ names ≠ [] := by
  constructor
  · rintro ⟨_, others, inhabited, same⟩
    rw [names_extend, List.append_cancel_left_eq] at same
    rwa [same]
  · exact fun inhabited => ⟨rfl, names, inhabited, names_extend root names⟩

theorem not_liesBelow_self (path : Path) : ¬ LiesBelow path path := by
  rintro ⟨_, names, inhabited, same⟩
  exact inhabited (List.self_eq_append_right.mp same)

end Path
end ExportVolumes
