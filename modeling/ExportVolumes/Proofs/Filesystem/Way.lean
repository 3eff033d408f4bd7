import ExportVolumes.Proofs.Filesystem.Lookup
import ExportVolumes.Proofs.Path.Reading
import ExportVolumes.Filesystem.Calls

namespace ExportVolumes

/-!
The way to a location.

A path of names is followed through directories that are there, and fails only where a name is
too long (`Tree.walk_names`).  `Tree.pathTo` is the absolute path to a location, and
`Tree.route_pathTo` the route that it is read as.
-/

namespace Tree

variable {tree : Tree} {base location : Location} {name : String}

/-! ## Following a path -/

/-- No name of a location is too long. -/
def Fits (location : Location) : Prop :=
  ∀ name ∈ location, name.utf8ByteSize ≤ Route.maxNameSize

instance : Decidable (Fits location) := by
  unfold Fits
  infer_instance

theorem fits_append {first second : Location} :
    Fits (first ++ second) ↔ Fits first ∧ Fits second :=
  List.forall_mem_append

theorem fits_singleton : Fits [name] ↔ ¬ Route.maxNameSize < name.utf8ByteSize := by
  rw [Fits, List.forall_mem_singleton, Nat.not_lt]

theorem step_name (present : tree.HasDirectory location) (name : String) :
    tree.step location (.name name) =
      if Fits [name] then
        (tree.get? (location ++ [name])).elim (.error .notFound) (fun _ => .ok (location ++ [name]))
      else .error .nameTooLong := by
  rcases present with ⟨entry, held, directory⟩
  cases entry with
  | file => cases directory
  | directory mode user group =>
      by_cases fits : Route.maxNameSize < name.utf8ByteSize
      · simp [step, held, look, fits_singleton, fits]
        rfl
      · simp only [step, held, look, fits_singleton, fits]
        cases tree.get? (location ++ [name]) <;> rfl

theorem step_current (present : tree.HasDirectory location) :
    tree.step location .current = .ok location := by
  rcases present with ⟨entry, held, directory⟩
  cases entry with
  | file => cases directory
  | directory mode user group => simp only [step, held]

/-- Names are followed to where they lead, unless one of them is too long. -/
theorem walk_names {names : List String} (leads : tree.LeadsTo (base ++ names)) :
    tree.walk base (names.map .name) =
      if Fits names then .ok (base ++ names) else .error .nameTooLong := by
  induction names generalizing base with
  | nil => simp [walk, Fits, pure, Except.pure]
  | cons name rest ih =>
      have onward : base ++ name :: rest = (base ++ [name]) ++ rest := by simp
      rcases leads (base ++ [name]) (onward ▸ List.prefix_append _ _) with ⟨entry, held, _⟩
      have first := step_name (leads base (List.prefix_append _ _)) name
      have later := @ih (base ++ [name]) (onward ▸ leads)
      rw [held, Option.elim_some] at first
      have whole : Fits (name :: rest) ↔ Fits [name] ∧ Fits rest := by
        rw [← List.singleton_append, fits_append]
      rw [onward, walk, List.map_cons, List.foldlM_cons, first]
      simp only [whole]
      by_cases short : Fits [name]
      · rw [if_pos short]
        simp only [short, true_and]
        exact later
      · rw [if_neg short, if_neg (fun fits => short fits.1)]
        rfl

theorem walk_top (leads : tree.LeadsTo location) :
    tree.walk [] (location.map .name) =
      if Fits location then .ok location else .error .nameTooLong :=
  @walk_names tree [] location leads

/-! ## Paths from the top -/

/-- The path from the top to a location, as a text. -/
def pathTo (location : Location) : String :=
  (⟨true, location.map .name⟩ : Path).text

/-- The way from the top to a location. -/
def routeTo (location : Location) : Route :=
  ⟨true, location.map .name, false⟩

theorem toList_pathTo (location : Location) :
    (pathTo location).toList = '/' :: Path.joined (location.map .name) :=
  Path.toList_text _

theorem isEmpty_pathTo (location : Location) : (pathTo location).isEmpty = false := by
  rw [String.isEmpty_eq_false_iff, ne_eq, ← String.toList_eq_nil_iff, toList_pathTo]
  exact List.cons_ne_nil _ _

theorem ordinary_names {location : Location} (ordinary : ∀ name ∈ location, Path.IsOrdinary name)
    (name : String) (member : .name name ∈ location.map Component.name) : Path.IsOrdinary name := by
  rcases List.mem_map.mp member with ⟨other, listed, same⟩
  exact Component.name.inj same ▸ ordinary other listed

theorem pieces_pathTo (inhabited : location ≠ [])
    (ordinary : ∀ name ∈ location, Path.IsOrdinary name) :
    Path.pieces (pathTo location).toList = [] :: location.map String.toList := by
  have cut := Path.pieces_joined (by simpa using inhabited) (ordinary_names ordinary)
  rw [toList_pathTo, ← List.nil_append ('/' :: _), Path.pieces_append_slash, cut, List.map_map]
  rfl

/-- The way that a call takes to a location, if its path is one that a call can take. -/
theorem route_pathTo (inhabited : location ≠ [])
    (ordinary : ∀ name ∈ location, Path.IsOrdinary name) :
    (∃ cause, cause ≠ .notFound ∧ Route.ofText (pathTo location) = .error cause) ∨
      Route.ofText (pathTo location) = .ok (routeTo location) := by
  have cut := pieces_pathTo inhabited ordinary
  have steps : (Path.pieces (pathTo location).toList).filterMap Route.ofPiece? =
      location.map .name := by
    have back : ∀ name ∈ location, (Route.ofPiece? ∘ String.toList) name = some (.name name) := by
      intro name member
      have unmarked : name.toList ≠ ['.'] :=
        fun same => (ordinary name member).ne_current (String.toList_inj.mp same)
      simp only [Function.comp_apply, Route.ofPiece?, if_neg unmarked]
      exact (ordinary name member).ofPiece?
    rw [cut, List.filterMap_cons_none (by rfl), List.filterMap_map, List.filterMap_congr back,
      List.filterMap_eq_map']
  have slash : (pathTo location).toList.getLast? ≠ some '/' := by
    intro last
    rcases List.getLast?_eq_some_iff.mp last with ⟨front, same⟩
    rw [same, Path.pieces_append_slash] at cut
    obtain ⟨rest, latest, rfl⟩ := List.eq_nil_or_concat location |>.resolve_left inhabited
    rw [List.concat_eq_append, List.map_append, ← List.cons_append] at cut
    have ends := (List.append_inj' cut rfl).2
    exact (ordinary latest (by simp)).ne_empty
      (String.toList_eq_nil_iff.mp (List.singleton_inj.mp ends).symm)
  have opens : (pathTo location).toList.head? = some '/' := by rw [toList_pathTo, List.head?_cons]
  unfold Route.ofText
  split
  · exact Or.inl ⟨_, by decide, rfl⟩
  · split
    · exact Or.inl ⟨_, by decide, rfl⟩
    · rw [isEmpty_pathTo]
      simp only [Route.ofChars, opens, steps, slash, decide_true, decide_false]
      exact Or.inr rfl

/-! ## The top -/

theorem ofText_top : Route.ofText "/" = .ok ⟨true, [], true⟩ := by
  decide

/-- The path of the top leads to it. -/
theorem find_top (present : tree.HasDirectory []) (here : Location) :
    ∃ entry, entry.isDirectory = true ∧ tree.get? [] = some entry ∧
      tree.find here ⟨true, [], true⟩ = .ok ([], entry) := by
  rcases present with ⟨entry, held, kind⟩
  refine ⟨entry, kind, held, ?_⟩
  simp [find, start, walk, pure, Except.pure, bind, Except.bind, held, kind]

theorem pathExists_top (present : tree.HasDirectory []) (here : Location) :
    tree.pathExists here "/" = .ok true := by
  rcases find_top present here with ⟨entry, _, _, found⟩
  rw [pathExists, ofText_top]
  simp only [Except.bind, found]

theorem hasDirectory_of_pathExists_top {here : Location}
    (there : tree.pathExists here "/" = .ok true) : tree.HasDirectory [] := by
  cases held : tree.get? [] with
  | none =>
      simp [pathExists, ofText_top, find, start, walk, pure, Except.pure, bind, Except.bind, held]
        at there
  | some entry =>
      cases entry with
      | directory => exact ⟨_, held, rfl⟩
      | file =>
          simp [pathExists, ofText_top, find, start, walk, pure, Except.pure, bind, Except.bind,
            held, Entry.isDirectory] at there

end Tree
end ExportVolumes
