import ExportVolumes.Proofs.Filesystem.Archival
import ExportVolumes.Proofs.Filesystem.Frame
import ExportVolumes.Proofs.Filesystem.Rooted

namespace ExportVolumes

/-!
What removing a directory and moving it away leave of a tree.

A directory below the top is removed with all that is below it, or stays as it is
(`Tree.removeTree_cases`); the top is emptied and then not removed (`Tree.removeTree_top`).  A
directory that is moved lies at its new place as it lay before, in place of nothing or of an empty
directory, and all else is as it was (`Tree.Archived.of_rename`).
-/

namespace Tree

variable {before after tree : Tree} {here base : Location} {name : String}

/-! ## Removing -/

/-- What was at a location and below it is gone, and nothing else. -/
def Vacated (home : Location) (before after : Tree) : Prop :=
  ∀ location, after.get? location = if home <+: location then none else before.get? location

theorem descends_pathTo {location : Location}
    (ordinary : ∀ other ∈ location, Path.IsOrdinary other) :
    (⟨true, location.map .name⟩ : Path).Descends where
  read := Path.isRead_of_names ordinary
  free := by simp

theorem location_pathTo (here location : Location) :
    (⟨true, location.map .name⟩ : Path).location here = location := by
  rw [Path.location, if_pos rfl, List.nil_append]
  exact Path.foldedNames_names location

theorem pathExists_of_answer {path : String} {told : Bool}
    (looked : (tree.answer here (.pathExists path)).1 = .ok told) :
    tree.pathExists here path = .ok told := by
  simp only [answer] at looked
  cases found : tree.pathExists here path with
  | error cause =>
      rw [found] at looked
      cases looked
  | ok told =>
      rw [found] at looked
      exact congrArg Except.ok (Except.ok.inj looked)

theorem rename_of_answer {source target : String} {told : Bool}
    (renamed : tree.answer here (.rename source target) = (.ok told, after)) :
    tree.rename here source target = .ok after := by
  simp only [answer] at renamed
  cases outcome : tree.rename here source target with
  | error cause =>
      rw [outcome] at renamed
      cases renamed
  | ok moved =>
      rw [outcome] at renamed
      cases renamed
      rfl

/-- What is there is removed with all that is below it, or nothing is changed. -/
theorem removeTree_cases (rooted : tree.Rooted)
    (ordinary : ∀ other ∈ base ++ [name], Path.IsOrdinary other)
    (there : (tree.answer here (.pathExists (pathTo (base ++ [name])))).1 = .ok true) :
    (∃ fault, tree.answer here (.removeTree (pathTo (base ++ [name]))) = (.error fault, tree)) ∨
      ∃ after, tree.answer here (.removeTree (pathTo (base ++ [name]))) = (.ok true, after) ∧
        Vacated (base ++ [name]) tree after := by
  rcases walk_of_pathExists (descends_pathTo ordinary) (by simp) (pathExists_of_answer there) with
    ⟨_, _, entry, held⟩
  rw [location_pathTo] at held
  have present : tree.get? (base ++ [name]) ≠ none := held ▸ Option.some_ne_none entry
  rcases removeTree_pathTo (rooted.leadsTo present) ordinary here with
    ⟨cause, refused⟩ | ⟨absent, _⟩ | ⟨_, removed⟩
  · refine .inl ⟨cause.message, ?_⟩
    simp only [answer, refused]
    rfl
  · exact absurd absent present
  · refine .inr ⟨tree.drop (base ++ [name]), ?_, get?_drop tree (base ++ [name])⟩
    simp only [answer, removed]
    rfl

/-- The top is emptied, and then it cannot be removed. -/
theorem removeTree_top (present : tree.HasDirectory []) (here : Location) :
    tree.removeTree here "/" = (.error .busy, tree.dropBelow []) := by
  rcases find_top present here with ⟨entry, kind, held, found⟩
  cases entry with
  | file => cases kind
  | directory mode user group =>
      have emptied : (tree.dropBelow []).get? [] = some (.directory mode user group) := by
        rw [get?_dropBelow, if_neg (by simp), held]
      have busy : (tree.dropBelow []).removeDirectory here ⟨true, [], true⟩ = .error .busy := by
        simp [removeDirectory, approach, start, walk, pure, Except.pure, bind, Except.bind, emptied]
      rw [removeTree, ofText_top]
      simp only [found, busy]

/-! ## Moving away -/

/-- A directory was moved with all that is below it, in place of nothing or of an empty
directory. -/
structure Archived (home place : Location) (before after : Tree) : Prop where
  moved : ∀ rest, after.get? (place ++ rest) = before.get? (home ++ rest)
  vacated : ∀ rest, after.get? (home ++ rest) = none
  beside : ∀ location, ¬home <+: location → ¬place <+: location →
    after.get? location = before.get? location
  replaced : before.get? place = none ∨ before.HasDirectory place
  empty : ∀ rest, rest ≠ [] → before.get? (place ++ rest) = none

/-- Every file is still somewhere, as it was. -/
def KeepsFiles (before after : Tree) : Prop :=
  ∀ location entry, before.get? location = some entry → entry.isDirectory = false →
    ∃ other, after.get? other = some entry

/-- No file is lost by moving a directory. -/
theorem Archived.keepsFiles {home place : Location} (archived : Archived home place before after) :
    KeepsFiles before after := by
  intro location entry held file
  by_cases inside : home <+: location
  · rcases inside with ⟨rest, rfl⟩
    exact ⟨place ++ rest, (archived.moved rest).trans held⟩
  · by_cases target : place <+: location
    · rcases target with ⟨rest, rfl⟩
      by_cases itself : rest = []
      · rw [itself, List.append_nil] at held
        rcases archived.replaced with absent | directory
        · cases absent.symm.trans held
        · cases file.symm.trans (directory.isDirectory_of_get? held)
      · cases (archived.empty rest itself).symm.trans held
    · exact ⟨location, (archived.beside location inside target).trans held⟩

theorem get?_of_not_hasChildren {top rest : Location} (childless : tree.hasChildren top = false)
    (inhabited : rest ≠ []) : tree.get? (top ++ rest) = none := by
  by_contra there
  rcases get?_ne_none_iff.mp there with ⟨held, member, whole⟩
  refine Bool.eq_false_iff.mp childless (List.any_eq_true.mpr ⟨held, member, ?_⟩)
  rw [Bool.and_eq_true, decide_eq_true_eq, within_eq_true_iff, whole]
  exact ⟨List.prefix_append _ _, by simpa using inhabited⟩

/-- Renaming a directory moves it, and replaces no more than an empty directory. -/
theorem Archived.of_rename {parent : Location} {source target : Path} (rooted : before.Rooted)
    (archival : Archival here parent source target name)
    (directory : before.HasDirectory (source.location here))
    (renamed : before.rename here source.text target.text = .ok after) :
    Archived (source.location here) (target.location here) before after := by
  rcases (rename_eq_ok_iff archival.leaves archival.enters archival.inhabited
    archival.inhabited_target).mp renamed with ⟨_, _, _, _, entry, _, _, held, replaced⟩
  rcases (replace_eq_ok_iff archival.ne).mp replaced with ⟨apart, outside, fits, rfl⟩
  have kind := directory.isDirectory_of_get? held
  have standing : ∀ there, before.get? (target.location here) = some there →
      there.isDirectory = true ∧ before.hasChildren (target.location here) = false := by
    intro there found
    rcases fits there found with ⟨alike, childless⟩
    exact ⟨alike ▸ kind, childless⟩
  constructor
  case moved => exact get?_move_inside apart outside before
  case vacated => exact get?_move_vacated apart outside before
  case beside => exact fun location away aside => get?_move_of_outside away aside
  case replaced =>
    cases found : before.get? (target.location here) with
    | none => exact .inl rfl
    | some there => exact .inr ⟨there, found, (standing there found).1⟩
  case empty =>
    intro rest inhabited
    cases found : before.get? (target.location here) with
    | none => exact rooted.get?_below inhabited fun present => present.ne_none found
    | some there => exact get?_of_not_hasChildren (standing there found).2 inhabited

end Tree
end ExportVolumes
