import ExportVolumes.Proofs.Path.Folding
import Mathlib.Data.List.Induction
import Mathlib.Data.List.Infix

namespace ExportVolumes

/-!
Which components climb above their start, and what the others fold to.

Both are told without a stack.  Components climb if some of the first of them hold more parent marks
than names (`Path.Climbs`); they fold by taking out a name together with the parent mark behind it,
again and again and in any order (`Path.FoldsTo`).  Components that do not climb are those that
fold, and they fold to one list of names (`climbs_iff` and `foldsTo_iff`).
-/

/-- Whether a component is a name. -/
def Component.isName : Component → Bool
  | .name _ => true
  | _ => false

namespace Path

/-- Somewhere from the start there were more parent marks than names. -/
def Climbs (components : List Component) : Prop :=
  ∃ front, front <+: components ∧ front.countP Component.isName < front.count .parent

instance (components : List Component) : Decidable (Climbs components) :=
  decidable_of_iff (∃ front ∈ components.inits,
      front.countP Component.isName < front.count .parent) <| by
    simp only [List.mem_inits, Climbs]

/-- Components fold to names by dropping the marks of the current directory and by taking out each
name that a parent mark follows, with the mark. -/
inductive FoldsTo : List Component → List String → Prop
  | names (names : List String) : FoldsTo (names.map .name) names
  | current {front back : List Component} {names : List String}
      (onward : FoldsTo (front ++ back) names) : FoldsTo (front ++ .current :: back) names
  | parent {front back : List Component} {name : String} {names : List String}
      (onward : FoldsTo (front ++ back) names) :
      FoldsTo (front ++ .name name :: .parent :: back) names

/-! ## Climbing -/

theorem ascent_append_singleton (components : List Component) (component : Component) :
    ascent (components ++ [component]) = (ascent components).step component := by
  rw [ascent, List.foldl_append, List.foldl_cons, List.foldl_nil, ascent]

/-- A name goes onto the stack, and a parent mark takes one off it or climbs a level. -/
theorem Ascent.length_stack_step (ascent : Ascent) (component : Component) :
    (ascent.step component).stack.length + ascent.levels + [component].count .parent =
      ascent.stack.length + (ascent.step component).levels +
        [component].countP Component.isName := by
  rcases ascent with ⟨levels, stack⟩
  cases component with
  | current => simp [step, Component.isName]
  | name name =>
      simp [step, Component.isName]
      omega
  | parent =>
      cases stack with
      | nil => simp [step, Component.isName]
      | cons latest others =>
          simp [step, Component.isName]
          omega

/-- The first level is climbed by a parent mark that finds the stack empty. -/
theorem Ascent.stack_step_eq_nil {ascent : Ascent} {component : Component}
    (before : ascent.levels = 0) (climbed : (ascent.step component).levels ≠ 0) :
    (ascent.step component).stack = [] := by
  rcases ascent with ⟨levels, stack⟩
  cases component with
  | current => exact absurd before climbed
  | name name => exact absurd before climbed
  | parent =>
      cases stack with
      | nil => rfl
      | cons latest others => exact absurd before climbed

theorem length_stack_add_count (components : List Component) :
    (ascent components).stack.length + components.count .parent =
      (ascent components).levels + components.countP Component.isName := by
  induction components using List.reverseRecOn with
  | nil => rfl
  | append_singleton components component ih =>
      have balance := (ascent components).length_stack_step component
      rw [ascent_append_singleton, List.count_append, List.countP_append]
      omega

/-- Components climb exactly if they lead some levels up. -/
theorem climbs_iff (components : List Component) :
    Climbs components ↔ (ascent components).levels ≠ 0 := by
  constructor
  · rintro ⟨front, ⟨back, rfl⟩, more⟩
    have balance := length_stack_add_count front
    have kept := levels_le_foldl (ascent front) back
    rw [ascent, List.foldl_append, ← ascent]
    omega
  · intro climbed
    induction components using List.reverseRecOn with
    | nil => exact absurd rfl climbed
    | append_singleton components component ih =>
        by_cases before : (ascent components).levels = 0
        · -- The last component is then a parent mark that finds no name.
          refine ⟨components ++ [component], List.prefix_rfl, ?_⟩
          have balance := length_stack_add_count (components ++ [component])
          rw [ascent_append_singleton] at climbed
          have bare := Ascent.stack_step_eq_nil before climbed
          rw [ascent_append_singleton, bare, List.length_nil] at balance
          omega
        · rcases ih before with ⟨front, opens, more⟩
          exact ⟨front, opens.trans (List.prefix_append _ _), more⟩

/-! ## Folding -/

theorem ascent_current (front back : List Component) :
    ascent (front ++ .current :: back) = ascent (front ++ back) := by
  simp [ascent, Ascent.step]

theorem ascent_name_parent (front back : List Component) (name : String) :
    ascent (front ++ .name name :: .parent :: back) = ascent (front ++ back) := by
  simp [ascent, Ascent.step]

/-- Names that are on a stack and components that never run it empty fold to what is on the stack
in the end. -/
theorem foldsTo_of_climbFreeStack {stack names : List String} {components : List Component}
    (stays : climbFreeStack stack components = some names) :
    FoldsTo (stack.reverse.map .name ++ components) names.reverse := by
  induction components generalizing stack with
  | nil =>
      cases stays
      rw [List.append_nil]
      exact .names _
  | cons component components ih =>
      cases component with
      | current => exact .current (ih stays)
      | name name =>
          have folds : FoldsTo ((name :: stack).reverse.map .name ++ components) names.reverse :=
            ih stays
          rwa [List.reverse_cons, List.map_append, List.append_assoc] at folds
      | parent =>
          cases stack with
          | nil => cases stays
          | cons latest others =>
              have folds : FoldsTo (others.reverse.map .name ++ components) names.reverse :=
                ih stays
              rw [List.reverse_cons, List.map_append, List.append_assoc]
              exact .parent folds

/-- Components fold to the names that they leave, if they leave any without climbing. -/
theorem foldsTo_iff {path : Path} {names : List String} :
    FoldsTo path.components names ↔ path.climbFreeNames? = some names := by
  constructor
  · intro folds
    rw [climbFreeNames?_eq_some_iff]
    generalize path.components = components at folds
    induction folds with
    | names names => rw [ascent_names, List.reverse_reverse]; exact ⟨rfl, rfl⟩
    | current _ ih => rwa [ascent_current]
    | parent _ ih => rwa [ascent_name_parent]
  · intro left
    rcases Option.map_eq_some_iff.mp left with ⟨stack, stays, rfl⟩
    exact foldsTo_of_climbFreeStack stays

/-- A path has no names to leave exactly if it climbs. -/
theorem climbFreeNames?_eq_none_iff {path : Path} :
    path.climbFreeNames? = none ↔ Climbs path.components := by
  rw [climbs_iff, Option.eq_none_iff_forall_not_mem]
  constructor
  · intro none level
    exact none _ (climbFreeNames?_eq_some_iff.mpr ⟨level, rfl⟩)
  · intro climbed names left
    exact climbed (climbFreeNames?_eq_some_iff.mp left).1

end Path
end ExportVolumes
