import ExportVolumes.Filesystem.Calls
import ExportVolumes.Proofs.Filesystem.Lookup
import ExportVolumes.Proofs.Program.Trace

namespace ExportVolumes

/-!
What is refused as invalid.

No path, and no way to a place, is refused as invalid.  So a renaming is refused like that only by
its last step, for leading into what it moves (`Tree.prefix_of_replace_invalid`).
-/

namespace Tree

theorem ofText_ne_invalid (text : String) : Route.ofText text ≠ .error .invalid := by
  unfold Route.ofText
  split
  · simp
  · split
    · simp
    · split <;> simp

theorem look_ne_invalid (tree : Tree) (directory : Location) (name : String) :
    tree.look directory name ≠ .error .invalid := by
  unfold look
  split <;> simp

theorem step_ne_invalid (tree : Tree) (location : Location) (component : Component) :
    tree.step location component ≠ .error .invalid := by
  unfold step
  split
  · simp
  · simp
  · cases component with
    | current => simp
    | parent => simp
    | name name =>
        apply bind_ne_error (look_ne_invalid tree location name)
        intro held
        cases held <;> simp

theorem walk_ne_invalid (tree : Tree) (location : Location) (steps : List Component) :
    tree.walk location steps ≠ .error .invalid := by
  induction steps generalizing location with
  | nil =>
      intro failed
      cases failed
  | cons component steps ih =>
      rw [walk, List.foldlM_cons]
      exact bind_ne_error (step_ne_invalid tree location component) ih

theorem approach_ne_invalid (tree : Tree) (here : Location) (route : Route) :
    tree.approach here route ≠ .error .invalid := by
  apply bind_ne_error (walk_ne_invalid tree _ _)
  intro location
  split <;> simp

/-- What takes the place of something else is refused as invalid only if it lies above. -/
theorem prefix_of_replace_invalid {tree : Tree} {origin goal : Location} {entry : Entry}
    {held : Option Entry} (failed : tree.replace origin goal entry held = .error .invalid) :
    origin <+: goal := by
  by_cases inside : origin <+: goal
  · exact inside
  · unfold replace at failed
    rw [within_eq_false inside, if_neg Bool.false_ne_true] at failed
    split at failed
    · cases failed
    · split at failed
      · cases failed
      · cases held with
        | none => cases failed
        | some there =>
            -- Nothing that stands at the goal is a reason for this refusal.
            cases kind : entry.isDirectory <;> cases other : there.isDirectory <;>
              cases children : tree.hasChildren goal <;> simp [kind, other, children] at failed

end Tree
end ExportVolumes
