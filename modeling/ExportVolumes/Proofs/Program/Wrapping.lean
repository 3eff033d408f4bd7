import ExportVolumes.Proofs.Program.Trace
import ExportVolumes.Startup

namespace ExportVolumes

/-!
Programs that keep some of their effects to themselves.

A program whose look-ups a registry answers runs as the program itself runs on a host that
answers look-ups so, and its steps are those of that run without the look-ups.  It is the same
with notices that are not heeded.  So what holds of a program on every host holds of its wrapped
forms.
-/

/-- The host that answers look-ups of storage classes from a registry. -/
def Host.serving {σ : Type} (registry : Registry) (host : Host σ) : Host σ
  | .findClass name, state => (registry.find name, state)
  | effect, state => host effect state

/-- The host that takes the notices that are not heeded and forgets them. -/
def Host.heeding {σ : Type} (heeds : Notice → Bool) (host : Host σ) : Host σ
  | .notify notice, state => if heeds notice then host (.notify notice) state else ((), state)
  | effect, state => host effect state

/-- Whether a step looks a storage class up. -/
def Step.isLookup : Step → Bool
  | ⟨.findClass _, _⟩ => true
  | _ => false

/-- Whether a step puts a notice into the log that is not heeded. -/
def Step.isUnheeded (heeds : Notice → Bool) : Step → Bool
  | ⟨.notify notice, _⟩ => !heeds notice
  | _ => false

namespace Program

variable {α β σ : Type} (program : Program α) (host : Host σ) (state : σ)

theorem run_serving (registry : Registry) :
    (program.serving registry).run host state = program.run (host.serving registry) state := by
  induction program generalizing state with
  | done result => rfl
  | ask effect next ih => cases effect <;> exact ih _ _

theorem trace_serving (registry : Registry) :
    (program.serving registry).trace host state =
      (program.trace (host.serving registry) state).filter (fun step => !step.isLookup) := by
  induction program generalizing state with
  | done result => rfl
  | ask effect next ih =>
      cases effect with
      | findClass name => exact ih _ _
      | _ => exact congrArg (List.cons _) (ih _ _)

theorem run_heeding (heeds : Notice → Bool) :
    (program.heeding heeds).run host state = program.run (host.heeding heeds) state := by
  induction program generalizing state with
  | done result => rfl
  | ask effect next ih =>
      cases effect with
      | notify notice =>
          by_cases heeded : heeds notice = true
          · simp only [heeding, if_pos heeded, run_ask, ih, Host.heeding]
          · simp only [heeding, if_neg heeded, run_ask, Host.heeding]
            exact ih () state
      | _ => exact ih _ _

theorem trace_heeding (heeds : Notice → Bool) :
    (program.heeding heeds).trace host state =
      (program.trace (host.heeding heeds) state).filter (fun step => !step.isUnheeded heeds) := by
  induction program generalizing state with
  | done result => rfl
  | ask effect next ih =>
      cases effect with
      | notify notice =>
          by_cases heeded : heeds notice = true
          · simp [heeding, heeded, ih, Host.heeding, Step.isUnheeded]
          · have hidden : (!Step.isUnheeded heeds ⟨.notify notice, ()⟩) = false := by
              simp [Step.isUnheeded, heeded]
            simp only [heeding, if_neg heeded, trace_ask, Host.heeding]
            rw [List.filter_cons_of_neg (by simpa using hidden)]
            exact ih () state
      | _ => exact congrArg (List.cons _) (ih _ _)

/-- What is seen of the steps of a program is seen of them without those that show nothing. -/
theorem filterMap_filter_not {view : Step → Option β} {hidden : Step → Bool}
    (blind : ∀ step, hidden step = true → view step = none) (steps : List Step) :
    (steps.filter (fun step => !hidden step)).filterMap view = steps.filterMap view := by
  rw [List.filterMap_filter]
  congr 1
  funext step
  cases hides : hidden step with
  | false => rfl
  | true => exact (blind step hides).symm

end Program
end ExportVolumes
