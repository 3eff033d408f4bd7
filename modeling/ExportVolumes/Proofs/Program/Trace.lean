import ExportVolumes.Effect

namespace ExportVolumes

/-!
What a program asks for, in order and with the answers it was given.

`Program.trace` is the record that a tracing host keeps.  What holds of every effect that a
program may ask for, whatever it is answered, is stated by `Program.OnlyAsks`; it holds of every
step of a trace (`OnlyAsks.of_mem_trace`), and what every such effect keeps of a state and a
record of the steps holds after a run (`OnlyAsks.run_note`).
-/

/-- A computation in two parts succeeds when both parts do. -/
theorem bind_eq_ok_iff {ε α β : Type} {first : Except ε α} {next : α → Except ε β} {result : β} :
    first >>= next = .ok result ↔ ∃ value, first = .ok value ∧ next value = .ok result := by
  cases first with
  | error cause =>
      constructor
      · intro failed
        cases failed
      · rintro ⟨value, failed, _⟩
        cases failed
  | ok value =>
      constructor
      · intro done
        exact ⟨value, rfl, done⟩
      · rintro ⟨_, same, done⟩
        cases same
        exact done

/-- A computation in two parts fails with its first part or goes on to the second. -/
theorem bind_cases {ε α β : Type} (first : Except ε α) (next : α → Except ε β) :
    (∃ cause, first = .error cause ∧ first >>= next = .error cause) ∨
      ∃ value, first = .ok value ∧ first >>= next = next value := by
  cases first with
  | error cause => exact Or.inl ⟨cause, rfl, rfl⟩
  | ok value => exact Or.inr ⟨value, rfl, rfl⟩

/-- A computation does not fail in a way in which neither of its parts does. -/
theorem bind_ne_error {ε α β : Type} {first : Except ε α} {next : α → Except ε β} {cause : ε}
    (begins : first ≠ .error cause) (goes : ∀ value, next value ≠ .error cause) :
    first >>= next ≠ .error cause := by
  cases first with
  | error other => exact fun failed => begins (congrArg Except.error (Except.error.inj failed))
  | ok value => exact goes value

/-- The call to the filesystem that a step makes, if it makes one. -/
def Step.call? : Step → Option Call
  | ⟨.call call, _⟩ => some call
  | _ => none

namespace Program

variable {α β γ σ : Type}

/-- Going on twice is going on once. -/
theorem bind_assoc (program : Program α) (first : α → Program β) (second : β → Program γ) :
    (program.bind first).bind second = program.bind fun result => (first result).bind second := by
  induction program with
  | done result => rfl
  | ask effect answered ih =>
      refine congrArg (ask effect) ?_
      funext answer
      exact ih answer

/-- The effects that a program asks for on a host, each with its answer. -/
def trace (host : Host σ) : Program α → σ → List Step
  | done _, _ => []
  | ask effect next, state =>
      ⟨effect, (host effect state).1⟩ ::
        (next (host effect state).1).trace host (host effect state).2

/-- The calls to the filesystem that a program makes on a host. -/
def calls (host : Host σ) (program : Program α) (state : σ) : List Call :=
  (program.trace host state).filterMap Step.call?

@[simp]
theorem trace_done (host : Host σ) (result : α) (state : σ) :
    (done result).trace host state = [] := rfl

@[simp]
theorem trace_ask (host : Host σ) (effect : Effect) (next : effect.Answer → Program α) (state : σ) :
    (ask effect next).trace host state =
      ⟨effect, (host effect state).1⟩ ::
        (next (host effect state).1).trace host (host effect state).2 := rfl

theorem trace_bind (host : Host σ) (program : Program α) (next : α → Program β) (state : σ) :
    (program.bind next).trace host state =
      program.trace host state ++
        (next (program.run host state).1).trace host (program.run host state).2 := by
  induction program generalizing state with
  | done result => rfl
  | ask effect answered ih =>
      simp only [bind, trace_ask, run_ask, ih, List.cons_append]

/-- A tracing host changes no answer and no state; beside them it writes the trace down. -/
theorem run_tracing (host : Host σ) (program : Program α) (state : σ) (log : List Step) :
    program.run host.tracing (state, log) =
      ((program.run host state).1, (program.run host state).2,
        (program.trace host state).reverse ++ log) := by
  induction program generalizing state log with
  | done result => rfl
  | ask effect next ih =>
      simp only [run_ask, Host.tracing, ih, trace_ask, List.reverse_cons, List.append_assoc,
        List.singleton_append]

theorem calls_bind (host : Host σ) (program : Program α) (next : α → Program β) (state : σ) :
    (program.bind next).calls host state =
      program.calls host state ++
        (next (program.run host state).1).calls host (program.run host state).2 := by
  rw [calls, trace_bind, List.filterMap_append, calls, calls]

/-! ## Single calls -/

@[simp]
theorem mapError_ok {ε ε' : Type} (change : ε → ε') (value : α) :
    (Except.ok value).mapError change = .ok value :=
  rfl

@[simp]
theorem run_call (host : Host σ) (c : Call) (state : σ) :
    (call c).run host state =
      ((host (.call c) state).1.mapError c.error, (host (.call c) state).2) := by
  rw [call, run_ask]
  cases (host (.call c) state).1 <;> rfl

theorem run_call_ok {host : Host σ} {c : Call} {state after : σ} {answer : Bool}
    (asked : host (.call c) state = (.ok answer, after)) :
    (call c).run host state = (.ok answer, after) := by
  rw [run_call, asked]
  rfl

theorem run_call_error {host : Host σ} {c : Call} {state after : σ} {fault : String}
    (asked : host (.call c) state = (.error fault, after)) :
    (call c).run host state = (.error (c.error fault), after) := by
  rw [run_call, asked]
  rfl

@[simp]
theorem trace_call (host : Host σ) (c : Call) (state : σ) :
    (call c).trace host state = [⟨.call c, (host (.call c) state).1⟩] := by
  rw [call, trace_ask]
  cases (host (.call c) state).1 <;> rfl

@[simp]
theorem calls_call (host : Host σ) (c : Call) (state : σ) :
    (call c).calls host state = [c] := by
  rw [calls, trace_call]
  rfl

/-! ## Effects that a program may ask for -/

/-- Every effect that a program may ask for, whatever it is answered, is allowed. -/
def OnlyAsks (allowed : Effect → Prop) : Program α → Prop
  | done _ => True
  | ask effect next => allowed effect ∧ ∀ answer, (next answer).OnlyAsks allowed

namespace OnlyAsks

variable {allowed : Effect → Prop}

theorem bind {program : Program α} {next : α → Program β} (first : program.OnlyAsks allowed)
    (rest : ∀ result, (next result).OnlyAsks allowed) : (program.bind next).OnlyAsks allowed := by
  induction program with
  | done result => exact rest result
  | ask effect answered ih => exact ⟨first.1, fun answer => ih answer (first.2 answer)⟩

theorem request {effect : Effect} (member : allowed effect) :
    (request effect).OnlyAsks allowed :=
  ⟨member, fun _ => trivial⟩

theorem call {c : Call} (member : allowed (.call c)) : (call c).OnlyAsks allowed := by
  refine ⟨member, fun answer => ?_⟩
  cases answer <;> trivial

/-- Every step of a trace asks for an allowed effect. -/
theorem of_mem_trace {program : Program α} (only : program.OnlyAsks allowed) (host : Host σ)
    (state : σ) {step : Step} (member : step ∈ program.trace host state) : allowed step.1 := by
  induction program generalizing state with
  | done result => cases member
  | ask effect next ih =>
      rcases List.mem_cons.mp member with rfl | later
      · exact only.1
      · exact ih _ (only.2 _) _ later

/-- What every allowed effect keeps of a state and a record of the steps so far holds after a
run, of the record of all its steps. -/
theorem run_note {κ : Type} {host : Host σ} {note : κ → Step → κ} {keeps : σ → κ → Prop}
    (kept : ∀ effect state record, allowed effect → keeps state record →
      keeps (host effect state).2 (note record ⟨effect, (host effect state).1⟩))
    {program : Program α} (only : program.OnlyAsks allowed) {state : σ} {record : κ}
    (holds : keeps state record) :
    keeps (program.run host state).2 ((program.trace host state).foldl note record) := by
  induction program generalizing state record with
  | done result => exact holds
  | ask effect next ih => exact ih _ (only.2 _) (kept effect state record only.1 holds)

/-- What every allowed effect keeps of a state holds after a run. -/
theorem run_keeps {host : Host σ} {keeps : σ → Prop}
    (kept : ∀ effect state, allowed effect → keeps state → keeps (host effect state).2)
    {program : Program α} (only : program.OnlyAsks allowed) {state : σ} (holds : keeps state) :
    keeps (program.run host state).2 := by
  induction program generalizing state with
  | done result => exact holds
  | ask effect next ih => exact ih _ (only.2 _) (kept effect state only.1 holds)

end OnlyAsks

/-- An effect that is no call to the filesystem. -/
def IsSilent (effect : Effect) : Prop :=
  ∀ c, effect ≠ .call c

theorem calls_eq_nil {program : Program α} (silent : program.OnlyAsks IsSilent) (host : Host σ)
    (state : σ) : program.calls host state = [] := by
  apply List.filterMap_eq_nil_iff.mpr
  intro step member
  have noCall := silent.of_mem_trace host state member
  rcases step with ⟨effect, answer⟩
  cases effect with
  | call c => exact absurd rfl (noCall c)
  | _ => rfl

/-- A program that never calls the filesystem hands a value and a state on. -/
theorem bind_of_silent (β : Type) {program : Program α} (silent : program.OnlyAsks IsSilent)
    (host : Host σ) (state : σ) :
    ∃ value after, ∀ next : α → Program β,
      (program.bind next).run host state = (next value).run host after ∧
        (program.bind next).calls host state = (next value).calls host after := by
  refine ⟨(program.run host state).1, (program.run host state).2, fun next => ⟨run_bind .., ?_⟩⟩
  rw [calls_bind, calls_eq_nil silent, List.nil_append]

/-- Every call of a run is one that the program may ask for. -/
theorem OnlyAsks.of_mem_calls {allowed : Effect → Prop} {program : Program α}
    (only : program.OnlyAsks allowed) (host : Host σ) (state : σ) {c : Call}
    (member : c ∈ program.calls host state) : allowed (.call c) := by
  rcases List.mem_filterMap.mp member with ⟨step, traced, made⟩
  have member := only.of_mem_trace host state traced
  rcases step with ⟨effect, answer⟩
  cases effect with
  | call other => exact Option.some.inj made ▸ member
  | _ => cases made

end Program
end ExportVolumes
