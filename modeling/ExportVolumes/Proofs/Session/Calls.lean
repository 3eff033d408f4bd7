import ExportVolumes.Proofs.Filesystem.Rooted
import ExportVolumes.Proofs.Provisioner.Disposal
import ExportVolumes.Proofs.Session.Ledger

namespace ExportVolumes

/-!
What a program leaves of a tree.

A program that writes no files leaves the tree that its calls leave, one after the other, and is
given the answers of the tree (`Session.On.run`), or faults where some of its calls are refused
(`Session.On.tries`).  So what comes of provisioning and deletion on a tree can be read off their
calls, and depends on the tree and the classes alone (`Session.On.run_congr`).
-/

/-- A host that fails some calls, with no effect, and answers all else as another one does. -/
def Host.refusing {σ : Type} (refuse : Call → Option Fault) (host : Host σ) : Host σ
  | .call call, state =>
      match refuse call with
      | some fault => (.error fault, state)
      | none => host (.call call) state
  | effect, state => host effect state

theorem Host.refusing_never {σ : Type} (host : Host σ) :
    host.refusing (fun _ => none) = host := by
  funext effect state
  cases effect <;> rfl

/-- The answers of a tree to calls that are made one after the other, and the tree that they
leave. -/
inductive Tree.Answers (here : Location) : Tree → List (Call × Except Fault Bool) → Tree → Prop
  | none {tree : Tree} : Answers here tree [] tree
  | call {tree after : Tree} {call : Call} {answer : Except Fault Bool}
      {later : List (Call × Except Fault Bool)} (answered : (tree.answer here call).1 = answer)
      (onward : Answers here (tree.answer here call).2 later after) :
      Answers here tree ((call, answer) :: later) after

theorem Tree.Answers.of_single {here : Location} {tree after : Tree} {call : Call}
    {answer : Except Fault Bool} (answers : Answers here tree [(call, answer)] after) :
    tree.answer here call = (answer, after) := by
  cases answers with
  | call answered onward =>
      cases onward
      exact Prod.ext answered rfl

/-- Looking at a path leaves the tree as it is. -/
theorem Tree.Answers.of_look {here : Location} {tree after : Tree} {path : String}
    {answer : Except Fault Bool} {later : List (Call × Except Fault Bool)}
    (answers : Answers here tree ((.pathExists path, answer) :: later) after) :
    (tree.answer here (.pathExists path)).1 = answer ∧ Answers here tree later after := by
  cases answers with
  | call answered onward => exact ⟨answered, onward⟩

theorem Tree.Answers.rooted {here : Location} {tree after : Tree}
    {made : List (Call × Except Fault Bool)} (answers : Answers here tree made after)
    (rooted : tree.Rooted) : after.Rooted := by
  induction answers with
  | none => exact rooted
  | call answered onward ih => exact ih (rooted.answer here _)

/-- The answers to calls that are made one after the other on a tree, where some are refused, and
the tree that they leave. -/
inductive Tree.Tries (refuse : Call → Option Fault) (here : Location) :
    Tree → List (Call × Except Fault Bool) → Tree → Prop
  | none {tree : Tree} : Tries refuse here tree [] tree
  | refused {tree after : Tree} {call : Call} {fault : Fault}
      {later : List (Call × Except Fault Bool)} (refuses : refuse call = some fault)
      (onward : Tries refuse here tree later after) :
      Tries refuse here tree ((call, .error fault) :: later) after
  | heard {tree after : Tree} {call : Call} {answer : Except Fault Bool}
      {later : List (Call × Except Fault Bool)} (admits : refuse call = .none)
      (answered : (tree.answer here call).1 = answer)
      (onward : Tries refuse here (tree.answer here call).2 later after) :
      Tries refuse here tree ((call, answer) :: later) after

/-- Where no call is refused, the answers are those of the tree. -/
theorem Tree.Tries.answers {here : Location} {tree after : Tree}
    {made : List (Call × Except Fault Bool)} (tries : Tries (fun _ => .none) here tree made after) :
    Answers here tree made after := by
  induction tries with
  | none => exact .none
  | refused refuses => cases refuses
  | heard _ answered _ ih => exact .call answered ih

namespace Session.On

variable {session : Session} {settings : Settings} {tree : Tree} {here : Location}

/-- A program of which some calls fail leaves what its other calls leave. -/
theorem tries {α : Type} (refuse : Call → Option Fault) {allowed : Effect → Prop}
    {program : Program α} (only : program.OnlyAsks allowed)
    (harmless : ∀ path text, ¬allowed (.writeFile path text)) (on : session.On settings tree here) :
    ∃ after, (program.run (host.refusing refuse) session).2.On settings after here ∧
      Tree.Tries refuse here tree
        (answered (program.trace (host.refusing refuse) session)) after := by
  induction program generalizing session tree with
  | done result => exact ⟨tree, on, .none⟩
  | ask effect next ih =>
      rw [Program.run_ask, Program.trace_ask]
      cases effect with
      | call call =>
          cases refuses : refuse call with
          | some fault =>
              have answer : host.refusing refuse (.call call) session = (.error fault, session) := by
                simp only [Host.refusing, refuses]
              rw [answer]
              rcases ih _ (only.2 _) on with ⟨after, ends, tries⟩
              exact ⟨after, ends, .refused refuses tries⟩
          | none =>
              have answer : host.refusing refuse (.call call) session =
                  host (.call call) session := by
                simp only [Host.refusing, refuses]
              rw [answer]
              rcases on.call call with ⟨same, onward⟩
              rcases ih _ (only.2 _) onward with ⟨after, ends, tries⟩
              exact ⟨after, ends, .heard refuses same.symm tries⟩
      | writeFile path text => exact absurd only.1 (harmless path text)
      | findClass name => exact ih _ (only.2 _) on
      | readFile path => exact ih _ (only.2 _) on
      | freshId => exact ih _ (only.2 _) on
      | publish event => exact ih _ (only.2 _) ⟨on.settings, on.disk⟩
      | notify notice => exact ih _ (only.2 _) ⟨on.settings, on.disk⟩

/-- A program that writes no files leaves what its calls leave. -/
theorem run {α : Type} {allowed : Effect → Prop} {program : Program α}
    (only : program.OnlyAsks allowed) (harmless : ∀ path text, ¬allowed (.writeFile path text))
    (on : session.On settings tree here) :
    ∃ after, (program.run host session).2.On settings after here ∧
      Tree.Answers here tree (answered (program.trace host session)) after := by
  have tries := on.tries (fun _ => none) only harmless
  rw [Host.refusing_never] at tries
  rcases tries with ⟨after, ends, tries⟩
  exact ⟨after, ends, tries.answers⟩

theorem provision (on : session.On settings tree here) (order : Order) :
    ∃ after, (session.provision order).2.On settings after here ∧
      Tree.Answers here tree (answered ((settings.provision order).trace host session)) after := by
  rw [Session.provision, on.settings]
  exact on.run (settings.provision_onlyAsks order) fun _ _ => id

theorem delete (on : session.On settings tree here) (volume : Volume) :
    ∃ after, (session.delete volume).2.On settings after here ∧
      Tree.Answers here tree (answered ((settings.delete volume).trace host session)) after := by
  rw [Session.delete, on.settings]
  exact on.run (settings.delete_onlyAsks volume) fun _ _ => id

end Session.On

/-! ## Sessions on one tree -/

namespace Session

/-- No effect changes the classes that a session serves. -/
theorem findClass_host (effect : Effect) (session : Session) :
    (host effect session).2.findClass = session.findClass := by
  cases effect <;> rfl

theorem findClass_run {α : Type} (program : Program α) (session : Session) :
    (program.run host session).2.findClass = session.findClass := by
  induction program generalizing session with
  | done result => rfl
  | ask effect next ih => exact (ih _ _).trans (findClass_host effect session)

variable {one other : Session} {settings : Settings} {tree : Tree} {here : Location}

theorem On.host_congr (on : one.On settings tree here) (onOther : other.On settings tree here)
    (served : other.findClass = one.findClass) (effect : Effect) :
    (host effect other).1 = (host effect one).1 ∧
      ∃ after, (host effect one).2.On settings after here ∧
        (host effect other).2.On settings after here := by
  cases effect with
  | call call =>
      rcases on.call call with ⟨same, onward⟩
      rcases onOther.call call with ⟨sameOther, onwardOther⟩
      exact ⟨sameOther.trans same.symm, _, onward, onwardOther⟩
  | findClass name => exact ⟨congrFun served name, tree, on, onOther⟩
  | readFile path =>
      exact ⟨congrArg (Disk.read · path) (onOther.disk.trans on.disk.symm), tree, on, onOther⟩
  | writeFile path text =>
      simp only [host, on.disk, onOther.disk, Disk.write]
      cases tree.write here path text with
      | ok after => exact ⟨rfl, after, ⟨on.settings, rfl⟩, onOther.settings, rfl⟩
      | error cause => exact ⟨rfl, tree, ⟨on.settings, rfl⟩, onOther.settings, rfl⟩
  | freshId => exact ⟨rfl, tree, on, onOther⟩
  | publish event => exact ⟨rfl, tree, ⟨on.settings, on.disk⟩, onOther.settings, onOther.disk⟩
  | notify notice => exact ⟨rfl, tree, ⟨on.settings, on.disk⟩, onOther.settings, onOther.disk⟩

/-- What comes of a program depends on the tree and the classes alone. -/
theorem On.run_congr {α : Type} (program : Program α) (on : one.On settings tree here)
    (onOther : other.On settings tree here) (served : other.findClass = one.findClass) :
    (program.run host other).1 = (program.run host one).1 ∧
      ∃ after, (program.run host one).2.On settings after here ∧
        (program.run host other).2.On settings after here := by
  induction program generalizing one other tree with
  | done result => exact ⟨rfl, tree, on, onOther⟩
  | ask effect next ih =>
      rcases on.host_congr onOther served effect with ⟨answer, after, onward, onwardOther⟩
      rw [Program.run_ask, Program.run_ask, answer]
      refine ih _ onward onwardOther ?_
      rw [findClass_host, findClass_host, served]

end Session
end ExportVolumes
