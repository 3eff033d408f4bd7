import ExportVolumes.Event
import ExportVolumes.StorageClass

namespace ExportVolumes

/-!
What provisioning asks of the world around it, and programs made of such questions.

A program is a value: which questions it puts, in which order and depending on which
answers, can be read off it.  `Program.run` answers them from a state, so one program runs
on a recording double, on a tree of directories or on anything else that can answer.
-/

/-- Why a call to the filesystem failed, in the words of the operating system. -/
abbrev Fault := String

/-- A kind of call to the filesystem, as errors name it. -/
inductive Operation where
  | inspect
  | createDirectory
  | changeMode
  | changeOwner
  | remove
  | rename
  deriving DecidableEq, Repr

/-- The verb of an operation. -/
def Operation.verb : Operation → String
  | .inspect => "stat"
  | .createDirectory => "create directory"
  | .changeMode => "chmod"
  | .changeOwner => "chown"
  | .remove => "remove"
  | .rename => "rename"

/-- A failed call to the filesystem. -/
structure FilesystemError where
  operation : Operation
  path : String
  fault : Fault
  deriving DecidableEq, Repr

/-- The wording of a failed call. -/
def FilesystemError.message (error : FilesystemError) : String :=
  "unable to " ++ error.operation.verb ++ " " ++ error.path ++ ": " ++ error.fault

/-- A call to the filesystem. -/
inductive Call where
  | pathExists (path : String)
  /-- Create a directory and its missing parents. -/
  | createDirectories (path : String) (mode : UInt32)
  | setMode (path : String) (mode : UInt32)
  | setOwner (path : String) (user group : UInt32)
  /-- Remove a directory and all below it. -/
  | removeTree (path : String)
  | rename (source target : String)
  deriving DecidableEq, Repr

namespace Call

/-- The operation that a call is an instance of. -/
def operation : Call → Operation
  | pathExists _ => .inspect
  | createDirectories .. => .createDirectory
  | setMode .. => .changeMode
  | setOwner .. => .changeOwner
  | removeTree _ => .remove
  | rename .. => .rename

/-- The path that an error of the call names. -/
def path : Call → String
  | pathExists path | createDirectories path _ | setMode path _ | setOwner path _ _
  | removeTree path | rename path _ => path

/-- Whether a call can change the filesystem. -/
def isMutating : Call → Bool
  | pathExists _ => false
  | _ => true

/-- The error of a failed call. -/
def error (call : Call) (fault : Fault) : FilesystemError :=
  { operation := call.operation, path := call.path, fault }

end Call

/-- Something that went wrong, for the log. -/
inductive Notice where
  /-- An owner annotation is unusable and a default is taken. -/
  | ownerFallback (volumeName annotation value reason : String) (default : UInt32)
  | deletionSkipped (path : String)
  /-- There is nothing to start with, and the work ends. -/
  | startupFailed (reason : String)
  deriving DecidableEq, Repr

/-- What a program can ask for. -/
inductive Effect where
  /-- A call to the filesystem.  Its answer is whether a path exists, and `true` otherwise. -/
  | call (call : Call)
  | findClass (name : String)
  | publish (event : Event)
  | notify (notice : Notice)
  | readFile (path : String)
  | writeFile (path content : String)
  /-- An identifier that was never given out before. -/
  | freshId
  deriving DecidableEq, Repr

/-- The answers to an effect. -/
def Effect.Answer : Effect → Type
  | .call _ => Except Fault Bool
  | .findClass _ => Except LookupError StorageClass
  | .publish _ => Unit
  | .notify _ => Unit
  | .readFile _ => Except Fault String
  | .writeFile .. => Except Fault Unit
  | .freshId => String

/-- A program: a result, or an effect and how to go on from its answer. -/
inductive Program (α : Type) where
  | done (result : α)
  | ask (effect : Effect) (next : effect.Answer → Program α)

/-- What answers the effects of a program, from a state. -/
abbrev Host (σ : Type) := (effect : Effect) → σ → effect.Answer × σ

namespace Program

variable {α β σ : Type}

/-- Go on with the result of a program. -/
def bind : Program α → (α → Program β) → Program β
  | done result, next => next result
  | ask effect answered, next => ask effect fun answer => (answered answer).bind next

instance : Monad Program where
  pure := done
  bind := bind

/-- Run a program on a host. -/
def run (host : Host σ) : Program α → σ → α × σ
  | done result, state => (result, state)
  | ask effect next, state =>
      let (answer, state) := host effect state
      (next answer).run host state

/-- Run a program where answers come from actions. -/
def perform {m : Type → Type} [Monad m] (host : (effect : Effect) → m effect.Answer) :
    Program α → m α
  | done result => pure result
  | ask effect next => do
      let answer ← host effect
      (next answer).perform host

/-- Ask for one effect. -/
def request (effect : Effect) : Program effect.Answer :=
  ask effect done

/-- Make a call to the filesystem. -/
def call (c : Call) : Program (Except FilesystemError Bool) :=
  ask (.call c) fun
    | .ok answer => done (.ok answer)
    | .error fault => done (.error (c.error fault))

/-- Publish an event. -/
def publish (event : Event) : Program Unit :=
  request (.publish event)

/-- Put a notice into the log. -/
def notify (notice : Notice) : Program Unit :=
  request (.notify notice)

/-- Look up a storage class. -/
def findClass (name : String) : Program (Except LookupError StorageClass) :=
  request (.findClass name)

/-- Read the text of a file. -/
def readFile (path : String) : Program (Except Fault String) :=
  request (.readFile path)

/-- Write a file. -/
def writeFile (path content : String) : Program (Except Fault Unit) :=
  request (.writeFile path content)

/-- Take an identifier that was never given out before. -/
def freshId : Program String :=
  request .freshId

/-- Whether there is anything at a path; what cannot be looked at is not there. -/
def isPresent (path : String) : Program Bool :=
  ask (.call (.pathExists path)) fun
    | .ok found => done found
    | .error _ => done false

/-! ## Running -/

@[simp]
theorem pure_eq_done (result : α) : (pure result : Program α) = done result := rfl

@[simp]
theorem bind_eq_bind (program : Program α) (next : α → Program β) :
    (program >>= next) = program.bind next := rfl

@[simp]
theorem run_done (host : Host σ) (result : α) (state : σ) :
    (done result).run host state = (result, state) := rfl

@[simp]
theorem run_ask (host : Host σ) (effect : Effect) (next : effect.Answer → Program α)
    (state : σ) :
    (ask effect next).run host state =
      (next (host effect state).1).run host (host effect state).2 := rfl

theorem run_bind (host : Host σ) (program : Program α) (next : α → Program β) (state : σ) :
    (program.bind next).run host state =
      (next (program.run host state).1).run host (program.run host state).2 := by
  induction program generalizing state with
  | done result => rfl
  | ask effect answered ih => exact ih _ _

end Program

/-! ## Traces -/

/-- An effect and the answer that it was given. -/
abbrev Step := (effect : Effect) × effect.Answer

/-- The host that also writes down each effect with its answer, the latest first. -/
def Host.tracing {σ : Type} (host : Host σ) : Host (σ × List Step) :=
  fun effect state =>
    let (answer, next) := host effect state.1
    (answer, (next, ⟨effect, answer⟩ :: state.2))

end ExportVolumes
