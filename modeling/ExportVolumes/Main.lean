import ExportVolumes.CommandLine.Run
import ExportVolumes.Filesystem.Entry

/-!
The program: commands run on the system that it is called on.

Owners of files cannot be changed from here.  A call that leaves everything to the user and
the group with id 0 is taken as done, and any other one is not supported.
-/

namespace ExportVolumes
namespace Main

/-- The cause of a failed action, in the words of the system. -/
def faultOf (error : IO.Error) : Fault :=
  match error with
  | .noFileOrDirectory .. | .noSuchThing .. => SystemError.notFound.message
  | .alreadyExists .. => SystemError.exists.message
  | .resourceBusy .. => SystemError.busy.message
  | .unsatisfiedConstraints .. => SystemError.notEmpty.message
  | .inappropriateType _ code _ =>
      if code = 21 then SystemError.isDirectory.message else SystemError.notDirectory.message
  | .invalidArgument _ code _ =>
      if code = 36 then SystemError.nameTooLong.message else SystemError.invalid.message
  | .permissionDenied _ code _ =>
      if code = 1 then "Operation not permitted (os error 1)"
      else "Permission denied (os error 13)"
  | other => toString other

/-- The outcome of an action, or the cause of its failure. -/
def attempt (action : IO α) : IO (Except Fault α) := do
  match ← action.toBaseIO with
  | .ok value => return .ok value
  | .error error => return .error (faultOf error)

/-- The access rights that a group of three bits stands for. -/
def rights (bits : UInt32) : IO.AccessRight where
  read := bits &&& 4 ≠ 0
  write := bits &&& 2 ≠ 0
  execution := bits &&& 1 ≠ 0

/-- Set the mode of a file or a directory. -/
def setMode (path : String) (mode : UInt32) : IO Unit :=
  IO.setAccessRights path
    { user := rights (mode >>> 6), group := rights (mode >>> 3), other := rights mode }

/-- Whether there is anything at a path. -/
def pathExists (path : String) : IO Bool := do
  match ← (IO.FS.realPath path).toBaseIO with
  | .ok _ => return true
  | .error (.noFileOrDirectory ..) | .error (.noSuchThing ..) => return false
  | .error error => throw error

/-- Make the directories of a path that are missing, the shortest path first. -/
def makeDirectories (mode : UInt32) : List String → IO Unit
  | [] => return
  | path :: paths => do
      match ← (IO.FS.createDir path).toBaseIO with
      | .ok () => setMode path (Entry.newMode mode)
      | .error (.alreadyExists ..) => if paths.isEmpty then discard (IO.FS.createDirAll path)
      | .error error => throw error
      makeDirectories mode paths

/-- The paths to the directories that a path leads through, and to its own. -/
def pathsTo (text : String) : List String :=
  let path := Path.ofText text
  (List.range path.components.length).map fun count =>
    Path.text { path with components := path.components.take (count + 1) }

/-- Make a call to the filesystem. -/
def call : Call → IO Bool
  | .pathExists path => pathExists path
  | .createDirectories path mode => do
      makeDirectories mode (pathsTo path)
      return true
  | .setMode path mode => do
      setMode path mode
      return true
  | .setOwner path user group => do
      if !(← pathExists path) then
        throw (.noFileOrDirectory path 2 "")
      if user ≠ 0 || group ≠ 0 then
        throw (.userError "Operation not supported (os error 95)")
      return true
  | .removeTree path => do
      if ← pathExists path then IO.FS.removeDirAll path
      return true
  | .rename source target => do
      IO.FS.rename source target
      return true

/-- A fresh identifier in the usual form of 32 digits in five groups. -/
def freshId : IO String := do
  let bytes := (← IO.getRandomBytes 16).toList.map UInt8.toNat
  let marked := bytes.mapIdx fun i byte =>
    if i = 6 then 64 + byte % 16 else if i = 8 then 128 + byte % 64 else byte
  let digits := marked.flatMap fun byte => [Nat.digitChar (byte / 16), Nat.digitChar (byte % 16)]
  let group := fun first count => String.ofList ((digits.drop first).take count)
  return String.intercalate "-" [group 0 8, group 8 4, group 12 4, group 16 4, group 20 12]

/-- What the system answers to the effects of a command. -/
def host : (effect : Effect) → IO effect.Answer
  | .call c => attempt (call c)
  | .findClass name => return .error (.notFound name)
  | .publish _ => return
  | .notify notice => IO.eprintln (CommandLine.noticeLine notice)
  | .readFile path => attempt (IO.FS.readFile path)
  | .writeFile path content => attempt (IO.FS.writeFile path content)
  | .freshId => freshId

/-- The variables that a command looks at. -/
def knownVariables : List String :=
  CommandLine.filterVariable :: CommandLine.OptionName.common.filterMap (·.setBy?)

/-- The environment of the process. -/
def environment : IO Environment := do
  let held ← knownVariables.mapM fun name => return (name, ← IO.getEnv name)
  return fun name => (held.lookup name).join

end Main
end ExportVolumes

open ExportVolumes in
def main (arguments : List String) : IO UInt32 := do
  let outcome ← (CommandLine.run (← Main.environment) arguments).perform Main.host
  IO.print outcome.output
  IO.eprint outcome.errors
  return outcome.exitCode
