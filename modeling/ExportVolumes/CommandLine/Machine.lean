import ExportVolumes.CommandLine.Run
import ExportVolumes.Session

namespace ExportVolumes
namespace CommandLine

/-!
A machine to run commands on: a filesystem and a log.
-/

/-- The state of a machine. -/
structure Machine where
  disk : Disk
  /-- The notices that were logged, the latest first. -/
  notices : List Notice := []

namespace Machine

/-- What a machine answers to the effects of a command.  Commands answer look-ups of classes by
themselves, and nobody listens to their events. -/
def host : Host Machine
  | .call call, machine =>
      let (answer, disk) := machine.disk.answer call
      (answer, { machine with disk })
  | .findClass name, machine => (.error (.notFound name), machine)
  | .publish _, machine => ((), machine)
  | .notify notice, machine => ((), { machine with notices := notice :: machine.notices })
  | .readFile path, machine => (machine.disk.read path, machine)
  | .writeFile path content, machine =>
      let (answer, disk) := machine.disk.write path content
      (answer, { machine with disk })
  | .freshId, machine => ("<uuid>", machine)

/-- Run a command line. -/
def run (machine : Machine) (environment : Environment) (arguments : List String) :
    Outcome × Machine :=
  (CommandLine.run environment arguments).run host machine

end Machine
end CommandLine
end ExportVolumes
