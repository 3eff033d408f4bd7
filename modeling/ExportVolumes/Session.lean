import ExportVolumes.Broadcast
import ExportVolumes.Filesystem.Recording
import ExportVolumes.Filesystem.Calls
import ExportVolumes.Provisioner
import ExportVolumes.Registry

namespace ExportVolumes

/-!
A provisioner at work: its settings, the classes that it serves, a filesystem to work on and
the bus that its events go to.

The programs of the provisioner run on a session, one after another, and leave their mark in
its filesystem, its bus and its log.
-/

/-- A filesystem to work on. -/
inductive Disk where
  | recording (recording : Recording)
  | tree (tree : Tree) (here : Location)

namespace Disk

/-- Answer a call. -/
def answer (disk : Disk) (call : Call) : Except Fault Bool × Disk :=
  match disk with
  | recording r =>
      let (answer, r) := r.answer call
      (answer, .recording r)
  | tree t here =>
      let (answer, t) := t.answer here call
      (answer, .tree t here)

/-- The text of a file.  The stand-in holds none. -/
def read (disk : Disk) (path : String) : Except Fault String :=
  match disk with
  | recording _ => .error SystemError.notFound.message
  | tree t here => (t.read here path).mapError SystemError.message

/-- Write a file.  The stand-in takes none. -/
def write (disk : Disk) (path content : String) : Except Fault Unit × Disk :=
  match disk with
  | recording r => (.error SystemError.notFound.message, .recording r)
  | tree t here =>
      match t.write here path content with
      | .ok t => (.ok (), .tree t here)
      | .error cause => (.error cause.message, .tree t here)

end Disk

/-- The state of a provisioner at work. -/
structure Session where
  settings : Settings
  disk : Disk
  registry : Registry
  /-- Why class lookup does not work at the moment, if it does not. -/
  lookupFault : Option String := none
  bus : Broadcast Event
  /-- The log, the latest notice first. -/
  notices : List Notice := []

namespace Session

/-- The receiver that is there from the start. -/
def firstReceiver : Nat := 0

/-- A session with one receiver of its events.  There is none without room for events. -/
def open? (settings : Settings) (disk : Disk) (registry : Registry) (capacity : Nat) :
    Option Session :=
  (Broadcast.ofCapacity? Event capacity).map fun bus =>
    { settings, disk, registry, bus := bus.subscribe.2 }

/-- Look up a storage class. -/
def findClass (session : Session) (name : String) : Except LookupError StorageClass :=
  match session.lookupFault with
  | some reason => .error (.unavailable reason)
  | none => session.registry.find name

/-- What a session answers to the effects of a program. -/
def host : Host Session
  | .call call, session =>
      let (answer, disk) := session.disk.answer call
      (answer, { session with disk })
  | .findClass name, session => (session.findClass name, session)
  | .publish event, session => ((), { session with bus := session.bus.send event })
  | .notify notice, session => ((), { session with notices := notice :: session.notices })
  | .readFile path, session => (session.disk.read path, session)
  | .writeFile path content, session =>
      let (answer, disk) := session.disk.write path content
      (answer, { session with disk })
  | .freshId, session => ("<uuid>", session)

/-- Provision a volume. -/
def provision (session : Session) (order : Order) : Except ProvisionerError Volume × Session :=
  (session.settings.provision order).run host session

/-- Release a volume. -/
def delete (session : Session) (volume : Volume) : Except ProvisionerError Unit × Session :=
  (session.settings.delete volume).run host session

/-- Take what the first receiver has not received yet. -/
def takeEvents (session : Session) : List (Broadcast.Received Event) × Session :=
  let (received, bus) := session.bus.drain firstReceiver
  (received, { session with bus })

end Session
end ExportVolumes
