import ExportVolumes.Proofs.Layout.DefaultNaming
import ExportVolumes.Proofs.Program.Trace
import ExportVolumes.Session

namespace ExportVolumes

/-!
Runs of a provisioner under default naming, and a ledger of what they have done.

A ledger is written from answers alone: the descriptors that provisioning returned, and the calls
of a deletion that succeeded.  `Reaches` are the sessions that come from a start by provisioning
and deletion in any order.  Between two of them the registry may change, and clients may do what
they like below the directories of their volumes.
-/

/-- What a disk holds at a location.  The stand-in holds no entries. -/
def Disk.entry? : Disk → Location → Option Entry
  | .recording _, _ => none
  | .tree held _, location => held.get? location

/-- The names that an absolute path leads through. -/
def locationOf (path : String) : Location :=
  (Path.ofText path).names

namespace Settings

/-- Where the mount root is. -/
def root (settings : Settings) : Location :=
  settings.layout.mountRoot.names

/-- Where deletion looks for the directory of a volume. -/
def home (settings : Settings) (volume : Volume) : Location :=
  locationOf (settings.layout.localPathFor volume.nfs.path)

end Settings

/-- The mount root has an absolute path, and it is there. -/
structure Session.IsMounted (session : Session) : Prop where
  absolute : session.settings.layout.mountRoot.absolute = true
  present : ∀ above, above <+: session.settings.root →
    ∃ entry, session.disk.entry? above = some entry ∧ entry.isDirectory = true

/-- What a run has done. -/
structure Ledger where
  /-- The volume names that were asked for. -/
  names : List String := []
  /-- The descriptors that were returned. -/
  issued : List Volume := []
  /-- The volumes that were provisioned and neither removed nor archived since. -/
  live : List Volume := []
  /-- The paths that volumes were archived to. -/
  archives : List String := []
  deriving DecidableEq, Repr

namespace Ledger

/-- An order that may be filled: of a class without a pattern, of names without slashes, and of a
volume name that is new and as long as those before. -/
structure Accepts (ledger : Ledger) (order : Order) : Prop where
  patternless : order.storageClass.pathPattern? = none
  namespaceFree : '/' ∉ order.claim.metadata.namespaceName.toList
  claimFree : '/' ∉ order.claim.metadata.name.toList
  volumeFree : '/' ∉ order.volumeName.toList
  fresh : order.volumeName ∉ ledger.names
  sameLength : ∀ name ∈ ledger.names, SameLength name order.volumeName

/-- The ledger after an order was answered. -/
def provisioned (ledger : Ledger) (order : Order) : Except ProvisionerError Volume → Ledger
  | .error _ => { ledger with names := order.volumeName :: ledger.names }
  | .ok volume =>
      { ledger with
        names := order.volumeName :: ledger.names
        issued := volume :: ledger.issued
        live := volume :: ledger.live }

/-- The ledger without a volume among those that live. -/
def without (ledger : Ledger) (volume : Volume) : Ledger :=
  { ledger with live := ledger.live.filter (· ≠ volume) }

/-- Take a step of a deletion into the ledger. -/
def note (volume : Volume) (ledger : Ledger) : Step → Ledger
  | ⟨.call (.removeTree _), .ok _⟩ => ledger.without volume
  | ⟨.call (.rename _ target), .ok _⟩ =>
      { ledger.without volume with archives := target :: ledger.archives }
  | _ => ledger

/-- The ledger after a deletion. -/
def deleted (ledger : Ledger) (volume : Volume) (trace : List Step) : Ledger :=
  trace.foldl (note volume) ledger

/-- A location lies in the directory of a live volume or in an archive. -/
def Guards (ledger : Ledger) (settings : Settings) (location : Location) : Prop :=
  (∃ volume ∈ ledger.live, settings.home volume <+: location) ∨
    ∃ archive ∈ ledger.archives, locationOf archive <+: location

theorem mem_without {ledger : Ledger} {volume other : Volume} :
    other ∈ (ledger.without volume).live ↔ other ∈ ledger.live ∧ other ≠ volume := by
  simp [without]

section Note

variable (ledger : Ledger) (volume : Volume) (step : Step)

theorem issued_note : (ledger.note volume step).issued = ledger.issued := by
  unfold note
  split <;> rfl

theorem mem_live_note {other : Volume} (lives : other ∈ ledger.live) (ne : other ≠ volume) :
    other ∈ (ledger.note volume step).live := by
  unfold note
  split
  · exact mem_without.mpr ⟨lives, ne⟩
  · exact mem_without.mpr ⟨lives, ne⟩
  · exact lives

theorem mem_archives_note {archive : String} (kept : archive ∈ ledger.archives) :
    archive ∈ (ledger.note volume step).archives := by
  unfold note
  split
  · exact kept
  · exact List.mem_cons_of_mem _ kept
  · exact kept

/-- Whatever a step of a deletion does, other volumes and archives stay guarded. -/
theorem guards_note {settings : Settings} {location : Location}
    (guarded : (ledger.without volume).Guards settings location) :
    ((ledger.note volume step).without volume).Guards settings location := by
  rcases guarded with ⟨other, lives, inside⟩ | ⟨archive, kept, inside⟩
  · rcases mem_without.mp lives with ⟨lived, ne⟩
    exact Or.inl ⟨other, mem_without.mpr ⟨ledger.mem_live_note volume step lived ne, ne⟩, inside⟩
  · exact Or.inr ⟨archive, ledger.mem_archives_note volume step kept, inside⟩

end Note
end Ledger

/-- A session works under given settings on a tree. -/
structure Session.On (session : Session) (settings : Settings) (tree : Tree) (here : Location) :
    Prop where
  settings : session.settings = settings
  disk : session.disk = .tree tree here

theorem Session.On.entry? {session : Session} {settings : Settings} {tree : Tree}
    {here : Location} (on : session.On settings tree here) (location : Location) :
    session.disk.entry? location = tree.get? location := by
  rw [on.disk]
  rfl

theorem Session.On.tree_eq {session : Session} {settings : Settings} {first second : Tree}
    {here : Location} (one : session.On settings first here)
    (other : session.On settings second here) : first = second := by
  have same := one.disk.symm.trans other.disk
  cases same
  rfl

/-- What a session answers to a call is what its tree answers. -/
theorem Session.On.call {session : Session} {settings : Settings} {tree : Tree} {here : Location}
    (on : session.On settings tree here) (c : Call) :
    (Session.host (.call c) session).1 = (tree.answer here c).1 ∧
      (Session.host (.call c) session).2.On settings (tree.answer here c).2 here := by
  simp only [Session.host, on.disk, Disk.answer]
  exact ⟨rfl, on.settings, rfl⟩

/-- Sessions that differ at most in their registries, their events and logs, and below the
directories of live volumes. -/
structure Session.Works (ledger : Ledger) (before after : Session) : Prop where
  settings : after.settings = before.settings
  outside : ∀ location, (∀ volume ∈ ledger.live, ¬ (before.settings.home volume <+: location ∧
      location ≠ before.settings.home volume)) →
    after.disk.entry? location = before.disk.entry? location

/-- The sessions that come from a start, each with the ledger of the way to it. -/
inductive Reaches (start : Session) : Session → Ledger → Prop where
  | start : Reaches start start {}
  | provision {session : Session} {ledger : Ledger} {order : Order}
      (reached : Reaches start session ledger) (accepted : ledger.Accepts order) :
      Reaches start (session.provision order).2
        (ledger.provisioned order (session.provision order).1)
  | delete {session : Session} {ledger : Ledger} {volume : Volume}
      (reached : Reaches start session ledger) (issued : volume ∈ ledger.issued) :
      Reaches start (session.delete volume).2
        (ledger.deleted volume ((session.settings.delete volume).trace Session.host session))
  | work {session after : Session} {ledger : Ledger} (reached : Reaches start session ledger)
      (works : session.Works ledger after) : Reaches start after ledger

end ExportVolumes
