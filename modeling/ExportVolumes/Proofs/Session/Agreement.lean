import ExportVolumes.Proofs.Session.Places

namespace ExportVolumes

/-!
Ledgers that agree with a tree.

`Ledger.Agrees` is the invariant of a run under default naming: what the ledger says of a volume
can be seen in the tree.  It is kept by every change that spares the places of the volumes that
were issued, by taking a volume away from its place, and by entering an archive or a new volume.
-/

namespace Ledger

/-! ## The invariant -/

/-- What a ledger says can be seen in a tree. -/
structure Agrees (ledger : Ledger) (settings : Settings) (tree : Tree) : Prop where
  leads : tree.LeadsTo settings.root
  sameLength : ∀ first ∈ ledger.names, ∀ second ∈ ledger.names, SameLength first second
  laid : ∀ volume ∈ ledger.issued, settings.Lays volume
  named : ∀ volume ∈ ledger.issued, volume.name ∈ ledger.names
  distinct : ∀ first ∈ ledger.issued, ∀ second ∈ ledger.issued,
    first.name = second.name → first = second
  issued : ∀ volume ∈ ledger.live, volume ∈ ledger.issued
  nodup : ledger.live.Nodup
  present : ∀ volume ∈ ledger.live, tree.HasDirectory (settings.place volume)
  gone : ∀ volume ∈ ledger.issued, volume ∉ ledger.live →
    tree.get? (settings.place volume) = none
  archived : ∀ archive ∈ ledger.archives, ∃ volume ∈ ledger.issued, volume ∉ ledger.live ∧
    archive = Tree.pathTo (settings.archivePlace volume) ∧
      tree.HasDirectory (settings.archivePlace volume)

namespace Agrees

variable {ledger : Ledger} {settings : Settings} {tree after : Tree} {here : Location}

theorem home_of_live (agrees : ledger.Agrees settings tree)
    (absolute : settings.layout.mountRoot.absolute = true) {volume : Volume}
    (lives : volume ∈ ledger.live) : settings.home volume = settings.place volume :=
  (agrees.laid volume (agrees.issued volume lives)).home_eq absolute

theorem locationOf_archive (agrees : ledger.Agrees settings tree) {archive : String}
    (kept : archive ∈ ledger.archives) :
    ∃ volume ∈ ledger.issued, volume ∉ ledger.live ∧
      locationOf archive = settings.archivePlace volume := by
  rcases agrees.archived archive kept with ⟨volume, issued, dead, rfl, _⟩
  exact ⟨volume, issued, dead,
    locationOf_pathTo (agrees.laid volume issued).ordinary_archivePlace⟩

theorem name_ne (agrees : ledger.Agrees settings tree) {first second : Volume}
    (one : first ∈ ledger.issued) (other : second ∈ ledger.issued) (ne : first ≠ second) :
    first.name ≠ second.name :=
  fun same => ne (agrees.distinct first one second other same)

/-- The place of a volume is that of no other volume and of no archive of another one. -/
theorem place_ne (agrees : ledger.Agrees settings tree) {first second : Volume}
    (one : first ∈ ledger.issued) (other : second ∈ ledger.issued) (ne : first ≠ second) :
    settings.place first ≠ settings.place second ∧
      settings.place first ≠ settings.archivePlace second := by
  have laid := agrees.laid first one
  have theirs := agrees.laid second other
  have same := agrees.sameLength _ (agrees.named first one) _ (agrees.named second other)
  have names := agrees.name_ne one other ne
  have apart := laid.directoryName_ne theirs same names
  have marked := (theirs.archived_ne_directoryName laid same.symm names.symm).symm
  constructor
  · exact fun whole => apart (by simpa [Settings.place] using whole)
  · exact fun whole => marked (by simpa [Settings.place, Settings.archivePlace] using whole)

/-! ## Changes at other places -/

/-- A change that spares the entries at the places of every issued volume keeps the invariant. -/
theorem of_spared (agrees : ledger.Agrees settings tree) (leads : after.LeadsTo settings.root)
    (places : ∀ volume ∈ ledger.issued,
      after.get? (settings.place volume) = tree.get? (settings.place volume))
    (archives : ∀ volume ∈ ledger.issued,
      after.get? (settings.archivePlace volume) = tree.get? (settings.archivePlace volume)) :
    ledger.Agrees settings after where
  __ := agrees
  leads := leads
  present volume lives :=
    (agrees.present volume lives).of_get? (places volume (agrees.issued volume lives))
  gone volume issued dead := by
    rw [places volume issued]
    exact agrees.gone volume issued dead
  archived archive kept := by
    rcases agrees.archived archive kept with ⟨volume, issued, dead, named, present⟩
    exact ⟨volume, issued, dead, named, present.of_get? (archives volume issued)⟩

/-- What every place of an issued volume keeps, every guarded location keeps. -/
theorem guarded_of_spared (agrees : ledger.Agrees settings tree)
    (absolute : settings.layout.mountRoot.absolute = true)
    (spared : ∀ volume ∈ ledger.issued, ∀ location,
      settings.place volume <+: location ∨ settings.archivePlace volume <+: location →
        after.get? location = tree.get? location)
    {location : Location} (guarded : ledger.Guards settings location) :
    after.get? location = tree.get? location := by
  rcases guarded with ⟨volume, lives, inside⟩ | ⟨archive, kept, inside⟩
  · rw [agrees.home_of_live absolute lives] at inside
    exact spared volume (agrees.issued volume lives) location (Or.inl inside)
  · rcases agrees.locationOf_archive kept with ⟨volume, issued, _, place⟩
    exact spared volume issued location (Or.inr (place ▸ inside))

/-- A change at the places of a volume of a new name spares those of all issued ones. -/
theorem spared_of_fresh (agrees : ledger.Agrees settings tree) {other : Volume}
    (laid : settings.Lays other) (fresh : other.name ∉ ledger.names)
    (sameLength : ∀ name ∈ ledger.names, SameLength name other.name)
    (agree : Tree.AgreeOutside [settings.place other] tree after) :
    ∀ volume ∈ ledger.issued, ∀ location,
      settings.place volume <+: location ∨ settings.archivePlace volume <+: location →
        after.get? location = tree.get? location := by
  intro volume issued location under
  have named := agrees.named volume issued
  exact (agrees.laid volume issued).untouched laid (sameLength _ named)
    (fun same => fresh (same ▸ named)) (Settings.agreeOutside_places agree) under

/-- A change at the places of one issued volume spares those of the others. -/
theorem spared_of_ne (agrees : ledger.Agrees settings tree) {other : Volume}
    (known : other ∈ ledger.issued)
    (agree : Tree.AgreeOutside [settings.place other, settings.archivePlace other] tree after) :
    ∀ volume ∈ ledger.issued, volume ≠ other → ∀ location,
      settings.place volume <+: location ∨ settings.archivePlace volume <+: location →
        after.get? location = tree.get? location := by
  intro volume issued ne location under
  exact (agrees.laid volume issued).untouched (agrees.laid other known)
    (agrees.sameLength _ (agrees.named volume issued) _ (agrees.named other known))
    (agrees.name_ne issued known ne) agree under

/-! ## Removed and archived volumes -/

/-- The invariant after a volume is gone from its place, with the other places and the archives
spared. -/
theorem without (agrees : ledger.Agrees settings tree) {volume : Volume}
    (leads : after.LeadsTo settings.root)
    (spared : ∀ other ∈ ledger.issued, other ≠ volume → ∀ location,
      settings.place other <+: location ∨ settings.archivePlace other <+: location →
        after.get? location = tree.get? location)
    (absent : after.get? (settings.place volume) = none)
    (archive : volume ∉ ledger.live → ∀ location, settings.archivePlace volume <+: location →
      after.get? location = tree.get? location) :
    (ledger.without volume).Agrees settings after where
  __ := agrees
  leads := leads
  issued other lives := agrees.issued other (mem_without.mp lives).1
  nodup := agrees.nodup.filter _
  present other lives := by
    rcases mem_without.mp lives with ⟨lived, ne⟩
    have same := spared other (agrees.issued other lived) ne _ (Or.inl List.prefix_rfl)
    exact (agrees.present other lived).of_get? same
  gone other issued dead := by
    by_cases same : other = volume
    · rw [same, absent]
    · rw [spared other issued same _ (Or.inl List.prefix_rfl)]
      exact agrees.gone other issued (fun lives => dead (mem_without.mpr ⟨lives, same⟩))
  archived path kept := by
    rcases agrees.archived path kept with ⟨other, issued, dead, named, present⟩
    refine ⟨other, issued, fun lives => dead (mem_without.mp lives).1, named, ?_⟩
    by_cases same : other = volume
    · subst same
      exact present.of_get? (archive dead _ List.prefix_rfl)
    · exact present.of_get? (spared other issued same _ (Or.inr List.prefix_rfl))

/-- What is guarded when a volume is gone from its place is left as it was. -/
theorem guarded_without (agrees : ledger.Agrees settings tree)
    (absolute : settings.layout.mountRoot.absolute = true) {volume : Volume}
    (spared : ∀ other ∈ ledger.issued, other ≠ volume → ∀ location,
      settings.place other <+: location ∨ settings.archivePlace other <+: location →
        after.get? location = tree.get? location)
    (archive : volume ∉ ledger.live → ∀ location, settings.archivePlace volume <+: location →
      after.get? location = tree.get? location)
    {location : Location} (guarded : (ledger.without volume).Guards settings location) :
    after.get? location = tree.get? location := by
  rcases guarded with ⟨other, lives, inside⟩ | ⟨path, kept, inside⟩
  · rcases mem_without.mp lives with ⟨lived, ne⟩
    rw [agrees.home_of_live absolute lived] at inside
    exact spared other (agrees.issued other lived) ne location (Or.inl inside)
  · rcases agrees.locationOf_archive kept with ⟨other, issued, dead, place⟩
    rw [place] at inside
    by_cases same : other = volume
    · subst same
      exact archive dead location inside
    · exact spared other issued same location (Or.inr inside)

/-- The invariant after the archive of a volume that is gone is entered. -/
theorem enter (agrees : ledger.Agrees settings tree) {volume : Volume}
    (issued : volume ∈ ledger.issued) (dead : volume ∉ ledger.live)
    (present : tree.HasDirectory (settings.archivePlace volume)) :
    Agrees { ledger with archives := Tree.pathTo (settings.archivePlace volume) :: ledger.archives }
      settings tree where
  __ := agrees
  archived archive kept := by
    rcases List.mem_cons.mp kept with rfl | earlier
    · exact ⟨volume, issued, dead, rfl, present⟩
    · exact agrees.archived archive earlier

/-! ## New volumes -/

/-- The invariant after a volume name was asked for. -/
theorem ask (agrees : ledger.Agrees settings tree) {order : Order}
    (accepted : ledger.Accepts order) :
    Agrees { ledger with names := order.volumeName :: ledger.names } settings tree where
  __ := agrees
  sameLength first firstAsked second secondAsked := by
    rcases List.mem_cons.mp firstAsked with rfl | one
    · rcases List.mem_cons.mp secondAsked with rfl | other
      · exact Or.inl rfl
      · exact (accepted.sameLength second other).symm
    · rcases List.mem_cons.mp secondAsked with rfl | other
      · exact accepted.sameLength first one
      · exact agrees.sameLength first one second other
  named volume issued := List.mem_cons_of_mem _ (agrees.named volume issued)

/-- The invariant after a volume of a new name was issued. -/
theorem issue (agrees : ledger.Agrees settings tree) {volume : Volume}
    (laid : settings.Lays volume) (named : volume.name ∈ ledger.names)
    (fresh : ∀ other ∈ ledger.issued, other.name ≠ volume.name)
    (present : tree.HasDirectory (settings.place volume)) :
    Agrees { ledger with issued := volume :: ledger.issued, live := volume :: ledger.live }
      settings tree where
  leads := agrees.leads
  sameLength := agrees.sameLength
  laid := List.forall_mem_cons.mpr ⟨laid, agrees.laid⟩
  named := List.forall_mem_cons.mpr ⟨named, agrees.named⟩
  distinct first firstIssued second secondIssued same := by
    rcases List.mem_cons.mp firstIssued with rfl | one
    · rcases List.mem_cons.mp secondIssued with rfl | other
      · rfl
      · exact absurd same.symm (fresh second other)
    · rcases List.mem_cons.mp secondIssued with rfl | other
      · exact absurd same (fresh first one)
      · exact agrees.distinct first one second other same
  issued := List.forall_mem_cons.mpr ⟨List.mem_cons_self,
    fun other lives => List.mem_cons_of_mem _ (agrees.issued other lives)⟩
  nodup := List.nodup_cons.mpr
    ⟨fun lives => fresh volume (agrees.issued volume lives) rfl, agrees.nodup⟩
  present := List.forall_mem_cons.mpr ⟨present, agrees.present⟩
  gone := List.forall_mem_cons.mpr
    ⟨fun dead => absurd List.mem_cons_self dead,
      fun other issued dead =>
        agrees.gone other issued (fun lives => dead (List.mem_cons_of_mem _ lives))⟩
  archived archive kept := by
    rcases agrees.archived archive kept with ⟨other, issued, dead, named, held⟩
    refine ⟨other, List.mem_cons_of_mem _ issued, fun lives => ?_, named, held⟩
    rcases List.mem_cons.mp lives with rfl | lived
    · exact fresh other issued rfl
    · exact dead lived

/-- The invariant after an order was filled or refused. -/
theorem provisioned (agrees : ledger.Agrees settings tree) {order : Order}
    (accepted : ledger.Accepts order) {result : Except ProvisionerError Volume}
    (filled : ∀ volume, result = .ok volume → settings.Lays volume ∧
      volume.name = order.volumeName ∧ tree.HasDirectory (settings.place volume)) :
    (ledger.provisioned order result).Agrees settings tree := by
  cases result with
  | error cause => exact agrees.ask accepted
  | ok volume =>
      rcases filled volume rfl with ⟨laid, named, present⟩
      refine (agrees.ask accepted).issue laid (named ▸ List.mem_cons_self) ?_ present
      intro other issued same
      exact accepted.fresh (named ▸ same ▸ agrees.named other issued)

end Agrees
end Ledger
end ExportVolumes
