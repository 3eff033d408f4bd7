import ExportVolumes.Proofs.Filesystem.Frame
import ExportVolumes.Proofs.Session.Agreement

namespace ExportVolumes

/-!
Volumes of one run keep to their directories.

A call of a deletion keeps the ledger in agreement with the tree, and leaves the directories of
other volumes and all archives as they were (`Agrees.deletion_call`); a call of an order changes
nothing but the place of its volume (`Settings.Filling.step`).  So whole orders and deletions keep
the ledger in agreement (`Agrees.provision`, `Agrees.delete`), and with them every run does
(`Reaches.isolated`).
-/

namespace Ledger

/-- A session on the way through a deletion, with the ledger so far: it agrees with the tree, and
what was guarded at the beginning is guarded still and as it was. -/
structure Deleting (ledger : Ledger) (settings : Settings) (tree : Tree) (here : Location)
    (volume : Volume) (session : Session) (record : Ledger) : Prop where
  issued : volume ∈ record.issued
  guards : ∀ location, (ledger.without volume).Guards settings location →
    (record.without volume).Guards settings location
  agrees : ∃ after, session.On settings after here ∧ record.Agrees settings after ∧
    ∀ location, (ledger.without volume).Guards settings location →
      after.get? location = tree.get? location

namespace Agrees

variable {ledger : Ledger} {settings : Settings} {tree : Tree}

/-! ## Deletions -/

variable (agrees : ledger.Agrees settings tree)
  (absolute : settings.layout.mountRoot.absolute = true)

include agrees absolute

/-- Removing the directory of a volume keeps the ledger in agreement, and what it guards. -/
theorem removal {volume : Volume} (issued : volume ∈ ledger.issued) {path : String}
    (asked : path = settings.layout.localPathFor volume.nfs.path) (here : Location) :
    (ledger.note volume
        ⟨.call (.removeTree path), (tree.answer here (.removeTree path)).1⟩).Agrees settings
        (tree.answer here (.removeTree path)).2 ∧
      ∀ location, (ledger.without volume).Guards settings location →
        (tree.answer here (.removeTree path)).2.get? location = tree.get? location := by
  have laid := agrees.laid volume issued
  have place : path = Tree.pathTo (settings.root ++ [volume.directoryName]) :=
    asked.trans (laid.localPathFor_eq absolute)
  have answers := Tree.answer_removeTree agrees.leads laid.ordinary_place here
  rw [← place] at answers
  rcases answers with ⟨agree, _, absent, kept⟩
  cases answered : (tree.answer here (.removeTree path)).1 with
  | error fault =>
      rw [kept fault answered]
      exact ⟨agrees, fun _ _ => rfl⟩
  | ok found =>
      have agreed := Settings.agreeOutside_places agree
      have spared := agrees.spared_of_ne issued agreed
      -- A volume that was archived may be deleted again: its archive is not its directory.
      have archive : volume ∉ ledger.live → ∀ location, settings.archivePlace volume <+: location →
          (tree.answer here (.removeTree path)).2.get? location = tree.get? location := by
        intro _ location inside
        refine agree.under ?_ inside
        intro top member
        exact ⟨_, List.mem_singleton.mp member, Layout.archiveMark_append_ne _⟩
      have leads := Settings.leadsTo_root agreed agrees.leads
      exact ⟨agrees.without leads spared (absent found answered) archive,
        fun _ guarded => agrees.guarded_without absolute spared archive guarded⟩

/-- The ledger with the archive of a live volume in place of the volume agrees with the tree in
which its directory was moved there, and all else that is guarded is as it was. -/
theorem moved {volume : Volume} (lives : volume ∈ ledger.live) :
    Agrees { ledger.without volume with
          archives := Tree.pathTo (settings.archivePlace volume) :: ledger.archives }
        settings (tree.move (settings.place volume) (settings.archivePlace volume)) ∧
      ∀ location, (ledger.without volume).Guards settings location →
        (tree.move (settings.place volume) (settings.archivePlace volume)).get? location =
          tree.get? location := by
  have issued := agrees.issued volume lives
  have agree := Tree.AgreeOutside.move tree (settings.place volume) (settings.archivePlace volume)
  have spared := agrees.spared_of_ne issued agree
  have archive : volume ∉ ledger.live → ∀ location, settings.archivePlace volume <+: location →
      (tree.move (settings.place volume) (settings.archivePlace volume)).get? location =
        tree.get? location :=
    fun dead => absurd lives dead
  have leads := Settings.leadsTo_root agree agrees.leads
  have apart : ¬ settings.archivePlace volume <+: settings.place volume :=
    fun inside => Layout.archiveMark_append_ne _ (name_eq_of_covers inside List.prefix_rfl)
  have gone := tree.get?_move_source apart
  have arrived : (tree.move (settings.place volume) (settings.archivePlace volume)).HasDirectory
      (settings.archivePlace volume) := by
    rcases agrees.present volume lives with ⟨entry, there, kind⟩
    exact ⟨entry, (tree.get?_move_target apart).trans there, kind⟩
  have left := agrees.without leads spared gone archive
  exact ⟨left.enter issued (fun lives => (mem_without.mp lives).2 rfl) arrived,
    fun _ guarded => agrees.guarded_without absolute spared archive guarded⟩

/-- Asking for the directory of a volume to be moved to its archive keeps the ledger in agreement,
and what it guards. -/
theorem archival {volume : Volume} (issued : volume ∈ ledger.issued) {source target : String}
    (asked : source = settings.layout.localPathFor volume.nfs.path ∧
      target = settings.layout.archivePathFor volume.nfs.path) (here : Location) :
    (ledger.note volume
        ⟨.call (.rename source target), (tree.answer here (.rename source target)).1⟩).Agrees
        settings (tree.answer here (.rename source target)).2 ∧
      ∀ location, (ledger.without volume).Guards settings location →
        (tree.answer here (.rename source target)).2.get? location = tree.get? location := by
  have laid := agrees.laid volume issued
  have place : source = Tree.pathTo (settings.root ++ [volume.directoryName]) :=
    asked.1.trans (laid.localPathFor_eq absolute)
  have archivePlace : target = Tree.pathTo (settings.root ++
      [Layout.archiveMark ++ volume.directoryName]) :=
    asked.2.trans (laid.archivePathFor_eq absolute)
  have marked := Layout.archiveMark_append_ne volume.directoryName
  have answers := Tree.answer_rename agrees.leads marked.symm laid.ordinary_place
    laid.ordinary_archivePlace here
  rw [← place, ← archivePlace] at answers
  rcases answers with ⟨fault, refused⟩ | ⟨⟨entry, held⟩, moved⟩
  · rw [refused]
    exact ⟨agrees, fun _ _ => rfl⟩
  · -- There was something to move, and a volume that is not live has nothing at its place.
    have lives : volume ∈ ledger.live := by
      by_cases lives : volume ∈ ledger.live
      · exact lives
      · exact absurd (held.symm.trans (agrees.gone volume issued lives)) (Option.some_ne_none entry)
    rw [moved, show target = Tree.pathTo (settings.archivePlace volume) from archivePlace]
    exact agrees.moved absolute lives

/-- A call of a deletion keeps the ledger in agreement, and what it guards. -/
theorem deletion_call {volume : Volume} (issued : volume ∈ ledger.issued) {c : Call}
    (asked : settings.DeletionAsks volume (.call c)) (here : Location) :
    (ledger.note volume ⟨.call c, (tree.answer here c).1⟩).Agrees settings
        (tree.answer here c).2 ∧
      ∀ location, (ledger.without volume).Guards settings location →
        (tree.answer here c).2.get? location = tree.get? location := by
  cases c with
  | pathExists path => exact ⟨agrees, fun _ _ => rfl⟩
  | removeTree path => exact agrees.removal absolute issued asked here
  | rename source target => exact agrees.archival absolute issued asked here
  | _ => exact absurd asked id

end Agrees

/-- What holds on the way through a deletion holds after its next step. -/
theorem Deleting.step {ledger : Ledger} {settings : Settings} {tree : Tree} {here : Location}
    {volume : Volume} (absolute : settings.layout.mountRoot.absolute = true) (effect : Effect)
    (session : Session) (record : Ledger) (asked : settings.DeletionAsks volume effect)
    (way : ledger.Deleting settings tree here volume session record) :
    ledger.Deleting settings tree here volume (Session.host effect session).2
      (record.note volume ⟨effect, (Session.host effect session).1⟩) := by
  rcases way.agrees with ⟨after, on, agrees, same⟩
  have issued := record.issued_note volume ⟨effect, (Session.host effect session).1⟩ ▸ way.issued
  have guards := fun location guarded =>
    record.guards_note volume ⟨effect, (Session.host effect session).1⟩
      (way.guards location guarded)
  cases effect with
  | call c =>
      rcases on.call c with ⟨answer, next⟩
      rcases agrees.deletion_call absolute way.issued asked here with ⟨agreed, spared⟩
      rw [← answer] at agreed
      exact ⟨issued, guards, _, next, agreed, fun location guarded =>
        (spared location (way.guards location guarded)).trans (same location guarded)⟩
  | findClass name => exact ⟨issued, guards, after, on, agrees, same⟩
  | publish event => exact ⟨issued, guards, after, ⟨on.settings, on.disk⟩, agrees, same⟩
  | notify notice => exact ⟨issued, guards, after, ⟨on.settings, on.disk⟩, agrees, same⟩
  | _ => exact absurd asked id

/-- A deletion keeps the ledger in agreement, and what it guards. -/
theorem Agrees.delete {ledger : Ledger} {settings : Settings} {tree : Tree} {here : Location}
    (agrees : ledger.Agrees settings tree) (absolute : settings.layout.mountRoot.absolute = true)
    {volume : Volume} (issued : volume ∈ ledger.issued) {session : Session}
    (on : session.On settings tree here) :
    ∃ after, (session.delete volume).2.On settings after here ∧
      (ledger.deleted volume
        ((session.settings.delete volume).trace Session.host session)).Agrees settings after ∧
      ∀ location, (ledger.without volume).Guards settings location →
        after.get? location = tree.get? location := by
  have start : ledger.Deleting settings tree here volume session ledger :=
    ⟨issued, fun _ guarded => guarded, tree, on, agrees, fun _ _ => rfl⟩
  have finish := (settings.delete_onlyAsks volume).run_note (Deleting.step absolute) start
  rw [Session.delete, on.settings]
  exact finish.agrees

end Ledger

/-! ## Orders -/

/-- A session on the way through an order: nothing but the place of its volume has changed, and a
directory there has stayed one. -/
structure Settings.Filling (settings : Settings) (tree : Tree) (here : Location) (volume : Volume)
    (session : Session) : Prop where
  reached : ∃ after, session.On settings after here ∧
    Tree.AgreeOutside [settings.place volume] tree after ∧
      (tree.HasDirectory (settings.place volume) → after.HasDirectory (settings.place volume))

/-- What holds on the way through an order holds after its next step. -/
theorem Settings.Filling.step {settings : Settings} {tree : Tree} {here : Location} {order : Order}
    {site : Site} (leads : tree.LeadsTo settings.root) (found : settings.site order = .ok site)
    (laid : settings.Lays (settings.volume order site))
    (localPath : site.paths.localPath = Tree.pathTo (settings.place (settings.volume order site)))
    (effect : Effect) (session : Session) (asked : settings.ProvisionAsks order effect)
    (way : settings.Filling tree here (settings.volume order site) session) :
    settings.Filling tree here (settings.volume order site) (Session.host effect session).2 := by
  rcases way.reached with ⟨after, on, agree, stays⟩
  have leading := Settings.leadsTo_root (Settings.agreeOutside_places agree) leads
  have making : ∀ c, (∃ mode, c = .createDirectories site.paths.localPath mode) ∨
      (∃ mode, c = .setMode site.paths.localPath mode) ∨
        (∃ user group, c = .setOwner site.paths.localPath user group) →
      settings.Filling tree here (settings.volume order site)
        (Session.host (.call c) session).2 := by
    intro c made
    rw [localPath] at made
    rcases Tree.answer_making leading laid.ordinary_place here made with ⟨spared, kept⟩
    exact ⟨_, (on.call c).2, agree.trans spared, fun present => kept (stays present)⟩
  have same : ∀ other path, settings.site order = .ok other → path = other.paths.localPath →
      path = site.paths.localPath := by
    intro other path found' named
    rw [found, Except.ok.injEq] at found'
    rw [named, found']
  cases effect with
  | call c =>
      apply making
      cases c with
      | createDirectories path mode =>
          rcases asked with ⟨other, chosen, named⟩
          exact Or.inl ⟨mode, by rw [same other path chosen named]⟩
      | setMode path mode =>
          rcases asked with ⟨other, chosen, named⟩
          exact Or.inr (Or.inl ⟨mode, by rw [same other path chosen named]⟩)
      | setOwner path user group =>
          rcases asked with ⟨other, chosen, named⟩
          exact Or.inr (Or.inr ⟨user, group, by rw [same other path chosen named]⟩)
      | _ => exact absurd asked id
  | publish event => exact ⟨after, ⟨on.settings, on.disk⟩, agree, stays⟩
  | notify notice => exact ⟨after, ⟨on.settings, on.disk⟩, agree, stays⟩
  | _ => exact absurd asked id

/-- Where an order was filled there is a directory. -/
theorem Settings.hasDirectory_of_provision {settings : Settings} {tree after : Tree}
    {here : Location} {order : Order} {site : Site} {session : Session} {volume : Volume}
    (leads : tree.LeadsTo settings.root) (found : settings.site order = .ok site)
    (laid : settings.Lays (settings.volume order site))
    (localPath : site.paths.localPath = Tree.pathTo (settings.place (settings.volume order site)))
    (on : session.On settings tree here)
    (provisioned : ((settings.provision order).run Session.host session).1 = .ok volume)
    (next : ((settings.provision order).run Session.host session).2.On settings after here) :
    after.HasDirectory (settings.place (settings.volume order site)) := by
  rcases Settings.provision_begins provisioned with
    ⟨other, answer, begun, rest, chosen, created, only, run⟩
  cases found.symm.trans chosen
  rcases on.call (.createDirectories site.paths.localPath site.mode) with ⟨answered, started⟩
  rw [created, localPath] at answered started
  have made := Tree.hasDirectory_of_createDirectories leads laid.ordinary_place here answered.symm
  have agree := (Tree.answer_making leads laid.ordinary_place here (Or.inl ⟨site.mode, rfl⟩)).1
  have leading := Settings.leadsTo_root (Settings.agreeOutside_places agree) leads
  have way := only.run_keeps (Settings.Filling.step leading found laid localPath)
    ⟨_, started, .refl _ _, id⟩
  rcases way.reached with ⟨last, final, _, stays⟩
  rw [← run] at final
  rw [next.tree_eq final]
  exact stays made

namespace Ledger

/-- An order keeps the ledger in agreement, and what it guards. -/
theorem Agrees.provision {ledger : Ledger} {settings : Settings} {tree : Tree} {here : Location}
    (agrees : ledger.Agrees settings tree) (absolute : settings.layout.mountRoot.absolute = true)
    {order : Order} (accepted : ledger.Accepts order) {session : Session}
    (on : session.On settings tree here) :
    ∃ after, (session.provision order).2.On settings after here ∧
      (ledger.provisioned order (session.provision order).1).Agrees settings after ∧
      ∀ location, ledger.Guards settings location →
        after.get? location = tree.get? location := by
  rw [Session.provision, on.settings]
  cases found : settings.site order with
  | error cause =>
      -- Without a site nothing is asked of the filesystem, and the name is used up all the same.
      have refused : settings.provision order = .done (.error cause) := by
        rw [Settings.provision, found]
        rfl
      rw [refused]
      exact ⟨tree, on, agrees.ask accepted, fun _ _ => rfl⟩
  | ok site =>
      rcases Settings.lays_volume accepted found with ⟨laid, localPath⟩
      rw [Settings.layout, Layout.text_extend_mountRoot _ _ absolute] at localPath
      have start : settings.Filling tree here (settings.volume order site) session :=
        ⟨tree, on, .refl _ _, id⟩
      have finish := (settings.provision_onlyAsks order).run_keeps
        (Settings.Filling.step agrees.leads found laid localPath) start
      rcases finish.reached with ⟨after, next, agree, _⟩
      have spared := agrees.spared_of_fresh laid accepted.fresh accepted.sameLength agree
      have leads := Settings.leadsTo_root (Settings.agreeOutside_places agree) agrees.leads
      have agreed := agrees.of_spared leads
        (fun volume issued => spared volume issued _ (Or.inl List.prefix_rfl))
        (fun volume issued => spared volume issued _ (Or.inr List.prefix_rfl))
      refine ⟨after, next, agreed.provisioned accepted ?_,
        fun _ guarded => agrees.guarded_of_spared absolute spared guarded⟩
      intro volume provisioned
      rcases Settings.provision_ok provisioned with ⟨other, _, _, chosen, rfl, _⟩
      cases found.symm.trans chosen
      exact ⟨laid, rfl, Settings.hasDirectory_of_provision agrees.leads found laid localPath on
        provisioned next⟩

/-! ## Runs -/

/-- A location in the mount root is not below another one there. -/
theorem not_below_child {base : Location} {name other : String} :
    ¬ (base ++ [name] <+: base ++ [other] ∧ base ++ [other] ≠ base ++ [name]) := by
  rintro ⟨inside, ne⟩
  exact ne (inside.eq_of_length (by simp)).symm

/-- What clients do in the directories of their volumes keeps the ledger in agreement. -/
theorem Agrees.work {ledger : Ledger} {settings : Settings} {tree : Tree} {here : Location}
    (agrees : ledger.Agrees settings tree) (absolute : settings.layout.mountRoot.absolute = true)
    {session after : Session} (on : session.On settings tree here)
    (works : session.Works ledger after) :
    ∃ later there, after.On settings later there ∧ ledger.Agrees settings later := by
  have outside : ∀ location, (∀ volume ∈ ledger.live, ¬ (settings.place volume <+: location ∧
      location ≠ settings.place volume)) → after.disk.entry? location = tree.get? location := by
    intro location away
    rw [← on.entry?]
    apply works.outside
    intro volume lives
    rw [on.settings, agrees.home_of_live absolute lives]
    exact away volume lives
  -- The way to the mount root and the names in it are not below a directory of a volume.
  have above : ∀ location, location <+: settings.root →
      after.disk.entry? location = tree.get? location := by
    intro location prior
    exact outside location (fun volume _ inside => child_not_above _ _ (inside.1.trans prior))
  have beside : ∀ name, after.disk.entry? (settings.root ++ [name]) =
      tree.get? (settings.root ++ [name]) :=
    fun name => outside _ (fun volume _ => not_below_child)
  rcases agrees.leads settings.root List.prefix_rfl with ⟨entry, held, _⟩
  cases disk : after.disk with
  | recording double =>
      have missing := above settings.root List.prefix_rfl
      rw [disk, held] at missing
      cases missing
  | tree later there =>
      rw [disk] at above beside
      refine ⟨later, there, ⟨works.settings.trans on.settings, disk⟩,
        agrees.of_spared ?_ (fun _ _ => beside _) (fun _ _ => beside _)⟩
      intro location prior
      exact (agrees.leads location prior).of_get? (above location prior)

end Ledger

namespace Reaches

variable {start session : Session} {ledger : Ledger}

/-- In every session that a run comes to, the ledger agrees with the tree. -/
theorem agrees (mounted : start.IsMounted) (reached : Reaches start session ledger) :
    ∃ tree here, session.On start.settings tree here ∧ ledger.Agrees start.settings tree := by
  induction reached with
  | start =>
      rcases mounted.present start.settings.root List.prefix_rfl with ⟨entry, held, kind⟩
      cases disk : start.disk with
      | recording double =>
          rw [disk] at held
          cases held
      | tree tree here =>
          have leads := mounted.present
          rw [disk] at leads
          exact ⟨tree, here, ⟨rfl, disk⟩,
            { leads := leads, sameLength := by simp, laid := by simp, named := by simp,
              distinct := by simp, issued := by simp, nodup := List.nodup_nil, present := by simp,
              gone := by simp, archived := by simp }⟩
  | provision reached accepted ih =>
      rcases ih with ⟨tree, here, on, agrees⟩
      rcases agrees.provision mounted.absolute accepted on with ⟨after, next, agreed, _⟩
      exact ⟨after, here, next, agreed⟩
  | delete reached issued ih =>
      rcases ih with ⟨tree, here, on, agrees⟩
      rcases agrees.delete mounted.absolute issued on with ⟨after, next, agreed, _⟩
      exact ⟨after, here, next, agreed⟩
  | work reached works ih =>
      rcases ih with ⟨tree, here, on, agrees⟩
      exact agrees.work mounted.absolute on works

/-- Volumes of a run are isolated.  In every session that it comes to, each live volume has a
directory of its own in the mount root, which is that of no other live volume and no archive.  An
order works on the directory of its volume only, and an order or a deletion leaves all that is in
the directories of other live volumes and in the archives as it was. -/
theorem isolated (mounted : start.IsMounted) (reached : Reaches start session ledger) :
    (∀ volume ∈ ledger.live, ∃ name entry,
      session.settings.home volume = session.settings.root ++ [name] ∧
        session.disk.entry? (session.settings.home volume) = some entry ∧
          entry.isDirectory = true) ∧
    (∀ archive ∈ ledger.archives, ∃ name entry,
      locationOf archive = session.settings.root ++ [name] ∧
        session.disk.entry? (locationOf archive) = some entry ∧ entry.isDirectory = true) ∧
    ledger.live.Pairwise
      (fun first second => session.settings.home first ≠ session.settings.home second) ∧
    (∀ volume ∈ ledger.live, ∀ archive ∈ ledger.archives,
      session.settings.home volume ≠ locationOf archive) ∧
    (∀ order, ledger.Accepts order →
      (∀ volume, (session.provision order).1 = .ok volume →
        ∀ c ∈ (session.settings.provision order).calls Session.host session,
          locationOf c.path = session.settings.home volume) ∧
      ∀ location, ledger.Guards session.settings location →
        (session.provision order).2.disk.entry? location = session.disk.entry? location) ∧
    (∀ volume ∈ ledger.issued, ∀ location,
      (ledger.without volume).Guards session.settings location →
        (session.delete volume).2.disk.entry? location = session.disk.entry? location) := by
  rcases reached.agrees mounted with ⟨tree, here, on, agrees⟩
  have absolute := mounted.absolute
  rw [← on.settings] at absolute agrees
  have on : session.On session.settings tree here := ⟨rfl, on.disk⟩
  refine ⟨?_, ?_, ?_, ?_, ?_, ?_⟩
  · intro volume lives
    rcases agrees.present volume lives with ⟨entry, held, kind⟩
    rw [agrees.home_of_live absolute lives, on.entry?]
    exact ⟨volume.directoryName, entry, rfl, held, kind⟩
  · intro archive kept
    rcases agrees.archived archive kept with ⟨volume, issued, _, rfl, entry, held, kind⟩
    rw [locationOf_pathTo (agrees.laid volume issued).ordinary_archivePlace, on.entry?]
    exact ⟨_, entry, rfl, held, kind⟩
  · refine agrees.nodup.imp_of_mem (fun one other ne => ?_)
    rw [agrees.home_of_live absolute one, agrees.home_of_live absolute other]
    exact (agrees.place_ne (agrees.issued _ one) (agrees.issued _ other) ne).1
  · intro volume lives archive kept
    rcases agrees.locationOf_archive kept with ⟨other, issued, dead, place⟩
    have ne : volume ≠ other := fun same => dead (same ▸ lives)
    rw [agrees.home_of_live absolute lives, place]
    exact (agrees.place_ne (agrees.issued _ lives) issued ne).2
  · intro order accepted
    refine ⟨fun volume filled => Settings.path_of_provision_calls absolute accepted filled, ?_⟩
    rcases agrees.provision absolute accepted on with ⟨after, next, _, same⟩
    intro location guarded
    rw [next.entry?, on.entry?]
    exact same location guarded
  · intro volume issued location guarded
    rcases agrees.delete absolute issued on with ⟨after, next, _, same⟩
    rw [next.entry?, on.entry?]
    exact same location guarded

/-- A session on a tree with an empty mount root. -/
def emptySession : Session where
  settings := .sample
  disk := .tree ⟨[(["persistentvolumes"], .directory 0o755 0 0), ([], .directory 0o755 0 0)]⟩ []
  registry := Registry.insert {} { name := "nfs" }
  bus := { capacity := 1 }

/-- An order beside the sample order. -/
def secondOrder : Order :=
  { Settings.sampleOrder with claim := .named "default" "logs", volumeName := "pvc-2" }

/-- The volume of the sample order. -/
def firstVolume : Volume :=
  Settings.sample.volume Settings.sampleOrder
    ⟨⟨"/export/k8s/default-data-pvc-1", "/persistentvolumes/default-data-pvc-1"⟩, 0o777⟩

/-- The volume of the order beside it. -/
def secondVolume : Volume :=
  Settings.sample.volume secondOrder
    ⟨⟨"/export/k8s/default-logs-pvc-2", "/persistentvolumes/default-logs-pvc-2"⟩, 0o777⟩

theorem isMounted_emptySession : emptySession.IsMounted where
  absolute := by decide
  present above prior := by
    have inits : above = [] ∨ above = ["persistentvolumes"] := by
      have root : emptySession.settings.root = ["persistentvolumes"] := by decide
      rw [root, List.prefix_cons_iff] at prior
      rcases prior with none | ⟨rest, rfl, onward⟩
      · exact Or.inl none
      · rw [List.prefix_nil.mp onward]
        exact Or.inr rfl
    rcases inits with rfl | rfl
    · exact ⟨_, rfl, rfl⟩
    · exact ⟨_, rfl, rfl⟩

/-- The session after the two orders. -/
def filledSession : Session :=
  ((emptySession.provision Settings.sampleOrder).2.provision secondOrder).2

/-- After the first of two volumes was archived, deleting it again touches neither the second one
nor the archive. -/
theorem isolated_second_volume :
    emptySession.IsMounted ∧
      Reaches emptySession (filledSession.delete firstVolume).2
        ⟨["pvc-2", "pvc-1"], [secondVolume, firstVolume], [secondVolume],
          ["/persistentvolumes/archived-default-data-pvc-1"]⟩ ∧
      ∀ location, ["persistentvolumes", "default-logs-pvc-2"] <+: location ∨
          ["persistentvolumes", "archived-default-data-pvc-1"] <+: location →
        ((filledSession.delete firstVolume).2.delete firstVolume).2.disk.entry? location =
          (filledSession.delete firstVolume).2.disk.entry? location := by
  have first : Reaches emptySession (emptySession.provision Settings.sampleOrder).2
      ⟨["pvc-1"], [firstVolume], [firstVolume], []⟩ := by
    have reached := @Reaches.provision emptySession _ _ Settings.sampleOrder .start
      ⟨by decide, by decide, by decide, by decide, by decide, by decide⟩
    rwa [show (emptySession.provision Settings.sampleOrder).1 = .ok firstVolume by
      decide +kernel] at reached
  have second : Reaches emptySession filledSession
      ⟨["pvc-2", "pvc-1"], [secondVolume, firstVolume], [secondVolume, firstVolume], []⟩ := by
    have reached := @Reaches.provision emptySession _ _ secondOrder first
      ⟨by decide, by decide, by decide, by decide, by decide, by decide⟩
    rwa [show ((emptySession.provision Settings.sampleOrder).2.provision secondOrder).1 =
      .ok secondVolume by decide +kernel] at reached
  have third : Reaches emptySession (filledSession.delete firstVolume).2
      ⟨["pvc-2", "pvc-1"], [secondVolume, firstVolume], [secondVolume],
        ["/persistentvolumes/archived-default-data-pvc-1"]⟩ := by
    have reached := @Reaches.delete emptySession _ _ firstVolume second (by simp)
    rwa [show Ledger.deleted ⟨["pvc-2", "pvc-1"], [secondVolume, firstVolume],
      [secondVolume, firstVolume], []⟩ firstVolume
        ((filledSession.settings.delete firstVolume).trace Session.host filledSession) =
          ⟨["pvc-2", "pvc-1"], [secondVolume, firstVolume], [secondVolume],
            ["/persistentvolumes/archived-default-data-pvc-1"]⟩ by decide +kernel] at reached
  refine ⟨isMounted_emptySession, third, fun location guarded => ?_⟩
  have isolation := (isolated isMounted_emptySession third).2.2.2.2.2
  rcases third.agrees isMounted_emptySession with ⟨_, _, on, _⟩
  apply isolation firstVolume (by simp)
  rcases guarded with inside | inside
  · have home : (filledSession.delete firstVolume).2.settings.home secondVolume =
        ["persistentvolumes", "default-logs-pvc-2"] := by
      rw [on.settings]
      decide +kernel
    exact Or.inl ⟨secondVolume, by decide, home ▸ inside⟩
  · have archive : locationOf "/persistentvolumes/archived-default-data-pvc-1" =
        ["persistentvolumes", "archived-default-data-pvc-1"] := by decide +kernel
    exact Or.inr ⟨_, List.mem_singleton_self _, archive ▸ inside⟩

end Reaches
end ExportVolumes
