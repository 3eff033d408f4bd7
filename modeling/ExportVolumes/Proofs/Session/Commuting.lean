import ExportVolumes.Proofs.Filesystem.Filling
import ExportVolumes.Proofs.Layout.Archive
import ExportVolumes.Proofs.Provisioner.Events
import ExportVolumes.Proofs.Session.Isolation

namespace ExportVolumes

/-!
Orders of volumes that do not lie in each other.

An order is filled exactly if a call can take the path of its directory and nothing is in the way
there (`Session.admits_of_provision` and `Session.provision_of_admits`).  Filling another order does
not change that, so two orders can be filled in either order, with the same volumes.  The trees that
they end in differ at most in the modes of the directories that were missing above both
(`Session.provision_either_order`).
-/

/-- The directory of a site is reached by a path that never climbs. -/
structure Site.Reached (site : Site) (path : Path) : Prop where
  text : site.paths.localPath = path.text
  descends : path.Descends
  inhabited : path.components ≠ []

namespace Site.Reached

variable {site : Site} {path : Path}

theorem ofText_localPath (reached : site.Reached path) :
    Path.ofText site.paths.localPath = path := by
  rw [reached.text, Path.ofText_text reached.descends.read]

end Site.Reached

namespace Settings

/-- The directory that an order is given. -/
def plot (settings : Settings) (order : Order) (site : Site) (here : Location) : Plot where
  target := placeOf here site.paths.localPath
  mode := site.mode
  user := order.owner Parameter.userAnnotation settings.defaultUser
  group := order.owner Parameter.groupAnnotation settings.defaultGroup

/-- The names of a site behind the mount root. -/
theorem names_of_site {settings : Settings} {order : Order} {site : Site}
    (found : settings.site order = .ok site) :
    ∃ names, (∀ name ∈ names, Path.IsOrdinary name) ∧
      site.paths.localPath = (settings.layout.mountRoot.extend names).text := by
  rcases Layout.names_of_builds ⟨_, _, _, build_of_site found⟩ with ⟨names, ordinary, paths⟩
  exact ⟨names, ordinary, congrArg VolumePaths.localPath paths⟩

/-- A site other than the mount root is reached through its names. -/
theorem reached_extend {settings : Settings} {site : Site} {names : List String}
    (ordinary : ∀ name ∈ names, Path.IsOrdinary name) (inhabited : names ≠ [])
    (text : site.paths.localPath = (settings.layout.mountRoot.extend names).text) :
    site.Reached (settings.layout.mountRoot.extend names) where
  text := text
  descends := (Layout.descends_mountRoot _ _).extend ordinary
  inhabited := List.append_ne_nil_of_right_ne_nil _ (by simpa using inhabited)

/-- A local path that another one does not lie in has names behind the mount root, and its directory
is not above that of the other one. -/
theorem apart_of_names {settings : Settings} {here : Location} {names others : List String}
    (ordinary : ∀ name ∈ names, Path.IsOrdinary name)
    (ordinaryOther : ∀ name ∈ others, Path.IsOrdinary name)
    (apart : ¬Path.LiesIn (Path.ofText (settings.layout.mountRoot.extend names).text)
      (Path.ofText (settings.layout.mountRoot.extend others).text)) :
    names ≠ [] ∧ ¬placeOf here (settings.layout.mountRoot.extend names).text <+:
      placeOf here (settings.layout.mountRoot.extend others).text := by
  rw [layout, Layout.ofText_extend_mountRoot _ _ ordinary,
    Layout.ofText_extend_mountRoot _ _ ordinaryOther, Path.LiesIn, Path.names_extend,
    Path.names_extend, List.prefix_append_right_inj] at apart
  refine ⟨?_, fun covers => ?_⟩
  · rintro rfl
    exact apart ⟨rfl, List.nil_prefix⟩
  · rw [placeOf, placeOf, layout, Layout.location_localPath _ _ ordinary,
      Layout.location_localPath _ _ ordinaryOther, List.prefix_append_right_inj] at covers
    exact apart ⟨rfl, covers⟩

end Settings

namespace Session

variable {session : Session} {settings : Settings} {tree : Tree} {here : Location}
  {order : Order} {site : Site} {path : Path}

/-! ## One order -/

/-- Choosing an owner asks nothing of the filesystem. -/
theorem On.ownerId (on : session.On settings tree here) (order : Order) (key : String)
    (default : UInt32) :
    ((Settings.ownerId order key default).run host session).2.On settings tree here := by
  unfold Settings.ownerId
  split
  · exact on
  · split
    · exact on
    · exact ⟨on.settings, on.disk⟩

theorem On.host_call {after : Tree} {c : Call} {told : Bool} (on : session.On settings tree here)
    (answered : tree.answer here c = (.ok told, after)) :
    ∃ later, host (.call c) session = (.ok told, later) ∧ later.On settings after here := by
  rcases on.call c with ⟨same, onward⟩
  rw [answered] at same onward
  exact ⟨_, Prod.ext same rfl, onward⟩

section OneOrder

variable (on : session.On settings tree here) (found : settings.site order = .ok site)
  (reached : site.Reached path)

include on found reached

/-- An order that was filled could be filled, with the volume of its site. -/
theorem admits_of_provision {volume : Volume} (filled : (session.provision order).1 = .ok volume) :
    volume = settings.volume order site ∧ Route.ofText path.text = .ok (.ofPath path) ∧
      tree.Admits (Tree.origin here path.absolute) path.names := by
  rw [provision, on.settings] at filled
  rcases Settings.provision_ok filled with ⟨other, _, _, chosen, described, _⟩
  cases found.symm.trans chosen
  refine ⟨described, ?_⟩
  rcases Settings.provision_begins filled with ⟨other, told, after, _, chosen, created, _, _⟩
  cases found.symm.trans chosen
  have answered := (on.call (.createDirectories site.paths.localPath site.mode)).1
  rw [created, reached.text] at answered
  exact Tree.Filled.admits_of_answer reached.descends reached.inhabited answered.symm

/-- An order is filled where its path can be taken and all that is missing can be made. -/
theorem provision_of_admits (taken : Route.ofText path.text = .ok (.ofPath path))
    (admits : tree.Admits (Tree.origin here path.absolute) path.names) :
    (session.provision order).1 = .ok (settings.volume order site) ∧
      ∃ after, (session.provision order).2.On settings after here ∧
        Tree.Filled (Tree.origin here path.absolute) (settings.plot order site here) tree
          after := by
  let user := order.owner Parameter.userAnnotation settings.defaultUser
  let group := order.owner Parameter.groupAnnotation settings.defaultGroup
  have filling := Tree.Filled.of_admits reached.descends reached.inhabited taken admits site.mode
    user group
  rw [← reached.text] at filling
  rcases filling with ⟨made, moded, owned, created, modeSet, ownerSet, filled⟩
  rw [provision, on.settings, Settings.provision, found]
  simp only [Program.bind_eq_bind, Program.pure_eq_done, Program.run_bind]
  rcases on.host_call created with ⟨first, madeRun, onMade⟩
  rcases onMade.host_call modeSet with ⟨second, modeRun, onModed⟩
  rw [Program.run_call_ok madeRun]
  simp only [Program.run_bind]
  rw [Program.run_call_ok modeRun]
  simp only [Program.run_bind, Settings.run_ownerId]
  have onUser := onModed.ownerId order Parameter.userAnnotation settings.defaultUser
  have onGroup := onUser.ownerId order Parameter.groupAnnotation settings.defaultGroup
  rcases onGroup.host_call ownerSet with ⟨third, ownerRun, onOwned⟩
  rw [Program.run_call_ok ownerRun]
  refine ⟨rfl, owned, ⟨onOwned.settings, onOwned.disk⟩, ?_⟩
  rw [Settings.plot, placeOf, reached.ofText_localPath]
  exact filled

/-- An order that was filled after another one could be filled before it. -/
theorem admits_of_provision_after {later : Session} {after : Tree} {plot : Plot} {volume : Volume}
    (onLater : later.On settings after here)
    (toAfter : Tree.Filled (Tree.origin here path.absolute) plot tree after)
    (filled : (session.provision order).1 = .ok volume ∨ (later.provision order).1 = .ok volume) :
    volume = settings.volume order site ∧ Route.ofText path.text = .ok (.ofPath path) ∧
      tree.Admits (Tree.origin here path.absolute) path.names := by
  rcases filled with before | afterwards
  · exact admits_of_provision on found reached before
  · rcases admits_of_provision onLater found reached afterwards with ⟨described, taken, admits⟩
    exact ⟨described, taken, toAfter.admits_iff.mp admits⟩

end OneOrder

/-! ## Two orders -/

/-- Two orders whose local paths do not lie in each other can be filled in either order.  Where one
is filled, and the other one alone or after it, both are filled in the other order too, with the
same volumes, and all that the two trees hold in the end is the same but for the modes of the
directories that were missing above both.  These have the mode of the volume that comes first. -/
theorem provision_either_order {one other : Order} {siteOne siteOther : Site}
    {first second : Volume} (disk : session.disk = .tree tree here)
    (foundOne : session.settings.site one = .ok siteOne)
    (foundOther : session.settings.site other = .ok siteOther)
    (apart : ¬Path.LiesIn (Path.ofText siteOne.paths.localPath)
      (Path.ofText siteOther.paths.localPath))
    (apartBack : ¬Path.LiesIn (Path.ofText siteOther.paths.localPath)
      (Path.ofText siteOne.paths.localPath))
    (filled : (session.provision one).1 = .ok first)
    (filledOther : (session.provision other).1 = .ok second ∨
      ((session.provision one).2.provision other).1 = .ok second) :
    let onward := (session.provision one).2.provision other
    let backward := (session.provision other).2.provision one
    (session.provision other).1 = .ok second ∧ onward.1 = .ok second ∧ backward.1 = .ok first ∧
      ∀ location, onward.2.disk.entry? location = backward.2.disk.entry? location ∨
        tree.get? location = none ∧ location <+: placeOf here siteOne.paths.localPath ∧
          location <+: placeOf here siteOther.paths.localPath ∧ ∃ above,
            onward.2.disk.entry? location.dropLast = some above ∧
            onward.2.disk.entry? location = some (above.newDirectory siteOne.mode) ∧
            backward.2.disk.entry? location = some (above.newDirectory siteOther.mode) := by
  have on : session.On session.settings tree here := ⟨rfl, disk⟩
  rcases Settings.names_of_site foundOne with ⟨names, ordinary, text⟩
  rcases Settings.names_of_site foundOther with ⟨others, ordinaryOther, textOther⟩
  rw [text, textOther] at apart apartBack
  rcases Settings.apart_of_names ordinary ordinaryOther apart with ⟨inhabited, beside⟩
  rcases Settings.apart_of_names ordinaryOther ordinary apartBack with ⟨inhabitedOther, besideBack⟩
  have reached := Settings.reached_extend ordinary inhabited text
  have reachedOther := Settings.reached_extend ordinaryOther inhabitedOther textOther
  rw [← text, ← textOther] at beside besideBack
  rcases admits_of_provision on foundOne reached filled with ⟨rfl, taken, admits⟩
  rcases provision_of_admits on foundOne reached taken admits with ⟨_, mid, onMid, toFirst⟩
  rcases admits_of_provision_after on foundOther reachedOther onMid toFirst filledOther with
    ⟨rfl, takenOther, admitsOther⟩
  rcases provision_of_admits on foundOther reachedOther takenOther admitsOther with
    ⟨alone, aside, onAside, toSecond⟩
  -- What one order makes is not in the way of the other one, so each of them can come second.
  rcases provision_of_admits onMid foundOther reachedOther takenOther
    (toFirst.admits_iff.mpr admitsOther) with ⟨afterwards, both, onBoth, toBoth⟩
  rcases provision_of_admits onAside foundOne reached taken (toSecond.admits_iff.mpr admits) with
    ⟨backwards, back, onBack, toBack⟩
  refine ⟨alone, afterwards, backwards, fun location => ?_⟩
  simp only [onBoth.entry?, onBack.entry?]
  rcases Tree.Filled.commute beside besideBack toFirst toBoth toSecond toBack location with
    same | ⟨missing, onOne, onOther, differ⟩
  · exact .inl same
  · exact .inr ⟨missing, onOne.2, onOther.2, differ⟩

/-- An order of a directory in that of a team, with a mode of its own. -/
def teamOrder (name mode : String) : Order where
  claim := Claim.withAnnotation (Claim.named "default" name) Parameter.modeAnnotation mode
  volumeName := "pvc-" ++ name
  storageClass :=
    { name := "nfs", parameters := Dictionary.empty.insert "pathPattern" ("team/" ++ name) }

/-- The site of an order in the directory of a team. -/
def teamSite (name : String) (mode : UInt32) : Site :=
  ⟨⟨"/export/k8s/team/" ++ name, "/persistentvolumes/team/" ++ name⟩, mode⟩

/-- Two orders of one team differ on the directory of the team alone. -/
theorem provision_either_order_team :
    let start := Reaches.emptySession
    let onward := (start.provision (teamOrder "a" "0700")).2.provision (teamOrder "b" "0755")
    let backward := (start.provision (teamOrder "b" "0755")).2.provision (teamOrder "a" "0700")
    onward.1 = .ok (Settings.sample.volume (teamOrder "b" "0755") (teamSite "b" 0o755)) ∧
      backward.1 = .ok (Settings.sample.volume (teamOrder "a" "0700") (teamSite "a" 0o700)) ∧
      ∀ location, location ≠ ["persistentvolumes", "team"] →
        onward.2.disk.entry? location = backward.2.disk.entry? location := by
  have first : (Reaches.emptySession.provision (teamOrder "a" "0700")).1 =
      .ok (Settings.sample.volume (teamOrder "a" "0700") (teamSite "a" 0o700)) := by decide +kernel
  have second : (Reaches.emptySession.provision (teamOrder "b" "0755")).1 =
      .ok (Settings.sample.volume (teamOrder "b" "0755") (teamSite "b" 0o755)) := by decide +kernel
  have siteOne : Reaches.emptySession.settings.site (teamOrder "a" "0700") =
      .ok (teamSite "a" 0o700) := by decide +kernel
  have siteOther : Reaches.emptySession.settings.site (teamOrder "b" "0755") =
      .ok (teamSite "b" 0o755) := by decide +kernel
  have orders := provision_either_order rfl siteOne siteOther (by decide +kernel)
    (by decide +kernel) first (.inl second)
  rcases orders with ⟨_, onward, backward, agree⟩
  refine ⟨onward, backward, fun location ne => ?_⟩
  rcases agree location with same | ⟨missing, onOne, onOther, _⟩
  · exact same
  · rw [show placeOf [] (teamSite "a" 0o700).paths.localPath =
      ["persistentvolumes", "team", "a"] by decide +kernel] at onOne
    simp only [List.prefix_cons_iff, List.prefix_nil] at onOne
    rcases onOne with rfl | ⟨_, rfl, rfl | ⟨_, rfl, rfl | ⟨_, rfl, rfl⟩⟩⟩
    · cases missing
    · cases missing
    · exact absurd rfl ne
    · exact absurd onOther (by decide +kernel)

/-- The order decides the mode of a directory that is missing above both volumes. -/
theorem provision_order_decides_mode :
    let start := Reaches.emptySession
    let onward := (start.provision (teamOrder "a" "0700")).2.provision (teamOrder "b" "0755")
    let backward := (start.provision (teamOrder "b" "0755")).2.provision (teamOrder "a" "0700")
    Settings.sample.site (teamOrder "a" "0700") = .ok (teamSite "a" 0o700) ∧
      Settings.sample.site (teamOrder "b" "0755") = .ok (teamSite "b" 0o755) ∧
      ¬Path.LiesIn (Path.ofText (teamSite "a" 0o700).paths.localPath)
        (Path.ofText (teamSite "b" 0o755).paths.localPath) ∧
      ¬Path.LiesIn (Path.ofText (teamSite "b" 0o755).paths.localPath)
        (Path.ofText (teamSite "a" 0o700).paths.localPath) ∧
      (start.provision (teamOrder "a" "0700")).1.isOk ∧
      (start.provision (teamOrder "b" "0755")).1.isOk ∧ onward.1.isOk ∧ backward.1.isOk ∧
      onward.2.disk.entry? ["persistentvolumes", "team"] = some (.directory 0o700 0 0) ∧
      backward.2.disk.entry? ["persistentvolumes", "team"] = some (.directory 0o755 0 0) := by
  refine ⟨?_, ?_, ?_, ?_, ?_, ?_, ?_, ?_, ?_, ?_⟩ <;> decide +kernel

end Session
end ExportVolumes
