import ExportVolumes.Proofs.Filesystem.Furnishing
import ExportVolumes.Proofs.Provisioner.Staging
import ExportVolumes.Proofs.Session.Archives
import ExportVolumes.Proofs.Session.Calls
import ExportVolumes.Proofs.Session.Commuting

namespace ExportVolumes

/-!
What an order leaves of a tree.

An order that is filled furnishes the directory of its volume and changes nothing else, whatever
the tree was before.  One whose directory would be at a file or below it fails at its first call
and changes nothing (`Settings.provision_leaves`).
-/

/-! ## Plans on a tree -/

namespace Staged

variable {α : Type} {value : α} {call : Call} {later : List Call}
  {result : Except ProvisionerError α} {made : List (Call × Except Fault Bool)}
  {tree next after : Tree} {here : Location}

/-- A plan that succeeds has made its first call with success, and goes on from what that left. -/
theorem passes (staged : Staged value (call :: later) result made)
    (answers : Tree.Answers here tree made after) {found : α} (done : result = .ok found) :
    ∃ told next rest, tree.answer here call = (.ok told, next) ∧
      Staged value later result rest ∧ Tree.Answers here next rest after := by
  cases staged with
  | failed => cases done
  | passed onward =>
      cases answers with
      | call answered answers => exact ⟨_, _, _, Prod.ext answered rfl, onward, answers⟩

/-- A plan whose first call fails fails with it, and leaves what that call left. -/
theorem fails (staged : Staged value (call :: later) result made)
    (answers : Tree.Answers here tree made after) {fault : Fault}
    (refused : tree.answer here call = (.error fault, next)) :
    result = .error (.filesystem (call.error fault)) ∧ after = next := by
  cases staged with
  | failed =>
      cases refused.symm.trans answers.of_single
      exact ⟨rfl, rfl⟩
  | passed onward =>
      cases answers with
      | call answered answers =>
          rw [refused] at answered
          cases answered

end Staged

namespace Settings

variable {settings : Settings} {order : Order} {site : Site}

/-- The directory of a site is reached by a path with components, or is the top. -/
theorem reached_or_top (found : settings.site order = .ok site) :
    (∃ path, site.Reached path) ∨ site.paths.localPath = "/" := by
  rcases names_of_site found with ⟨names, ordinary, text⟩
  by_cases bare : (settings.layout.mountRoot.extend names).components = []
  · rw [Path.extend, List.append_eq_nil_iff, List.map_eq_nil_iff] at bare
    have top : settings.layout.mountRoot = ⟨true, []⟩ := Path.clean_eq_top bare.1
    rw [bare.2, top] at text
    exact .inr text
  · exact .inl ⟨_, text, (Layout.descends_mountRoot _ _).extend ordinary, bare⟩

/-- What comes of an order on a tree: its result and the tree that it leaves. -/
structure ProvisionLeaves (settings : Settings) (order : Order) (here : Location) (before : Tree)
    (result : Except ProvisionerError Volume) (after : Tree) : Prop where
  /-- An order that is filled furnishes its directory with the mode and the owner it is given. -/
  furnished : ∀ volume, result = .ok volume → ∃ site user group,
    settings.site order = .ok site ∧ settings.Grants order site user group ∧
      Tree.Furnished ⟨placeOf here site.paths.localPath, site.mode, user, group⟩ before after
  /-- An order that is not refused fails to make its directory where a file is in the way. -/
  blocked : ∀ site location entry, settings.site order = .ok site →
    before.get? location = some entry → entry.isDirectory = false →
    location <+: placeOf here site.paths.localPath → (∃ fault, result = .error (.filesystem
      ((Call.createDirectories site.paths.localPath site.mode).error fault))) ∧ after = before

variable {configuration : Configuration} {session : Session} {before after : Tree}
  {here : Location} {result : Except ProvisionerError Volume}
  {made : List (Call × Except Fault Bool)}

/-- A plan that succeeds furnishes its directory. -/
theorem furnished_of_staged (found : settings.site order = .ok site) (rooted : before.Rooted)
    {user group : UInt32} {volume : Volume}
    (bounded : Plot.Bounded ⟨placeOf here site.paths.localPath, site.mode, user, group⟩)
    (staged : Staged volume (plan site user group) result made)
    (answers : Tree.Answers here before made after) {filled : Volume}
    (done : result = .ok filled) :
    Tree.Furnished ⟨placeOf here site.paths.localPath, site.mode, user, group⟩ before after := by
  rcases staged.passes answers done with ⟨_, _, _, created, staged, answers⟩
  rcases staged.passes answers done with ⟨_, _, _, modeSet, staged, answers⟩
  rcases staged.passes answers done with ⟨_, _, _, ownerSet, staged, answers⟩
  cases staged
  cases answers
  rcases reached_or_top found with ⟨path, reached⟩ | top
  · refine .of_answers rooted bounded created modeSet ownerSet reached.descends reached.inhabited
      reached.text ?_
    rw [placeOf, reached.ofText_localPath]
  · refine .of_answers_top rooted bounded created modeSet ownerSet top ?_
    rw [top]
    rfl

/-- A directory cannot be made where a file is in the way. -/
theorem answer_of_file (found : settings.site order = .ok site) (rooted : before.Rooted)
    {location : Location} {entry : Entry} (there : before.get? location = some entry)
    (file : entry.isDirectory = false) (within : location <+: placeOf here site.paths.localPath) :
    ∃ fault, before.answer here (.createDirectories site.paths.localPath site.mode) =
      (.error fault, before) := by
  suffices fails : ∃ cause, before.createDirectories here site.paths.localPath site.mode =
      (.error cause, before) by
    rcases fails with ⟨cause, fails⟩
    refine ⟨cause.message, ?_⟩
    simp only [Tree.answer, fails]
    rfl
  rcases reached_or_top found with ⟨path, reached⟩ | top
  · rw [placeOf, reached.ofText_localPath] at within
    rw [reached.text]
    exact Tree.createDirectories_blocked rooted reached.descends reached.inhabited there file
      within _
  · rw [top] at within ⊢
    rcases before.createDirectories_top here site.mode with ⟨present, _⟩ | ⟨_, fails⟩
    · rw [List.prefix_nil.mp within] at there
      cases file.symm.trans (present.isDirectory_of_get? there)
    · exact fails

/-- Under validated settings, in any session on a tree, an order that is filled furnishes its
directory, and an order with a file in its way changes nothing. -/
theorem provision_leaves (valid : configuration.settings = .ok settings)
    (on : session.On settings before here) (rooted : before.Rooted) (order : Order) :
    ∃ after, (session.provision order).2.On settings after here ∧ after.Rooted ∧
      settings.ProvisionLeaves order here before (session.provision order).1 after := by
  have defaults := Configuration.bounded_of_settings valid
  rcases on.provision order with ⟨after, ends, answers⟩
  refine ⟨after, ends, answers.rooted rooted, ?_⟩
  rw [Session.provision, on.settings]
  constructor
  case furnished =>
    intro volume done
    rcases provision_ok done with ⟨site, _, _, found, _⟩
    have staged := provision_staged found Session.host session
    refine ⟨site, _, _, found, grants_of_site found, ?_⟩
    exact furnished_of_staged found rooted ⟨mode_le_of_site defaults found,
      Order.owner_le defaults.user, Order.owner_le defaults.group⟩ staged answers done
  case blocked =>
    intro site location entry found there file within
    have staged := provision_staged found Session.host session
    rcases answer_of_file found rooted there file within with ⟨fault, refused⟩
    rcases staged.fails answers refused with ⟨failed, same⟩
    exact ⟨⟨fault, failed⟩, same⟩

/-- A directory of a team is made for its first volume, as far as the mask lets the mode through,
and nothing is made beside it. -/
theorem provision_leaves_team :
    let tree := sampleTree ["data"] []
    let session := archivingSession tree
    let order := Session.teamOrder "a" "0777"
    let later := (session.provision order).2
    sampleConfiguration.settings = .ok sample ∧ session.On sample tree [] ∧ tree.Rooted ∧
      (session.provision order).1 = .ok (sample.volume order (Session.teamSite "a" 0o777)) ∧
      later.disk.entry? ["persistentvolumes", "team"] = some (.directory 0o755 0 0) ∧
      ∀ location, ¬location <+: ["persistentvolumes", "team", "a"] →
        later.disk.entry? location = tree.get? location := by
  intro tree session order later
  have valid : sampleConfiguration.settings = .ok sample := by decide +kernel
  have on : session.On sample tree [] := ⟨rfl, rfl⟩
  have rooted : tree.Rooted := by decide +kernel
  have done : (session.provision order).1 =
      .ok (sample.volume order (Session.teamSite "a" 0o777)) := by
    decide +kernel
  have site : sample.site order = .ok (Session.teamSite "a" 0o777) := by decide +kernel
  rcases provision_leaves valid on rooted order with ⟨after, ends, _, leaves⟩
  rcases leaves.furnished _ done with ⟨_, user, group, found, _, furnished⟩
  cases site.symm.trans found
  have target : placeOf [] (Session.teamSite "a" 0o777).paths.localPath =
      ["persistentvolumes", "team", "a"] := by
    decide +kernel
  rw [target] at furnished
  refine ⟨valid, on, rooted, done, ?_, fun location beside => ?_⟩
  · rw [ends.entry?]
    have onto : ["persistentvolumes", "team"] <+: ["persistentvolumes", "team", "a"] := by decide
    have short : ["persistentvolumes", "team"] ≠ ["persistentvolumes", "team", "a"] := by decide
    have other : ["persistentvolumes"] ≠ ["persistentvolumes", "team", "a"] := by decide
    rcases furnished.made ["persistentvolumes"] "team" onto short rfl with ⟨above, there, made⟩
    cases (furnished.kept ["persistentvolumes"] _ other rfl).symm.trans there
    refine made.trans ?_
    dsimp only
    decide
  · rw [ends.entry?]
    cases held : tree.get? location with
    | none => exact furnished.beside location beside held
    | some entry =>
        refine furnished.kept location entry ?_ held
        rintro rfl
        exact beside List.prefix_rfl

/-- A session on a tree whose mount root hands its group down. -/
def groupSession : Session :=
  { Reaches.emptySession with
    disk := .tree
      ⟨[(["persistentvolumes"], .directory 0o2755 0 100), ([], .directory 0o755 0 0)]⟩ [] }

/-- A missing directory is made with the group bit that is handed down to it, which the mode of the
volume does not have. -/
theorem provision_hands_down_group :
    let session := groupSession
    let later := session.provision (Session.teamOrder "a" "0700")
    sampleConfiguration.settings = .ok session.settings ∧
      later.1 = .ok (sample.volume (Session.teamOrder "a" "0700") (Session.teamSite "a" 0o700)) ∧
      session.disk.entry? ["persistentvolumes", "team"] = none ∧
      later.2.disk.entry? ["persistentvolumes", "team"] = some (.directory 0o2700 0 100) ∧
      (0o700 &&& ~~~Entry.creationMask : UInt32) = 0o700 := by
  refine ⟨?_, ?_, ?_, ?_, ?_⟩ <;> decide +kernel

end Settings
end ExportVolumes
