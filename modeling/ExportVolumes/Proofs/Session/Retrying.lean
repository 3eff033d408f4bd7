import ExportVolumes.Proofs.Filesystem.Standing
import ExportVolumes.Proofs.Session.Provisioning

namespace ExportVolumes

/-!
Filling an order again.

A filesystem may fail any call of an attempt, with no effect of that call (`Host.refusing`).  The
three calls of an order can each be made again, at any later time, with no effect
(`Tree.Repeatable`), so an attempt goes on from wherever earlier ones stopped, and all that succeed
end in the same tree (`Session.provision_retries`).
-/

/-! ## Calls that can be made again -/

/-- The calls that led to a tree change it no more, and those that are left lead on to another
tree, each of them with no more effect when it is made again. -/
inductive Tree.Repeatable (here : Location) : List Call → Tree → List Call → Tree → Prop
  | finished {past : List Call} {tree : Tree}
      (kept : ∀ call ∈ past, tree.answer here call = (.ok true, tree)) :
      Repeatable here past tree [] tree
  | next {past later : List Call} {call : Call} {tree next after : Tree}
      (kept : ∀ call ∈ past, tree.answer here call = (.ok true, tree))
      (made : tree.answer here call = (.ok true, next))
      (onward : Repeatable here (past ++ [call]) next later after) :
      Repeatable here past tree (call :: later) after

namespace Tree

variable {refuse : Call → Option Fault} {here : Location} {tree left after : Tree}
  {past todo : List Call} {α : Type} {value : α} {result : Except ProvisionerError α}
  {made : List (Call × Except Fault Bool)}

theorem Repeatable.kept (repeatable : Repeatable here past tree todo after) :
    ∀ call ∈ past, tree.answer here call = (.ok true, tree) := by
  cases repeatable with
  | finished kept => exact kept
  | next kept => exact kept

/-- Where an attempt ends: on the way from what was there to what all calls lead to. -/
structure Advanced (refuse : Call → Option Fault) (here : Location) (planned : List Call)
    (value : α) (result : Except ProvisionerError α) (left after : Tree) : Prop where
  stage : ∃ past todo, past ++ todo = planned ∧ Repeatable here past left todo after
  outcome : result = .ok value ∧ left = after ∨
    ∃ call fault, refuse call = some fault ∧ result = .error (.filesystem (call.error fault))

section Tries

variable {call : Call} {next : Tree} (does : tree.answer here call = (.ok true, next))

include does

/-- A call that the tree grants fails only if it is refused, and then has no effect. -/
theorem Tries.stopped {fault : Fault} (tries : Tries refuse here tree [(call, .error fault)] left) :
    refuse call = some fault ∧ left = tree := by
  cases tries with
  | refused refuses stops =>
      cases stops
      exact ⟨refuses, rfl⟩
  | heard _ answered =>
      rw [does] at answered
      cases answered

theorem Tries.onward {told : Bool} (tries : Tries refuse here tree ((call, .ok told) :: made) left) :
    Tries refuse here next made left := by
  cases tries with
  | heard _ _ tries =>
      rw [does] at tries
      exact tries

end Tries

/-- Calls that are left are made until one is refused. -/
theorem Repeatable.advances (repeatable : Repeatable here past tree todo after)
    (staged : Staged value todo result made) (tries : Tries refuse here tree made left) :
    Advanced refuse here (past ++ todo) value result left after := by
  induction repeatable generalizing made with
  | @finished past tree kept =>
      cases staged
      cases tries
      exact ⟨⟨past, [], rfl, .finished kept⟩, .inl ⟨rfl, rfl⟩⟩
  | @next past later call tree next after kept does onward ih =>
      cases staged with
      | failed =>
          rcases tries.stopped does with ⟨refuses, rfl⟩
          exact ⟨⟨past, call :: later, rfl, .next kept does onward⟩, .inr ⟨_, _, refuses, rfl⟩⟩
      | passed staged =>
          rw [List.append_cons]
          exact ih staged (tries.onward does)

/-- Calls that were made already change nothing, so that an attempt goes on behind them. -/
theorem Repeatable.retries (repeatable : Repeatable here past tree todo after)
    (staged : Staged value (past ++ todo) result made) (tries : Tries refuse here tree made left) :
    Advanced refuse here (past ++ todo) value result left after := by
  suffices retries : ∀ again : List Call, (∀ call ∈ again, call ∈ past) →
      ∀ made, Staged value (again ++ todo) result made → Tries refuse here tree made left →
        Advanced refuse here (past ++ todo) value result left after from
    retries past (fun _ member => member) made staged tries
  intro again
  induction again with
  | nil => exact fun _ _ staged tries => repeatable.advances staged tries
  | cons call again ih =>
      intro known made staged tries
      have same := repeatable.kept call (known call List.mem_cons_self)
      cases staged with
      | failed =>
          rcases tries.stopped same with ⟨refuses, rfl⟩
          exact ⟨⟨past, todo, rfl, repeatable⟩, .inr ⟨_, _, refuses, rfl⟩⟩
      | passed staged =>
          have others := fun other member => known other (List.mem_cons_of_mem _ member)
          exact ih others _ staged (tries.onward same)

/-- Where the directory of a path can be made, it can be given its mode and its owner, and each of
the three calls can be made again. -/
theorem repeatable_of_created {text : String} {mode : UInt32} {told : Bool} {first : Tree}
    (isWay : IsWay text)
    (created : tree.answer here (.createDirectories text mode) = (.ok told, first))
    (user group : UInt32) :
    ∃ after, Repeatable here [] tree
      [.createDirectories text mode, .setMode text mode, .setOwner text user group] after := by
  rcases isWay.stands created with ⟨location, stands⟩
  rcases stands.found with ⟨_, entry, _, kind, held, _⟩
  have kindModed := (entry.isDirectory_withMode mode).trans kind
  have kindOwned := (Entry.isDirectory_withOwner user group _).trans kindModed
  have told : tree.answer here (.createDirectories text mode) = (.ok true, first) := by
    simp only [answer, createDirectories_of_answer created]
    rfl
  -- Each entry is put in place of the one before, so what is put twice is put once.
  have moded := stands.set kindModed
  have owned := stands.set kindOwned
  have heldModed : (first.set location (entry.withMode mode)).get? location =
      some (entry.withMode mode) := by
    rw [get?_set, if_pos rfl]
  have heldOwned : (first.set location ((entry.withMode mode).withOwner user group)).get? location =
      some ((entry.withMode mode).withOwner user group) := by
    rw [get?_set, if_pos rfl]
  have setMode := stands.answer_setMode held mode
  have setModeAgain := moded.answer_setMode heldModed mode
  have setOwner := moded.answer_setOwner heldModed user group
  have setModeLater := owned.answer_setMode heldOwned mode
  have setOwnerAgain := owned.answer_setOwner heldOwned user group
  rw [set_set, Entry.withMode_withMode] at setModeAgain
  rw [set_set] at setOwner
  rw [set_set, Entry.withMode_withOwner kindModed, Entry.withMode_withMode] at setModeLater
  rw [set_set, Entry.withOwner_withOwner kindModed] at setOwnerAgain
  refine ⟨_, .next (by simp) told (.next ?_ setMode (.next ?_ setOwner (.finished ?_)))⟩
  · simp [stands.answer_create]
  · simp [moded.answer_create, setModeAgain]
  · simp [owned.answer_create, setModeLater, setOwnerAgain]

end Tree

/-- A directory can be made at the path of a site. -/
theorem Settings.isWay_of_site {settings : Settings} {order : Order} {site : Site}
    (found : settings.site order = .ok site) : Tree.IsWay site.paths.localPath := by
  rcases Settings.reached_or_top found with ⟨path, reached⟩ | top
  · rw [reached.text]
    exact .along reached.descends reached.inhabited
  · rw [top]
    exact .top

/-! ## Attempts -/

namespace Session

/-- An attempt to fill an order, of which some calls fail. -/
def attempt (session : Session) (order : Order) (refuse : Call → Option Fault) :
    Except ProvisionerError Volume × Session :=
  (session.settings.provision order).run (host.refusing refuse) session

/-- What several attempts leave. -/
def attempts (session : Session) (order : Order) (failures : List (Call → Option Fault)) :
    Session :=
  failures.foldl (fun session refuse => (session.attempt order refuse).2) session

theorem attempt_never (session : Session) (order : Order) :
    session.attempt order (fun _ => none) = session.provision order := by
  rw [attempt, Host.refusing_never, provision]

variable {session : Session} {settings : Settings} {tree left after : Tree} {here : Location}
  {order : Order} {site : Site}

section Attempt

variable (on : session.On settings tree here) (refuse : Call → Option Fault)

include on

theorem On.run_attempt (order : Order) : session.attempt order refuse =
    (settings.provision order).run (host.refusing refuse) session := by
  rw [attempt, on.settings]

theorem On.attempt (order : Order) :
    ∃ after, (session.attempt order refuse).2.On settings after here ∧
      Tree.Tries refuse here tree
        (answered ((settings.provision order).trace (host.refusing refuse) session)) after := by
  rw [on.run_attempt]
  exact on.tries refuse (settings.provision_onlyAsks order) fun _ _ => id

end Attempt

/-- The calls of an order that has a site. -/
def planOf (settings : Settings) (order : Order) (site : Site) : List Call :=
  Settings.plan site (order.owner Parameter.userAnnotation settings.defaultUser)
    (order.owner Parameter.groupAnnotation settings.defaultGroup)

/-- A session is on the way to a tree in which an order is filled: what was called for the order so
far changes nothing more. -/
def Underway (settings : Settings) (order : Order) (site : Site) (here : Location) (after : Tree)
    (session : Session) : Prop :=
  ∃ left past todo, session.On settings left here ∧ past ++ todo = planOf settings order site ∧
    Tree.Repeatable here past left todo after

/-- A session is on a tree in which the directory of an order cannot be made. -/
def Stuck (settings : Settings) (site : Site) (here : Location) (session : Session) : Prop :=
  ∃ left, session.On settings left here ∧
    (left.createDirectories here site.paths.localPath site.mode).1 ≠ .ok ()

section Attempts

variable (found : settings.site order = .ok site)

include found

/-- An attempt goes on from where earlier ones stopped, and fills the order unless one of its calls
fails. -/
theorem Underway.attempt (underway : Underway settings order site here after session)
    (refuse : Call → Option Fault) :
    Underway settings order site here after (session.attempt order refuse).2 ∧
      ((session.attempt order refuse).1 = .ok (settings.volume order site) ∧
          (session.attempt order refuse).2.On settings after here ∨
        ∃ call fault, refuse call = some fault ∧
          (session.attempt order refuse).1 = .error (.filesystem (call.error fault))) := by
  rcases underway with ⟨tree, past, todo, on, planned, repeatable⟩
  rcases on.attempt refuse order with ⟨left, ends, tries⟩
  have staged := Settings.provision_staged found (host.refusing refuse) session
  rw [← on.run_attempt] at staged
  change Staged _ (planOf settings order site) _ _ at staged
  rw [← planned] at staged
  rcases repeatable.retries staged tries with ⟨⟨passed, left, whole, stage⟩, outcome⟩
  refine ⟨⟨_, passed, left, ends, whole.trans planned, stage⟩, outcome.imp_left ?_⟩
  rintro ⟨done, rfl⟩
  exact ⟨done, ends⟩

theorem Underway.attempts (underway : Underway settings order site here after session)
    (failures : List (Call → Option Fault)) :
    Underway settings order site here after (session.attempts order failures) := by
  induction failures generalizing session with
  | nil => exact underway
  | cons refuse failures ih => exact ih (underway.attempt found refuse).1

/-- Where no call fails the order is filled. -/
theorem Underway.provision (underway : Underway settings order site here after session) :
    (session.provision order).1 = .ok (settings.volume order site) ∧
      (session.provision order).2.On settings after here ∧
      Underway settings order site here after (session.provision order).2 := by
  rw [← attempt_never]
  rcases underway.attempt found (fun _ => none) with ⟨onward, ⟨done, ends⟩ | ⟨_, _, refused, _⟩⟩
  · exact ⟨done, ends, onward⟩
  · cases refused

/-- What could not be made is not made by trying. -/
theorem Stuck.attempt (stuck : Stuck settings site here session) (refuse : Call → Option Fault) :
    Stuck settings site here (session.attempt order refuse).2 ∧
      ∀ volume, (session.attempt order refuse).1 ≠ .ok volume := by
  rcases stuck with ⟨tree, on, blocked⟩
  rcases on.attempt refuse order with ⟨left, ends, tries⟩
  have staged := Settings.provision_staged found (host.refusing refuse) session
  rw [← on.run_attempt] at staged
  generalize (session.attempt order refuse).1 = result at staged
  generalize answered _ = made at staged tries
  cases staged with
  | failed =>
      refine ⟨⟨left, ends, ?_⟩, fun _ done => by cases done⟩
      cases tries with
      | refused _ stops =>
          cases stops
          exact blocked
      | heard _ _ stops =>
          cases stops
          exact Tree.createDirectories_fails_again (Settings.isWay_of_site found) blocked
  | passed staged =>
      cases tries with
      | heard _ answered _ =>
          exact absurd (congrArg Prod.fst (Tree.createDirectories_of_answer
            (Prod.ext answered rfl))) blocked

theorem Stuck.attempts (stuck : Stuck settings site here session)
    (failures : List (Call → Option Fault)) :
    Stuck settings site here (session.attempts order failures) := by
  induction failures generalizing session with
  | nil => exact stuck
  | cons refuse failures ih => exact ih (stuck.attempt found refuse).1

/-- Either the directory of an order can be made, and then also again, or it never can. -/
theorem On.underway_or_stuck (on : session.On settings tree here) :
    (∃ after, Underway settings order site here after session) ∨
      Stuck settings site here session := by
  cases created : tree.answer here (.createDirectories site.paths.localPath site.mode) with
  | mk answer made =>
      cases answer with
      | ok told =>
          rcases Tree.repeatable_of_created (Settings.isWay_of_site found) created _ _ with
            ⟨after, repeatable⟩
          exact .inl ⟨after, tree, [], _, on, rfl, repeatable⟩
      | error fault =>
          refine .inr ⟨tree, on, fun done => ?_⟩
          simp only [Tree.answer, done] at created
          cases created

end Attempts

/-! ## Retrying -/

/-- What comes of filling an order again, after it was filled or after attempts that failed. -/
structure Retries (settings : Settings) (order : Order) (here : Location) (session : Session) :
    Prop where
  /-- An order that was filled is filled again, with the same volume and with no change. -/
  again : ∀ volume, (session.provision order).1 = .ok volume → ∃ after,
    (session.provision order).2.On settings after here ∧
      ∀ later : Session, later.On settings after here →
        (later.provision order).1 = .ok volume ∧ (later.provision order).2.On settings after here
  /-- The attempt that fills it, after others of which some calls failed, gives the volume and ends
  in the tree of a single attempt. -/
  retried : ∀ failures refuse volume,
    ((session.attempts order failures).attempt order refuse).1 = .ok volume →
      (session.provision order).1 = .ok volume ∧ ∃ after,
        (session.provision order).2.On settings after here ∧
          ((session.attempts order failures).attempt order refuse).2.On settings after here
  /-- An order that could be filled at first is filled as soon as no call fails. -/
  recovers : ∀ failures volume, (session.provision order).1 = .ok volume →
    ((session.attempts order failures).provision order).1 = .ok volume

/-- An order that is refused is refused in every attempt. -/
theorem On.attempt_refused (on : session.On settings tree here) {cause : ProvisionerError}
    (refused : settings.site order = .error cause) (refuse : Call → Option Fault) :
    session.attempt order refuse = (.error cause, session) := by
  rw [on.run_attempt, Settings.provision, refused]
  rfl

theorem On.attempts_refused (on : session.On settings tree here) {cause : ProvisionerError}
    (refused : settings.site order = .error cause) (failures : List (Call → Option Fault)) :
    session.attempts order failures = session := by
  induction failures with
  | nil => rfl
  | cons refuse failures ih =>
      rw [attempts, List.foldl_cons, on.attempt_refused refused]
      exact ih

/-- Where no attempt ever fills an order, there is nothing to show. -/
theorem retries_of_never (never : ∀ failures refuse volume,
    ((session.attempts order failures).attempt order refuse).1 ≠ .ok volume) :
    Retries settings order here session := by
  have unfilled : ∀ volume, (session.provision order).1 ≠ .ok volume := by
    rw [← attempt_never]
    exact never [] _
  constructor
  case again => exact fun volume done => absurd done (unfilled volume)
  case retried => exact fun failures refuse volume done => absurd done (never failures refuse volume)
  case recovers => exact fun _ volume done => absurd done (unfilled volume)

theorem Underway.retries (found : settings.site order = .ok site)
    (underway : Underway settings order site here after session) :
    Retries settings order here session := by
  rcases underway.provision found with ⟨filled, ends, onward⟩
  constructor
  case again =>
    intro volume done
    cases filled.symm.trans done
    refine ⟨after, ends, fun later onLater => ?_⟩
    rcases onward with ⟨tree, past, todo, onTree, planned, repeatable⟩
    have same : tree = after := onTree.tree_eq ends
    have resumed : Underway settings order site here after later :=
      ⟨tree, past, todo, same ▸ onLater, planned, repeatable⟩
    rcases resumed.provision found with ⟨again, kept, _⟩
    exact ⟨again, kept⟩
  case retried =>
    intro failures refuse volume done
    rcases ((underway.attempts found failures).attempt found refuse).2 with
      ⟨same, left⟩ | ⟨_, _, _, failed⟩
    · cases same.symm.trans done
      exact ⟨filled, after, ends, left⟩
    · cases failed.symm.trans done
  case recovers =>
    intro failures volume done
    cases filled.symm.trans done
    exact ((underway.attempts found failures).provision found).1

/-- Every order can be tried again on any tree, whichever calls failed before. -/
theorem provision_retries (on : session.On settings tree here) (order : Order) :
    Retries settings order here session := by
  cases found : settings.site order with
  | error cause =>
      refine retries_of_never fun failures refuse volume done => ?_
      rw [on.attempts_refused found, on.attempt_refused found] at done
      cases done
  | ok site =>
      rcases on.underway_or_stuck found with ⟨after, underway⟩ | stuck
      · exact underway.retries found
      · exact retries_of_never fun failures refuse =>
          ((stuck.attempts found failures).attempt found refuse).2

/-- A filesystem that fails the calls of one operation. -/
def failing (operation : Operation) (call : Call) : Option Fault :=
  if call.operation = operation then some "Operation not permitted (os error 1)" else none

/-- A directory that was made, but could not be given its mode in a first attempt nor its owner in a
second one, ends as one that was made at once. -/
theorem provision_retries_team :
    let session := Settings.archivingSession (Settings.sampleTree ["data"] [])
    let order := teamOrder "a" "0777"
    let site := teamSite "a" 0o777
    let first := session.attempt order (failing .changeMode)
    let second := first.2.attempt order (failing .changeOwner)
    session.On Settings.sample (Settings.sampleTree ["data"] []) [] ∧
      first.1 = .error (.filesystem ((Call.setMode site.paths.localPath 0o777).error
        "Operation not permitted (os error 1)")) ∧
      first.2.disk.entry? ["persistentvolumes", "team", "a"] = some (.directory 0o755 0 0) ∧
      second.1 = .error (.filesystem ((Call.setOwner site.paths.localPath 0 0).error
        "Operation not permitted (os error 1)")) ∧
      (second.2.provision order).1 = .ok (Settings.sample.volume order site) ∧
      (second.2.provision order).2.disk = (session.provision order).2.disk := by
  intro session order site first second
  have on : session.On Settings.sample (Settings.sampleTree ["data"] []) [] := ⟨rfl, rfl⟩
  have retries := provision_retries on order
  have done : (second.2.provision order).1 = .ok (Settings.sample.volume order site) := by
    decide +kernel
  have last := done
  rw [← attempt_never] at last
  rcases retries.retried [failing .changeMode, failing .changeOwner] _ _ last with
    ⟨_, after, ends, left⟩
  rw [attempt_never] at left
  refine ⟨on, ?_, ?_, ?_, done, left.disk.trans ends.disk.symm⟩ <;> decide +kernel

end Session
end ExportVolumes
