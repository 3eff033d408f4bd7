import ExportVolumes.CommandLine.Machine
import ExportVolumes.Proofs.CommandLine.RoundTrip
import ExportVolumes.Proofs.Provisioner.Staging

namespace ExportVolumes

/-!
Provision commands that fail.

All that a provision command reads, it reads before it makes its directory, and it hands out the
descriptor of a volume after the directory was made and given its mode and its owner
(`CommandLine.Course`).  So a command that fails has changed nothing, unless it was the filesystem
that failed it in the middle (`CommandLine.Launch.provision_clean`).
-/

/-! ## Steps that change something -/

/-- Whether an effect can change what is on a disk. -/
def Effect.changes : Effect → Bool
  | .call made => made.isMutating
  | .writeFile .. => true
  | _ => false

/-- The steps that can have changed what is on a disk. -/
def changes (steps : List Step) : List Step :=
  steps.filter fun step => step.1.changes

@[simp]
theorem changes_nil : changes [] = [] := rfl

@[simp]
theorem changes_append (first second : List Step) :
    changes (first ++ second) = changes first ++ changes second :=
  List.filter_append ..

/-- Steps that change nothing can be left out. -/
theorem changes_filter_not {hidden : Step → Bool}
    (idle : ∀ step, hidden step = true → step.1.changes = false) (steps : List Step) :
    changes (steps.filter fun step => !hidden step) = changes steps := by
  rw [changes, changes, List.filter_filter]
  refine List.filter_congr fun step _ => ?_
  cases hides : hidden step with
  | false => simp
  | true => simp [idle step hides]

theorem changes_filter_lookups (steps : List Step) :
    changes (steps.filter fun step => !step.isLookup) = changes steps := by
  refine changes_filter_not (fun step looks => ?_) steps
  rcases step with ⟨effect, answer⟩
  cases effect with
  | findClass name => rfl
  | _ => cases looks

theorem changes_filter_unheeded (heeds : Notice → Bool) (steps : List Step) :
    changes (steps.filter fun step => !step.isUnheeded heeds) = changes steps := by
  refine changes_filter_not (fun step unheeded => ?_) steps
  rcases step with ⟨effect, answer⟩
  cases effect with
  | notify notice => rfl
  | _ => cases unheeded

namespace Program

variable {α σ : Type} {program : Program α} {host : Host σ} {state : σ}

theorem changes_eq_nil {allowed : Effect → Prop} (only : program.OnlyAsks allowed)
    (idle : ∀ effect, allowed effect → effect.changes = false) :
    changes (program.trace host state) = [] := by
  refine List.filter_eq_nil_iff.mpr fun step member => ?_
  rw [idle step.1 (only.of_mem_trace host state member)]
  exact Bool.false_ne_true

/-- A run without a step that changes anything keeps what all other effects keep. -/
theorem run_keeps_of_changes {keeps : σ → Prop}
    (kept : ∀ effect state, effect.changes = false → keeps state → keeps (host effect state).2)
    (idle : changes (program.trace host state) = []) (holds : keeps state) :
    keeps (program.run host state).2 := by
  induction program generalizing state with
  | done result => exact holds
  | ask effect next ih =>
      rw [trace_ask, changes, List.filter_cons] at idle
      cases quiet : effect.changes with
      | true =>
          rw [if_pos quiet] at idle
          cases idle
      | false =>
          rw [if_neg (by simp [quiet])] at idle
          exact ih _ idle (kept effect state quiet holds)

end Program

/-- Calls with their answers, as steps. -/
def callSteps (calls : List (Call × Except Fault Bool)) : List Step :=
  calls.map fun made => ⟨.call made.1, made.2⟩

/-- Filling an order changes something by its calls only. -/
theorem Settings.changes_provision {σ : Type} (settings : Settings) (order : Order) (host : Host σ)
    (state : σ) :
    changes ((settings.provision order).trace host state) =
      callSteps (answered ((settings.provision order).trace host state)) := by
  have asks : ∀ step ∈ (settings.provision order).trace host state,
      settings.ProvisionAsks order step.1 := fun step member =>
    (settings.provision_onlyAsks order).of_mem_trace host state member
  generalize (settings.provision order).trace host state = steps at asks
  induction steps with
  | nil => rfl
  | cons step steps ih =>
      have later := ih fun other member => asks other (List.mem_cons_of_mem _ member)
      have first := asks step List.mem_cons_self
      rcases step with ⟨effect, answer⟩
      cases effect with
      | call call =>
          cases call with
          | createDirectories | setMode | setOwner => exact congrArg (List.cons _) later
          | pathExists | removeTree | rename => exact first.elim
      | publish | notify => exact later
      | findClass | readFile | writeFile | freshId => exact first.elim

namespace CommandLine

/-! ## The course of a provision command -/

/-- The outcome of a provision command whose call failed. -/
def Outcome.ofCall (call : Call) (fault : Fault) : Outcome :=
  .ofFailure
    { context := "Provisioning failed"
      causes := provisionerCauses (.filesystem (call.error fault)) } ""

/-- The outcome of a provision command whose file could not be written. -/
def Outcome.ofFile (path : String) (fault : Fault) : Outcome :=
  .ofFailure
    { context := "Failed to write volume to " ++ Text.quoted path, causes := [fault] } ""

/-- How a descriptor is handed out: what comes of it, and the steps that change something. -/
inductive HandedOut (volume : Volume) : Option String → Outcome → List Step → Prop
  | printed :
      HandedOut volume none
        { output := volume.toYaml, errors := "✓ Provisioned " ++ volume.name ++ "\n" } []
  | written {path : String} :
      HandedOut volume (some path)
        { errors := "✓ Provisioned " ++ volume.name ++ " (" ++ path ++ ")\n" }
        [⟨.writeFile path volume.toYaml, .ok ()⟩]
  | unwritten {path : String} {fault : Fault} :
      HandedOut volume (some path)
        (.ofFile path fault) [⟨.writeFile path volume.toYaml, .error fault⟩]

/-- The steps that make a directory and give it its mode and its owner, with success. -/
def furnishing (settings : Settings) (order : Order) (site : Site) (made moded owned : Bool) :
    List Step :=
  callSteps
    [(.createDirectories site.paths.localPath site.mode, .ok made),
      (.setMode site.paths.localPath site.mode, .ok moded),
      (settings.owning order site, .ok owned)]

/-- How filling an order can go: what comes of it, and the steps that change something. -/
inductive Filling (settings : Settings) (order : Order) :
    Except ProvisionerError Volume → List Step → Prop
  | refused {cause : ProvisionerError} : Filling settings order (.error cause) []
  | stopped {passed : List (Call × Except Fault Bool)} {call : Call} {fault : Fault} :
      Filling settings order (.error (.filesystem (call.error fault)))
        (callSteps (passed ++ [(call, .error fault)]))
  | filled {site : Site} {made moded owned : Bool} (placed : settings.site order = .ok site) :
      Filling settings order (.ok (settings.volume order site))
        (furnishing settings order site made moded owned)

/-- How a provision command can go once it has started up: what comes of it, and the steps that
change something. -/
inductive Course (ready : Ready) (output : Option String) : Outcome → List Step → Prop
  | refused {outcome : Outcome} (failed : outcome.exitCode ≠ 0) (mute : outcome.output = "") :
      Course ready output outcome []
  | stopped {passed : List (Call × Except Fault Bool)} {call : Call} {fault : Fault} :
      Course ready output (.ofCall call fault) (callSteps (passed ++ [(call, .error fault)]))
  | filled {order : Order} {site : Site} {made moded owned : Bool} {outcome : Outcome}
      {handing : List Step} (placed : ready.settings.site order = .ok site)
      (handed : HandedOut (ready.settings.volume order site) output outcome handing) :
      Course ready output outcome
        (furnishing ready.settings order site made moded owned ++ handing)

/-- A command was failed by the disk: at last a call of the provisioner failed, or the writing of the
descriptor, and this is what is told. -/
inductive FailedOnDisk (outcome : Outcome) (steps : List Step) : Prop
  | call {c : Call} {fault : Fault} (last : steps.getLast? = some ⟨.call c, .error fault⟩)
      (told : outcome = .ofCall c fault)
  | file {path text : String} {fault : Fault}
      (last : steps.getLast? = some ⟨.writeFile path text, .error fault⟩)
      (told : outcome = .ofFile path fault)

/-- A descriptor was handed out: something was printed, or there was a file to write. -/
def HandsOut (outcome : Outcome) (steps : List Step) : Prop :=
  outcome.output ≠ "" ∨ ∃ path text answer, ⟨.writeFile path text, answer⟩ ∈ steps

namespace Course

variable {ready : Ready} {output : Option String} {outcome : Outcome} {steps : List Step}
  (course : Course ready output outcome steps)

include course

/-- A command that fails prints nothing. -/
theorem mute (failed : outcome.exitCode ≠ 0) : outcome.output = "" := by
  cases course with
  | refused _ mute => exact mute
  | stopped => rfl
  | filled _ handed =>
      cases handed with
      | printed | written => exact absurd rfl failed
      | unwritten => rfl

/-- A command that fails has changed nothing or was failed by the disk. -/
theorem idle_or_failedOnDisk (failed : outcome.exitCode ≠ 0) :
    steps = [] ∨ FailedOnDisk outcome steps := by
  cases course with
  | refused => exact .inl rfl
  | @stopped passed call fault =>
      have last : (callSteps (passed ++ [(call, .error fault)])).getLast? =
          some ⟨.call call, .error fault⟩ := by
        rw [callSteps, List.map_append]
        exact List.getLast?_concat
      exact .inr (.call last rfl)
  | filled _ handed =>
      cases handed with
      | printed | written => exact absurd rfl failed
      | unwritten => exact .inr (.file List.getLast?_concat rfl)

/-- What is handed out is the descriptor of a volume whose directory was made. -/
theorem furnished (hands : HandsOut outcome steps) :
    ∃ order site made moded owned handing, ready.settings.site order = .ok site ∧
      HandedOut (ready.settings.volume order site) output outcome handing ∧
      steps = furnishing ready.settings order site made moded owned ++ handing := by
  cases course with
  | refused _ mute =>
      rcases hands with printed | ⟨_, _, _, member⟩
      · exact absurd mute printed
      · cases member
  | stopped =>
      rcases hands with printed | ⟨_, _, _, member⟩
      · exact absurd rfl printed
      · rcases List.mem_map.mp member with ⟨call, _, same⟩
        cases same
  | filled placed handed => exact ⟨_, _, _, _, _, _, placed, handed, rfl⟩

end Course

variable {σ : Type} {host : Host σ} {state : σ}

theorem handedOut (host : Host σ) (state : σ) (volume : Volume) (output : Option String) :
    HandedOut volume output ((handOut volume output).run host state).1
      (changes ((handOut volume output).trace host state)) := by
  cases output with
  | none => exact .printed
  | some path =>
      have run : (Program.writeFile path volume.toYaml).run host state =
          host (.writeFile path volume.toYaml) state := rfl
      have trace : (Program.writeFile path volume.toYaml).trace host state =
          [⟨.writeFile path volume.toYaml, (host (.writeFile path volume.toYaml) state).1⟩] := rfl
      simp only [handOut, Program.bind_eq_bind, Program.run_bind, Program.trace_bind, run, trace]
      cases (host (.writeFile path volume.toYaml) state).1 with
      | error fault => exact .unwritten
      | ok _ => exact .written

theorem changes_volumeName (host : Host σ) (state : σ) (request : Request) :
    changes ((volumeName request).trace host state) = [] := by
  unfold volumeName
  split <;> rfl

theorem filling (settings : Settings) (order : Order) (host : Host σ) (state : σ) :
    Filling settings order ((settings.provision order).run host state).1
      (changes ((settings.provision order).trace host state)) := by
  cases found : settings.site order with
  | error cause =>
      rw [Settings.provision, found]
      exact .refused
  | ok site =>
      have staged := Settings.provision_staged found host state
      rw [settings.changes_provision]
      generalize ((settings.provision order).run host state).1 = result at staged
      generalize answered ((settings.provision order).trace host state) = calls at staged
      cases result with
      | error cause =>
          rcases staged.error_eq rfl with ⟨call, fault, last, rfl⟩
          rcases List.getLast?_eq_some_iff.mp last with ⟨passed, rfl⟩
          exact .stopped
      | ok volume =>
          -- All three calls of the plan have passed.
          rcases staged with _ | _ | staged
          rcases staged with _ | _ | staged
          rcases staged with _ | _ | staged
          cases staged
          exact .filled found

/-- A provision command that has started up goes one of these ways. -/
theorem provision_course (ready : Ready) (requestPath : String) (output : Option String)
    (host : Host σ) (state : σ) :
    Course ready output ((provision ready requestPath output).run host state).1
      (changes ((provision ready requestPath output).trace host state)) := by
  have unread : ∀ answer steps, changes (⟨.readFile requestPath, answer⟩ :: steps) =
      changes steps := fun _ _ => rfl
  have refuses : ∀ failure : Failure, Course ready output (.ofFailure failure "") [] :=
    fun _ => .refused (fun same => by cases same) rfl
  simp only [provision, Program.bind_eq_bind, Program.run_bind, Program.trace_bind,
    trace_readModel, List.singleton_append, unread]
  generalize ((readModel "request" requestPath Request.ofYaml?).run host state).2 = opened
  cases ((readModel "request" requestPath Request.ofYaml?).run host state).1 with
  | error failure => exact refuses failure
  | ok request =>
      simp only
      cases classFor ready.registry request with
      | error failure => exact refuses failure
      | ok sc =>
          simp only [Program.run_bind, Program.trace_bind, Program.run_serving,
            Program.trace_serving, changes_append, changes_volumeName, changes_filter_lookups,
            List.nil_append]
          generalize ((volumeName request).run host opened).1 = name
          generalize ((volumeName request).run host opened).2 = named
          have goes := filling ready.settings ⟨request.claim, name, sc⟩
            (host.serving ready.registry) named
          generalize ((ready.settings.provision ⟨request.claim, name, sc⟩).run
            (host.serving ready.registry) named).1 = result at goes
          generalize changes ((ready.settings.provision ⟨request.claim, name, sc⟩).trace
            (host.serving ready.registry) named) = steps at goes
          cases goes with
          | refused => exact refuses _
          | @stopped passed call fault =>
              change Course ready output (.ofCall call fault)
                (callSteps (passed ++ [(call, .error fault)]) ++ [])
              rw [List.append_nil]
              exact .stopped
          | filled placed => exact .filled placed (handedOut host _ _ output)

/-! ## The course of a launch -/

theorem changes_startUp (invocation : Invocation) (environment : Environment) (host : Host σ)
    (state : σ) : changes ((startUp invocation environment).trace host state) = [] := by
  refine Program.changes_eq_nil (startUp_onlyAsks invocation environment) fun effect prepares => ?_
  cases effect with
  | call call =>
      rcases prepares with ⟨path, rfl⟩
      rfl
  | readFile | notify => rfl
  | findClass | publish | writeFile | freshId => exact prepares.elim

namespace Launch

/-- The state that a launch leaves. -/
def final (launch : Launch σ) : σ :=
  ((run launch.environment launch.arguments).run launch.host launch.state).2

/-- How a launch can go that asks for no other command: it informs, it fails before it has changed
anything, or it goes on with its work. -/
inductive Goes (launch : Launch σ) : Prop
  | informs (unasked : ∀ command, ¬launch.Asks command) (fine : launch.outcome.exitCode = 0)
  | refuses (failed : launch.outcome.exitCode ≠ 0) (mute : launch.outcome.output = "")
      (idle : changes launch.steps = [])
  | works {ready : Ready} {state : σ} {requestPath : String} {output : Option String}
      (started : launch.ready? = some (ready, state))
      (asked : launch.Asks (.provision requestPath output))
      (course : Course ready output launch.outcome (changes launch.steps))

variable {launch : Launch σ}

theorem refuses_of_done {outcome : Outcome}
    (ends : run launch.environment launch.arguments = .done outcome)
    (failed : outcome.exitCode ≠ 0) (mute : outcome.output = "") : launch.Goes := by
  have comes : launch.outcome = outcome := by
    rw [Launch.outcome, ends]
    rfl
  have idle : launch.steps = [] := by
    rw [steps, ends]
    rfl
  rw [← comes] at failed mute
  exact .refuses failed mute (by rw [idle, changes_nil])

theorem goes (launch : Launch σ) (only : ∀ command, launch.Asks command →
    ∃ requestPath output, command = .provision requestPath output) : launch.Goes := by
  have fails : ∀ errors, ({ exitCode := 1, errors } : Outcome).exitCode ≠ 0 :=
    fun _ same => by cases same
  cases invoked : launch.invocation? with
  | none =>
      have unasked : ∀ command, ¬launch.Asks command := by simp [Asks, invoked]
      unfold invocation? at invoked
      cases read : Invocation.ofArguments launch.environment launch.arguments with
      | ok invocation =>
          rw [read] at invoked
          cases invoked
      | error halt =>
          cases halt with
          | information about =>
              refine .informs unasked ?_
              rw [outcome, run, read]
              cases about <;> rfl
          | error cause =>
              have ends : run launch.environment launch.arguments =
                  .done { exitCode := 2, errors := lines [cause.message] } := by
                rw [run, read]
                rfl
              exact refuses_of_done ends (fun same => by cases same) rfl
  | some invocation =>
      cases chosen : chosenThreshold launch.environment invocation.logLevel with
      | error complaint =>
          have ends : run launch.environment launch.arguments = .done (Outcome.ofFailure
              { context := "Failed to create log filter", causes := [complaint, complaint] }
              "") := by
            rw [run_eq invoked, Invocation.run, chosen]
            rfl
          exact refuses_of_done ends (fails _) rfl
      | ok threshold =>
          cases asked : invocation.command with
          | none =>
              have ends : run launch.environment launch.arguments = .done
                  { exitCode := 1, errors := "No command specified. Use --help for usage.\n" } := by
                rw [run_eq invoked, Invocation.run, chosen]
                simp only [perform, asked]
                rfl
              exact refuses_of_done ends (fails _) rfl
          | some command =>
              have asks : launch.Asks command := by
                rw [Asks, invoked]
                exact asked
              rcases only command asks with ⟨requestPath, output, rfl⟩
              have ends := outcome_eq invoked asks rfl chosen
              have takes := steps_eq invoked asks rfl chosen
              have started := ready?_eq invoked chosen
              dsimp only at ends takes started
              have changing := congrArg changes takes
              rw [changes_filter_unheeded, changes_append, changes_startUp, List.nil_append]
                at changing
              cases begun : ((startUp invocation launch.environment).run
                  (launch.host.heeding (heeds threshold)) launch.state).1 with
              | none =>
                  rw [begun] at ends changing
                  exact .refuses (ends ▸ fails _) (ends ▸ rfl) changing
              | some ready =>
                  rw [begun] at ends changing started
                  refine .works started asks ?_
                  rw [ends, changing]
                  exact provision_course ready requestPath output _ _

/-! ## Failing -/

/-- What a launch that asks for no command but provisioning never does by halves. -/
structure Clean (launch : Launch σ) : Prop where
  /-- It prints nothing if it fails. -/
  mute : launch.outcome.exitCode ≠ 0 → launch.outcome.output = ""
  /-- If it fails and was not failed by the disk, it has changed nothing: what all effects keep that
  change nothing is as it was. -/
  unchanged : launch.outcome.exitCode ≠ 0 →
    ¬FailedOnDisk launch.outcome (changes launch.steps) →
    changes launch.steps = [] ∧ ∀ keeps : σ → Prop,
      (∀ effect state, effect.changes = false → keeps state → keeps (launch.host effect state).2) →
        keeps launch.state → keeps launch.final
  /-- If it hands out anything, printed or in a file, it has first made a directory with its mode and
  its owner, and what it hands out is the descriptor of that volume. -/
  furnished : ∀ requestPath output, launch.Asks (.provision requestPath output) →
    HandsOut launch.outcome launch.steps →
    ∃ ready state order site made moded owned handing,
      launch.ready? = some (ready, state) ∧ ready.settings.site order = .ok site ∧
        HandedOut (ready.settings.volume order site) output launch.outcome handing ∧
        changes launch.steps =
          furnishing ready.settings order site made moded owned ++ handing

theorem handsOut_changes {outcome : Outcome} {steps : List Step} (hands : HandsOut outcome steps) :
    HandsOut outcome (changes steps) := by
  refine hands.imp_right ?_
  rintro ⟨path, text, answer, member⟩
  exact ⟨path, text, answer, List.mem_filter.mpr ⟨member, rfl⟩⟩

/-- Whatever the host answers, a launch that asks for no command but provisioning is clean. -/
theorem provision_clean (only : ∀ command, launch.Asks command →
    ∃ requestPath output, command = .provision requestPath output) : launch.Clean := by
  have goes := launch.goes only
  constructor
  case mute =>
    intro failed
    cases goes with
    | informs _ fine => exact absurd fine failed
    | refuses _ mute => exact mute
    | works _ _ course => exact course.mute failed
  case unchanged =>
    intro failed sound
    have idle : changes launch.steps = [] := by
      cases goes with
      | informs _ fine => exact absurd fine failed
      | refuses _ _ idle => exact idle
      | works _ _ course => exact (course.idle_or_failedOnDisk failed).resolve_right sound
    exact ⟨idle, fun _ kept => Program.run_keeps_of_changes kept idle⟩
  case furnished =>
    intro requestPath output asked hands
    have handsChanging := handsOut_changes hands
    cases goes with
    | informs unasked => exact absurd asked (unasked _)
    | refuses _ mute idle =>
        rw [idle] at handsChanging
        rcases handsChanging with printed | ⟨_, _, _, member⟩
        · exact absurd mute printed
        · cases member
    | works started asks course =>
        cases asks.symm.trans asked
        rcases course.furnished handsChanging with
          ⟨order, site, made, moded, owned, handing, placed, handed, takes⟩
        exact ⟨_, _, order, site, made, moded, owned, handing, started, placed, handed, takes⟩

/-- On a machine, what changes nothing leaves the tree as it is. -/
theorem disk_of_idle {tree : Tree} {here : Location} (effect : Effect) (machine : Machine)
    (idle : effect.changes = false) (disk : machine.disk = .tree tree here) :
    (Machine.host effect machine).2.disk = .tree tree here := by
  cases effect with
  | call call =>
      cases call with
      | pathExists path =>
          simp only [Machine.host, disk, Disk.answer]
          rfl
      | _ => cases idle
  | writeFile => cases idle
  | _ => exact disk

/-- The tree of a machine with the classes of the sample and a request that asks for a mode. -/
def annotatedTree (mode : String) : Tree :=
  let request := "claim:\n  metadata:\n    name: data\n    namespace: default\n" ++
    "    annotations:\n      " ++ Parameter.modeAnnotation ++ ": " ++ mode ++
    "\n  spec:\n    storageClassName: nfs\nvolumeName: pvc-1\n"
  (Tree.set {} ["classes.yaml"] (.file 0o644 0 0 "- name: nfs\n")).set ["request.yaml"]
    (.file 0o644 0 0 request)

/-- The sample on a machine, with a file for the descriptor. -/
def machineLaunch (tree : Tree) : Launch Machine where
  host := Machine.host
  state := { disk := .tree tree [] }
  environment := sampleEnvironment
  arguments := ["provision", "--request", "request.yaml", "--output", "volume.yaml"]

theorem machineLaunch_asks (tree : Tree) :
    (machineLaunch tree).Asks (.provision "request.yaml" (some "volume.yaml")) := by
  have asked : (machineLaunch {}).Asks (.provision "request.yaml" (some "volume.yaml")) := by
    decide +kernel
  exact asked

theorem machineLaunch_only (tree : Tree) (command : Command)
    (asks : (machineLaunch tree).Asks command) :
    ∃ requestPath output, command = .provision requestPath output := by
  cases (machineLaunch_asks tree).symm.trans asks
  exact ⟨_, _, rfl⟩

/-- A mode that cannot be read fails the command, with nothing changed.  One that can be read is the
mode of the directory whose volume the command hands out. -/
theorem provision_clean_mode :
    let launch := machineLaunch (annotatedTree "rwx")
    let readable := machineLaunch (annotatedTree "0750")
    ((∀ command, launch.Asks command → ∃ requestPath output,
      command = .provision requestPath output) ∧
      launch.outcome.exitCode = 1 ∧ launch.outcome.output = "" ∧
      launch.final.disk = .tree (annotatedTree "rwx") []) ∧
    (∀ command, readable.Asks command → ∃ requestPath output,
      command = .provision requestPath output) ∧
      readable.outcome.exitCode = 0 ∧
      ∃ ready state order site made moded owned handing,
        readable.ready? = some (ready, state) ∧ ready.settings.site order = .ok site ∧
          HandedOut (ready.settings.volume order site) (some "volume.yaml") readable.outcome
            handing ∧
          changes readable.steps =
            furnishing ready.settings order site made moded owned ++ handing ∧
          site.paths.localPath = "/persistentvolumes/default-data-pvc-1" ∧ site.mode = 0o750 := by
  intro launch readable
  refine ⟨⟨machineLaunch_only _, ?_⟩, machineLaunch_only _, ?_⟩
  · have clean : launch.Clean := provision_clean (machineLaunch_only _)
    have ran : launch.outcome.exitCode = 1 ∧ (changes launch.steps).isEmpty = true := by
      decide +kernel
    rcases ran with ⟨code, idle⟩
    have failed : launch.outcome.exitCode ≠ 0 := by
      rw [code]
      decide
    have sound : ¬FailedOnDisk launch.outcome (changes launch.steps) := by
      rw [List.isEmpty_iff.mp idle]
      rintro (⟨⟨⟩⟩ | ⟨⟨⟩⟩)
    refine ⟨code, clean.mute failed, ?_⟩
    exact (clean.unchanged failed sound).2 (fun machine => machine.disk = _) disk_of_idle rfl
  · have clean : readable.Clean := provision_clean (machineLaunch_only _)
    have ran : readable.outcome.exitCode = 0 ∧
        (readable.steps.any fun step => step.1 matches .writeFile ..) = true ∧
        ((changes readable.steps).head?.map Sigma.fst) = some
          (.call (.createDirectories "/persistentvolumes/default-data-pvc-1" 0o750)) := by
      decide +kernel
    rcases ran with ⟨code, writes, first⟩
    have hands : HandsOut readable.outcome readable.steps := by
      rcases List.any_eq_true.mp writes with ⟨⟨effect, answer⟩, member, written⟩
      cases effect with
      | writeFile path text => exact .inr ⟨path, text, answer, member⟩
      | _ => cases written
    rcases clean.furnished _ _ (machineLaunch_asks _) hands with
      ⟨ready, state, order, site, made, moded, owned, handing, started, placed, handed, takes⟩
    rw [takes] at first
    injection Option.some.inj first with same
    injection same with path mode
    exact ⟨code, ready, state, order, site, made, moded, owned, handing, started, placed, handed,
      takes, path, mode⟩

end Launch
end CommandLine
end ExportVolumes
