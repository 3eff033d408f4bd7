import ExportVolumes.Proofs.CommandLine.Commands
import ExportVolumes.Proofs.CommandLine.Ready
import ExportVolumes.Proofs.Layout.WorkingDirectory
import ExportVolumes.Proofs.Manifest.RoundTrip

namespace ExportVolumes
namespace CommandLine

/-!
Provisioning at the command line, and deletion of what was provisioned.

A provision command that succeeds has made one directory and handed out the text of its volume
(`Launch.Provisioned`).  A delete command on that text, with the same settings and classes, finds
the class and the directory again, whatever became of either in the meantime, and does to the
directory what the class says (`Launch.Disposes`).
-/

/-- The program with its arguments in its environment, and a host to run it on. -/
structure Launch (σ : Type) where
  host : Host σ
  state : σ
  environment : Environment
  arguments : List String

namespace Launch

variable {σ τ : Type}

/-- What a launch comes to. -/
def outcome (launch : Launch σ) : Outcome :=
  ((run launch.environment launch.arguments).run launch.host launch.state).1

/-- The steps that a launch takes. -/
def steps (launch : Launch σ) : List Step :=
  (run launch.environment launch.arguments).trace launch.host launch.state

/-- The invocation that the arguments of a launch spell. -/
def invocation? (launch : Launch σ) : Option Invocation :=
  (Invocation.ofArguments launch.environment launch.arguments).toOption

/-- The settings and the classes that a launch has ready once it has started up, and the state that
its host is then in. -/
def ready? (launch : Launch σ) : Option (Ready × σ) :=
  match launch.invocation? with
  | none => none
  | some invocation =>
      match chosenThreshold launch.environment invocation.logLevel with
      | .error _ => none
      | .ok threshold =>
          let starting := (startUp invocation launch.environment).heeding (heeds threshold)
          let (begun, state) := starting.run launch.host launch.state
          begun.map (fun ready => (ready, state))

/-- The arguments of a launch ask for a command. -/
def Asks (launch : Launch σ) (command : Command) : Prop :=
  launch.invocation?.bind Invocation.command = some command

instance (launch : Launch σ) (command : Command) : Decidable (launch.Asks command) :=
  inferInstanceAs (Decidable (_ = _))

/-- What a launch has done that provisioned a volume. -/
structure Provisioned (launch : Launch σ) (requestPath : String) (output : Option String)
    (ready : Ready) (order : Order) (site : Site) (volume : Volume) : Prop where
  started : ∃ state, launch.ready? = some (ready, state)
  /-- The order is that of the request in the file, for the class that the request names. -/
  requested : ∃ text request, ⟨.readFile requestPath, .ok text⟩ ∈ launch.steps ∧
    Request.ofYaml? text = some request ∧ order.claim = request.claim ∧
    request.className? = some order.storageClass.name
  served : ready.registry.get? order.storageClass.name = some order.storageClass
  placed : ready.settings.site order = .ok site
  described : volume = ready.settings.volume order site
  /-- One directory was made, that of the site; before, the launch only looked around. -/
  made : ∃ probes created moded owned user group, (∀ probe ∈ probes, IsProbe probe.1) ∧
    answered launch.steps = probes ++
      [(.createDirectories site.paths.localPath site.mode, .ok created),
        (.setMode site.paths.localPath site.mode, .ok moded),
        (.setOwner site.paths.localPath user group, .ok owned)]
  /-- The text of the volume was printed, or was written to its file at last. -/
  handed : match output with
    | none => launch.outcome.output = volume.toYaml
    | some path => launch.steps.getLast? = some ⟨.writeFile path volume.toYaml, .ok ()⟩

/-- What a launch does that deletes a volume of a class: its calls, apart from looking around at the
beginning, dispose of a directory as the class says, and it ends as they do. -/
structure Disposes (launch : Launch σ) (settings : Settings) (volume : Volume) (sc : StorageClass)
    (directory : String) (result : Except ProvisionerError Unit) : Prop where
  acts : ∃ probes calls, (∀ probe ∈ probes, IsProbe probe.1) ∧
    answered launch.steps = probes ++ calls ∧ Disposal settings volume sc directory result calls
  ends : launch.outcome = .ofDeletion volume result
  /-- The class was found. -/
  found : ∀ cause, result ≠ .error (.classLookup cause)

/-- What a command does once it has started up. -/
def onward (work : Ready → Program Outcome) : Option Ready → Program Outcome
  | none => .done { exitCode := 1 }
  | some ready => work ready

/-- The part of a command that follows its start. -/
def work? : Command → Option (Ready → Program Outcome)
  | .provision requestPath output => some fun ready => provision ready requestPath output
  | .delete volumePath => some fun ready => delete ready volumePath
  | _ => none

theorem perform_eq {invocation : Invocation} {command : Command} {work : Ready → Program Outcome}
    (asked : invocation.command = some command) (does : work? command = some work)
    (environment : Environment) :
    perform invocation environment =
      (startUp invocation environment).bind (onward work) := by
  rw [perform, asked]
  cases command with
  | provision | delete =>
      cases does
      refine congrArg (Program.bind _) (funext fun begun => ?_)
      cases begun <;> rfl
  | _ => cases does

section Invoked

variable {launch : Launch σ} {invocation : Invocation}
  (invoked : launch.invocation? = some invocation)

include invoked

theorem run_eq : run launch.environment launch.arguments = invocation.run launch.environment := by
  unfold invocation? at invoked
  rw [run]
  cases read : Invocation.ofArguments launch.environment launch.arguments with
  | error halt =>
      rw [read] at invoked
      cases invoked
  | ok other =>
      rw [read] at invoked
      cases invoked
      rfl

/-- A log filter that cannot be used fails every command. -/
theorem threshold_of_succeeded (succeeded : launch.outcome.exitCode = 0) :
    ∃ threshold, chosenThreshold launch.environment invocation.logLevel = .ok threshold := by
  rw [outcome, run_eq invoked, Invocation.run] at succeeded
  cases chosen : chosenThreshold launch.environment invocation.logLevel with
  | error complaint =>
      rw [chosen] at succeeded
      cases succeeded
  | ok threshold => exact ⟨threshold, rfl⟩

theorem ready?_eq {threshold : Level}
    (chosen : chosenThreshold launch.environment invocation.logLevel = .ok threshold) :
    launch.ready? =
      let begun := (startUp invocation launch.environment).run
        (launch.host.heeding (heeds threshold)) launch.state
      begun.1.map (fun ready => (ready, begun.2)) := by
  rw [ready?, invoked]
  simp only [chosen, Program.run_heeding]

variable {command : Command} {work : Ready → Program Outcome} {threshold : Level}
  (asked : launch.Asks command) (does : work? command = some work)
  (chosen : chosenThreshold launch.environment invocation.logLevel = .ok threshold)

include asked does chosen

theorem outcome_eq :
    let begun := (startUp invocation launch.environment).run
      (launch.host.heeding (heeds threshold)) launch.state
    launch.outcome =
      ((onward work begun.1).run (launch.host.heeding (heeds threshold)) begun.2).1 := by
  rw [Asks, invoked] at asked
  rw [outcome, run_eq invoked, Invocation.run]
  simp only [chosen, Program.run_heeding, perform_eq asked does, Program.run_bind]

theorem steps_eq :
    let begun := (startUp invocation launch.environment).run
      (launch.host.heeding (heeds threshold)) launch.state
    launch.steps =
      ((startUp invocation launch.environment).trace (launch.host.heeding (heeds threshold))
          launch.state ++
        (onward work begun.1).trace (launch.host.heeding (heeds threshold)) begun.2).filter
          (fun step => !step.isUnheeded (heeds threshold)) := by
  rw [Asks, invoked] at asked
  rw [steps, run_eq invoked, Invocation.run]
  simp only [chosen, Program.trace_heeding, perform_eq asked does, Program.trace_bind]

end Invoked

theorem exists_of_ready? {launch : Launch σ} {ready : Ready} {state : σ}
    (started : launch.ready? = some (ready, state)) :
    ∃ invocation threshold, launch.invocation? = some invocation ∧
      chosenThreshold launch.environment invocation.logLevel = .ok threshold ∧
      (startUp invocation launch.environment).run (launch.host.heeding (heeds threshold))
        launch.state = (some ready, state) := by
  cases invoked : launch.invocation? with
  | none => simp [ready?, invoked] at started
  | some invocation =>
      cases chosen : chosenThreshold launch.environment invocation.logLevel with
      | error complaint => simp [ready?, invoked, chosen] at started
      | ok threshold =>
          rw [ready?_eq invoked chosen] at started
          rcases Option.map_eq_some_iff.mp started with ⟨other, begun, same⟩
          cases same
          exact ⟨invocation, threshold, rfl, chosen, Prod.ext begun rfl⟩

/-- Every class that is ready is held under its own name. -/
theorem name_of_ready? {launch : Launch σ} {ready : Ready} {state : σ}
    (started : launch.ready? = some (ready, state)) {name : String} {sc : StorageClass}
    (held : ready.registry.get? name = some sc) : sc.name = name := by
  rcases exists_of_ready? started with ⟨invocation, threshold, _, _, begun⟩
  exact name_of_startUp (congrArg Prod.fst begun) held

section Work

variable {launch : Launch σ} {command : Command} {work : Ready → Program Outcome}
  (asked : launch.Asks command) (does : work? command = some work)

include asked does

/-- A command that succeeds has started up. -/
theorem ready?_of_succeeded (succeeded : launch.outcome.exitCode = 0) :
    ∃ ready state, launch.ready? = some (ready, state) := by
  cases invoked : launch.invocation? with
  | none => simp [Asks, invoked] at asked
  | some invocation =>
      rcases threshold_of_succeeded invoked succeeded with ⟨threshold, chosen⟩
      rw [ready?_eq invoked chosen]
      rw [outcome_eq invoked asked does chosen] at succeeded
      cases begun : ((startUp invocation launch.environment).run
          (launch.host.heeding (heeds threshold)) launch.state).1 with
      | none =>
          rw [begun] at succeeded
          cases succeeded
      | some ready =>
          simp only [begun, Option.map_some]
          exact ⟨ready, _, rfl⟩

/-- A launch that has started up goes on with its work; before, it only looked around. -/
theorem of_ready? {ready : Ready} {state : σ} (started : launch.ready? = some (ready, state)) :
    ∃ threshold begun,
      launch.outcome = ((work ready).run (launch.host.heeding (heeds threshold)) state).1 ∧
      launch.steps = (begun ++ (work ready).trace (launch.host.heeding (heeds threshold))
        state).filter (fun step => !step.isUnheeded (heeds threshold)) ∧
      ∀ probe ∈ answered begun, IsProbe probe.1 := by
  rcases exists_of_ready? started with ⟨invocation, threshold, invoked, chosen, begun⟩
  have ends := outcome_eq invoked asked does chosen
  have takes := steps_eq invoked asked does chosen
  simp only [begun] at ends takes
  refine ⟨threshold, _, ends, takes, fun probe member => ?_⟩
  rcases List.mem_filterMap.mp member with ⟨⟨effect, answer⟩, traced, called⟩
  have allowed := (startUp_onlyAsks invocation launch.environment).of_mem_trace _ _ traced
  cases effect with
  | call call =>
      cases called
      exact allowed
  | _ => cases called

end Work

/-- A provision command that succeeds has provisioned a volume. -/
theorem provisioned_of_succeeded {launch : Launch σ} {requestPath : String}
    {output : Option String} (asked : launch.Asks (.provision requestPath output))
    (succeeded : launch.outcome.exitCode = 0) :
    ∃ ready order site volume, launch.Provisioned requestPath output ready order site volume := by
  rcases ready?_of_succeeded asked rfl succeeded with ⟨ready, state, started⟩
  rcases of_ready? asked rfl started with ⟨threshold, begun, ends, takes, probes⟩
  rw [ends] at succeeded
  rcases provision_ok succeeded with
    ⟨text, request, sc, name, volume, naming, filling, after, known, served, filled, printed,
      traced, silent⟩
  rcases classFor_ok served with ⟨className, chosen, held⟩
  have named : sc.name = className := name_of_ready? started held
  rcases filled.of_ok with
    ⟨site, created, moded, owned, user, group, placed, described, made⟩
  rw [printed] at succeeded ends
  rw [traced] at takes
  refine ⟨ready, orderOf request name sc, site, volume, ⟨state, started⟩,
    ⟨text, request, ?_, known, rfl, named ▸ chosen⟩, named ▸ held, placed, described, ?_, ?_⟩
  · rw [takes]
    exact List.mem_filter.mpr ⟨by simp, rfl⟩
  · refine ⟨answered begun, created, moded, owned, user, group, probes, ?_⟩
    have unread : ∀ steps, answered (⟨.readFile requestPath, .ok text⟩ :: steps) =
        answered steps := fun _ => rfl
    rw [takes, answered_filter_unheeded]
    simp only [answered_append, List.cons_append, unread, silent, answered_filter_lookups,
      answered_handOut, made, List.nil_append, List.append_nil]
  · have handed := handOut_ok succeeded
    rw [ends, takes]
    cases output with
    | none => exact handed
    | some path =>
        simp only [handed, ← List.append_assoc, List.filter_append]
        exact List.getLast?_concat

/-- A delete command on the text of a volume disposes of the volume as its class says. -/
theorem disposes_of_text {launch : Launch σ} {volumePath text : String} {ready : Ready}
    {state : σ} {volume : Volume} {sc : StorageClass} (asked : launch.Asks (.delete volumePath))
    (started : launch.ready? = some (ready, state))
    (there : (launch.host (.readFile volumePath) state).1 = .ok text)
    (known : Volume.ofYaml? text = some volume) (named : volume.storageClassName = some sc.name)
    (inhabited : sc.name ≠ "") (held : ready.registry.get? sc.name = some sc) :
    ∃ result, launch.Disposes ready.settings volume sc
      (ready.settings.layout.localPathFor volume.nfs.path) result := by
  rcases of_ready? asked rfl started with ⟨threshold, begun, ends, takes, probes⟩
  have heeded : (launch.host.heeding (heeds threshold) (.readFile volumePath) state).1 = .ok text :=
    there
  rcases delete_of_text ready heeded known with ⟨comes, calls⟩
  have found : ready.registry.find sc.name = .ok sc := by
    simp [Registry.find, inhabited, held]
  have served : ∀ state, ((launch.host.heeding (heeds threshold)).serving ready.registry
      (.findClass sc.name) state).1 = .ok sc := fun _ => found
  have disposal := Settings.delete_disposal ready.settings named inhabited served
    ((launch.host.heeding (heeds threshold)) (.readFile volumePath) state).2
  refine ⟨_, ⟨_, _, probes, ?_, disposal⟩, ends.trans comes, disposal.not_classLookup⟩
  rw [takes, answered_filter_unheeded, answered_append, calls]

/-- A volume that was provisioned at the command line can be deleted there.  Whatever the host
answers, a provision command that succeeds hands out a text that is read back as its volume, and
every delete command on that text, with the same settings and classes on whatever host, finds the
directory that was made and does to it what the class says that it was made for. -/
theorem provision_round_trip {launch : Launch σ} {requestPath : String} {output : Option String}
    (asked : launch.Asks (.provision requestPath output))
    (succeeded : launch.outcome.exitCode = 0) :
    ∃ ready order site volume, launch.Provisioned requestPath output ready order site volume ∧
      Volume.ofYaml? volume.toYaml = some volume ∧
      ∃ directory, Tree.LeadsAlike site.paths.localPath directory ∧
        (ready.settings.layout.mountRoot.text ≠ "." → directory = site.paths.localPath) ∧
        ∀ (τ : Type) (later : Launch τ) volumePath state, later.Asks (.delete volumePath) →
          later.ready? = some (ready, state) →
          (later.host (.readFile volumePath) state).1 = .ok volume.toYaml →
          ∃ result, later.Disposes ready.settings volume order.storageClass directory result := by
  rcases provisioned_of_succeeded asked succeeded with ⟨ready, order, site, volume, provisioned⟩
  have known : Volume.ofYaml? volume.toYaml = some volume := by
    rw [Volume.ofYaml?, Yaml.readAs?, volume.document_toYaml, Option.bind_some]
    exact volume.read?_node _
  have path : volume.nfs.path = site.paths.serverPath := by
    rw [provisioned.described]
    rfl
  rcases Layout.finds_built _ _ (Settings.build_of_site provisioned.placed) with ⟨leads, same⟩
  rw [← path] at leads same
  refine ⟨ready, order, site, volume, provisioned, known, _, leads, same, ?_⟩
  intro τ later volumePath state wanted started there
  rcases provisioned.requested with ⟨_, request, _, _, _, chosen⟩
  have inhabited := className?_ne_empty chosen
  have named : volume.storageClassName = some order.storageClass.name := by
    rw [provisioned.described]
    simp [Settings.volume, inhabited]
  exact disposes_of_text wanted started there known named inhabited provisioned.served

/-! ## A sample -/

deriving instance DecidableEq for Ready

/-- The descriptor of the volume that the sample provisions. -/
def sampleText : String :=
  "name: pvc-1\nstorageClassName: nfs\nreclaimPolicy: Delete\naccessModes: []\nmountOptions: []\n" ++
    "nfs:\n  server: 10.0.0.1\n  path: /export/k8s/default-data-pvc-1\n  readOnly: false\n"

/-- The files of the sample: its classes, its request and the descriptor. -/
def sampleFiles : List (String × String) :=
  [("classes.yaml", "- name: nfs\n  parameters:\n    onDelete: delete\n"),
    ("request.yaml", "claim:\n  metadata:\n    name: data\n    namespace: default\n" ++
      "  spec:\n    storageClassName: nfs\nvolumeName: pvc-1\n"),
    ("volume.yaml", sampleText)]

/-- A host with the files of the sample, whose filesystem grants every call. -/
def sampleHost : Host Unit
  | .call (.pathExists path), _ => (.ok (path = "/persistentvolumes/default-data-pvc-1"), ())
  | .call _, _ => (.ok true, ())
  | .findClass name, _ => (.error (.notFound name), ())
  | .publish _, _ => ((), ())
  | .notify _, _ => ((), ())
  | .readFile path, _ =>
      (match sampleFiles.lookup path with
        | some text => .ok text
        | none => .error SystemError.notFound.message, ())
  | .writeFile _ _, _ => (.ok (), ())
  | .freshId, _ => ("0", ())

/-- The environment of the sample, which holds its whole configuration. -/
def sampleEnvironment : Environment := fun name =>
  [("NFS_SERVER", "10.0.0.1"), ("NFS_PATH", "/export/k8s"), ("PROVISIONER_NAME", "nfs"),
    ("NFS_STORAGE_CLASSES", "classes.yaml")].lookup name

/-- The sample with some arguments. -/
def sampleLaunch (arguments : List String) : Launch Unit :=
  { host := sampleHost, state := (), environment := sampleEnvironment, arguments }

/-- A volume that is provisioned in the sample is deleted there. -/
theorem provision_round_trip_sample :
    let first := sampleLaunch ["provision", "--request", "request.yaml"]
    let later := sampleLaunch ["delete", "--volume", "volume.yaml"]
    first.Asks (.provision "request.yaml" none) ∧ first.outcome.exitCode = 0 ∧
      later.Asks (.delete "volume.yaml") ∧
      ∃ ready sc volume directory result, first.ready? = some (ready, ()) ∧
        later.ready? = some (ready, ()) ∧ volume.toYaml = sampleText ∧
        later.Disposes ready.settings volume sc directory result := by
  intro first later
  have asked : first.Asks (.provision "request.yaml" none) := by decide +kernel
  have outcome : first.outcome = { output := sampleText, errors := "✓ Provisioned pvc-1\n" } := by
    decide +kernel
  have succeeded : first.outcome.exitCode = 0 := congrArg Outcome.exitCode outcome
  have printed : first.outcome.output = sampleText := congrArg Outcome.output outcome
  have wanted : later.Asks (.delete "volume.yaml") := by decide +kernel
  have same : later.ready? = first.ready? := by decide +kernel
  rcases provision_round_trip asked succeeded with
    ⟨ready, order, _, volume, provisioned, _, directory, _, _, released⟩
  rcases provisioned.started with ⟨state, started⟩
  have text : volume.toYaml = sampleText := provisioned.handed.symm.trans printed
  have read : (later.host (.readFile "volume.yaml") state).1 = .ok volume.toYaml := by
    rw [text]
    rfl
  rcases released Unit later "volume.yaml" state wanted (same.trans started) read with
    ⟨result, disposes⟩
  exact ⟨asked, succeeded, wanted, ready, _, volume, directory, result, started,
    same.trans started, text, disposes⟩

end Launch
end CommandLine
end ExportVolumes
