import ExportVolumes.Proofs.CommandLine.RoundTrip
import ExportVolumes.Proofs.Configuration.Layers

namespace ExportVolumes
namespace CommandLine

/-!
Where commands find their configuration.

A command gathers its configuration first, from what the line says and from the environment.  The
variable that names a configuration file stands for the option of the line, so a command never
passes over it: it works with the configuration that is found without an option exactly if there is
something at the path that the variable names (`discovery_iff`).
-/

/-! ## The line -/

namespace Reading

/-- What the line gives for an option. -/
def onLine (reading : Reading) (option : OptionName) : Option String :=
  ((reading.given ++ reading.earlier).lookup option).join

/-- What the line gives for the fields of a configuration. -/
def flags (reading : Reading) : Field → Option String :=
  fun field => reading.onLine (.field field)

/-- What was read, with what the environment sets, as an invocation. -/
def invocation (reading : Reading) (environment : Environment) (command : Option Command) :
    Invocation where
  configurationPath := reading.value? environment .configuration
  classesPath := reading.value? environment .storageClasses
  logLevel := (reading.value? environment .logLevel).getD defaultLogLevel
  fields := fun field => reading.value? environment (.field field)
  command := command

/-- Only the paths of the configuration and of the classes cannot be empty. -/
theorem emptyPath?_eq (reading : Reading) (environment : Environment) :
    reading.emptyPath? environment =
      if reading.value? environment .configuration = some "" then some .configuration
      else if reading.value? environment .storageClasses = some "" then some .storageClasses
      else none := by
  have free : ∀ option ∈ OptionName.logLevel :: Field.all.map OptionName.field,
      ¬(option.takesPath && decide (reading.value? environment option = some "")) = true := by
    intro option member
    have pathless : option.takesPath = false := by
      rcases List.mem_cons.mp member with rfl | member
      · rfl
      · rcases List.mem_map.mp member with ⟨field, _, rfl⟩
        rfl
    rw [pathless, Bool.false_and]
    exact Bool.false_ne_true
  have rest := List.find?_eq_none.mpr free
  change List.find? _ (.configuration :: .storageClasses ::
    OptionName.logLevel :: Field.all.map OptionName.field) = _
  rw [List.find?_cons, List.find?_cons, rest]
  simp only [OptionName.takesPath, Bool.true_and]
  split <;> rename_i first
  · rw [if_pos (of_decide_eq_true first)]
  · rw [if_neg (of_decide_eq_false first)]
    split <;> rename_i second
    · rw [if_pos (of_decide_eq_true second)]
    · rw [if_neg (of_decide_eq_false second)]

end Reading

variable {environment : Environment} {arguments : List String} {reading : Reading}
  {command : Command}

/-- A line that names a command can be used unless the path of the configuration is empty. -/
theorem ofArguments_eq (line : Reading.takeAll {} none arguments = .ok reading)
    (commanded : reading.command environment = .ok (some command))
    (classes : reading.value? environment .storageClasses ≠ some "") :
    Invocation.ofArguments environment arguments =
      if reading.value? environment .configuration = some "" then
        .error (.error (.emptyPath .configuration))
      else .ok (reading.invocation environment (some command)) := by
  rw [Invocation.ofArguments, line]
  simp only [bind, Except.bind, commanded, reading.emptyPath?_eq]
  by_cases empty : reading.value? environment .configuration = some ""
  · rw [if_pos empty, if_pos empty]
  · rw [if_neg empty, if_neg empty, if_neg classes]
    rfl

/-! ## What a command gathers -/

/-- A command that is not about another file gathers its configuration before all else. -/
theorem perform_gathers {invocation : Invocation} (asked : invocation.command = some command)
    (fileless : ∀ file, command ≠ .validateConfiguration (some file)) (environment : Environment) :
    ∃ proceed, perform invocation environment =
      (Configuration.gather invocation.configurationPath environment invocation.fields).bind
        proceed := by
  have worked : ∀ work, Launch.work? command = some work → ∃ proceed,
      perform invocation environment =
        (Configuration.gather invocation.configurationPath environment invocation.fields).bind
          proceed := by
    intro work does
    rw [Launch.perform_eq asked does, startUp, Program.bind_eq_bind, Program.bind_assoc]
    exact ⟨_, rfl⟩
  cases command with
  | provision requestPath output => exact worked _ rfl
  | delete volumePath => exact worked _ rfl
  | showConfiguration paths =>
      rw [perform, asked]
      exact ⟨_, rfl⟩
  | validateConfiguration file =>
      cases file with
      | some file => exact absurd rfl (fileless file)
      | none =>
          rw [perform, asked]
          exact ⟨_, rfl⟩

/-! ## What the variable changes -/

section Resolution

open ExportVolumes.Configuration (gather sourceOn readOn run_gather)

variable {tree : Tree} {here : Location}

/-- A path that is not there cannot be read. -/
theorem read_of_not_holds {path : String} (absent : tree.holds here path = false) :
    ∃ cause, tree.read here path = .error cause := by
  rw [Tree.holds, Tree.pathExists] at absent
  rw [Tree.read]
  cases routed : Route.ofText path with
  | error cause => exact ⟨cause, rfl⟩
  | ok route =>
      cases found : tree.find here route with
      | error cause => exact ⟨cause, by simp [bind, Except.bind, found]⟩
      | ok entry => simp [routed, Except.bind, found, Except.toOption] at absent

/-- A load error names the file that was read. -/
theorem of_readOn_error {file : Option String} {path : String} {fault : LoadFault}
    (failed : readOn tree here file = .error (.load path fault)) : file = some path := by
  cases file with
  | none => cases failed
  | some other =>
      rw [readOn] at failed
      split at failed
      · cases failed
        rfl
      · split at failed
        · cases failed
          rfl
        · cases failed

/-- Without an option, only a file that is there is read. -/
theorem holds_of_sourceOn {path : String}
    (found : sourceOn tree here none environment = some path) :
    tree.holds here path = true :=
  List.find?_some found

/-- Where there is something at the path that the variable names, the path is found. -/
theorem sourceOn_of_holds {path : String}
    (named : environment Configuration.pathVariable = some path)
    (there : tree.holds here path = true) : sourceOn tree here none environment = some path := by
  rw [sourceOn, Option.none_or, Configuration.searchPaths, named]
  exact List.find?_cons_of_pos there

/-- The variable of a field stands for its option, and overrides the file anyway. -/
theorem gather_invocation (reading : Reading) (environment : Environment)
    (command : Option Command) (asked : Option String) :
    gather asked environment (reading.invocation environment command).fields =
      gather asked environment reading.flags := by
  have fields : (fun (configuration : Configuration) =>
      (configuration.overriddenBy environment.fields).overriddenBy
        (reading.invocation environment command).fields) =
      fun configuration =>
        (configuration.overriddenBy environment.fields).overriddenBy reading.flags := by
    funext configuration
    exact configuration.overriddenBy_or environment.fields reading.flags
  rw [gather, gather, fields]

section Gathered

variable {machine : Machine} (working : machine.disk = .tree tree here)

include working

/-- A path that is asked for and is not there fails. -/
theorem gather_missing {path : String} (absent : tree.holds here path = false)
    (environment : Environment) (flags : Field → Option String) :
    ∃ fault, (gather (some path) environment flags).run Machine.host machine =
      (.error (.load path (.unreadable fault)), machine) := by
  rcases read_of_not_holds absent with ⟨cause, unreadable⟩
  refine ⟨cause.message, ?_⟩
  rw [run_gather working, sourceOn, Option.some_or, readOn, unreadable]
  rfl

/-- Asking for the path that the variable names makes no difference exactly if it is there. -/
theorem gather_pathVariable_iff (environment : Environment) (flags : Field → Option String) :
    (gather (environment Configuration.pathVariable) environment flags).run Machine.host machine =
        (gather none environment flags).run Machine.host machine ↔
      ∀ path, environment Configuration.pathVariable = some path → tree.holds here path = true := by
  constructor
  · intro same path named
    by_contra absent
    rcases gather_missing working (Bool.eq_false_iff.mpr absent) environment flags with
      ⟨fault, missing⟩
    rw [named, missing, run_gather working] at same
    have failed := (congrArg Prod.fst same).symm
    cases source : readOn tree here (sourceOn tree here none environment) with
    | ok configuration =>
        rw [source] at failed
        cases failed
    | error cause =>
        rw [source] at failed
        cases failed
        exact absent (holds_of_sourceOn (of_readOn_error source))
  · intro present
    cases named : environment Configuration.pathVariable with
    | none => rfl
    | some path =>
        rw [run_gather working, run_gather working,
          sourceOn_of_holds named (present path named)]
        rfl

/-- On a line without the option for the configuration, a command works with the configuration, or
the error, that is found without an option exactly if the variable names no path, or one that there
is something at.  A path that is missing fails the command. -/
theorem discovery_iff (line : Reading.takeAll {} none arguments = .ok reading)
    (commanded : reading.command environment = .ok (some command))
    (fileless : ∀ file, command ≠ .validateConfiguration (some file))
    (classes : reading.value? environment .storageClasses ≠ some "")
    (unasked : reading.onLine .configuration = none) :
    let invoked := Invocation.ofArguments environment arguments
    let gathered := fun invocation : Invocation =>
      (gather invocation.configurationPath environment invocation.fields).run Machine.host machine
    (∀ invocation, invoked = .ok invocation → ∃ proceed, perform invocation environment =
        (gather invocation.configurationPath environment invocation.fields).bind proceed) ∧
      ((∃ invocation, invoked = .ok invocation ∧
          gathered invocation = (gather none environment reading.flags).run Machine.host machine) ↔
        ∀ path, environment "NFS_PROVISIONER_CONFIG" = some path →
          tree.pathExists here path = .ok true) ∧
      ∀ path, environment "NFS_PROVISIONER_CONFIG" = some path →
        tree.pathExists here path ≠ .ok true →
        if path = "" then invoked = .error (.error (.emptyPath .configuration))
        else ∃ invocation fault, invoked = .ok invocation ∧
          gathered invocation = (.error (.load path (.unreadable fault)), machine) := by
  intro invoked gathered
  have asked : reading.value? environment .configuration =
      environment Configuration.pathVariable := by
    rw [Reading.value?, ← Reading.onLine, unasked, Option.none_or]
    rfl
  have usable : invoked = _ := ofArguments_eq line commanded classes
  rw [asked] at usable
  have run : gathered (reading.invocation environment (some command)) =
      (gather (environment Configuration.pathVariable) environment reading.flags).run
        Machine.host machine := by
    simp only [gathered, gather_invocation]
    rw [Reading.invocation, asked]
  refine ⟨?_, ⟨?_, ?_⟩, ?_⟩
  · intro invocation accepted
    refine perform_gathers ?_ fileless environment
    rw [accepted] at usable
    split at usable
    · cases usable
    · cases usable
      rfl
  · rintro ⟨invocation, accepted, same⟩ path named
    rw [accepted] at usable
    split at usable
    · cases usable
    · cases usable
      rw [run, gather_pathVariable_iff working] at same
      exact Tree.holds_iff.mp (same path named)
  · intro present
    have nonempty : environment Configuration.pathVariable ≠ some "" := by
      intro named
      have impossible : tree.pathExists here "" = .ok false := rfl
      rw [present "" named] at impossible
      cases impossible
    rw [if_neg nonempty] at usable
    refine ⟨_, usable, ?_⟩
    rw [run, gather_pathVariable_iff working]
    exact fun path named => Tree.holds_iff.mpr (present path named)
  · intro path named absent
    have missing : tree.holds here path = false :=
      Bool.eq_false_iff.mpr (mt Tree.holds_iff.mp absent)
    change environment Configuration.pathVariable = some path at named
    split
    · rename_i empty
      rw [named, empty, if_pos rfl] at usable
      exact usable
    · rename_i nonempty
      rcases gather_missing working missing environment reading.flags with ⟨fault, failed⟩
      rw [named, if_neg (fun same => nonempty (Option.some.inj same))] at usable
      rw [named, failed] at run
      exact ⟨_, fault, usable, run⟩

end Gathered

/-- A file that the variable names and that is there is found by commands as well, before the one of
the working directory. -/
theorem discovery_named :
    let tree := (Tree.set {} ["nfs-provisioner.yaml"] (.file 0o644 0 0 "server: here\n")).set
      ["named.yaml"] (.file 0o644 0 0 "server: there\n")
    let machine : Machine := { disk := .tree tree [] }
    let environment : Environment := fun name =>
      [("NFS_PROVISIONER_CONFIG", "named.yaml"), ("NFS_PATH", "/export")].lookup name
    let arguments := ["config", "show", "--nfs-path", "/elsewhere"]
    machine.disk = .tree tree [] ∧
      ∃ reading, Reading.takeAll {} none arguments = .ok reading ∧
        reading.command environment = .ok (some (.showConfiguration false)) ∧
        reading.value? environment .storageClasses ≠ some "" ∧
        reading.onLine .configuration = none ∧
        ∃ invocation, Invocation.ofArguments environment arguments = .ok invocation ∧
          (gather invocation.configurationPath environment invocation.fields).run Machine.host
            machine = (gather none environment reading.flags).run Machine.host machine := by
  intro tree machine environment arguments
  have working : machine.disk = .tree tree [] := rfl
  let reading : Reading :=
    { place := .display, given := [(.field .path, some "/elsewhere")] }
  have line : Reading.takeAll {} none arguments = .ok reading := rfl
  have commanded : reading.command environment = .ok (some (.showConfiguration false)) := rfl
  have classes : reading.value? environment .storageClasses ≠ some "" := by decide
  have unasked : reading.onLine .configuration = none := rfl
  refine ⟨working, reading, line, commanded, classes, unasked, ?_⟩
  refine (discovery_iff working line commanded (by simp) classes unasked).2.1.mpr ?_
  intro path named
  cases named
  rfl

/-- A command fails on a file that the variable names and that is missing, while without an option
the file of the working directory is found. -/
theorem discovery_missing :
    let tree := Tree.set {} ["nfs-provisioner.yaml"] (.file 0o644 0 0 "server: here\n")
    let machine : Machine := { disk := .tree tree [] }
    let environment : Environment := fun name =>
      [("NFS_PROVISIONER_CONFIG", "missing.yaml")].lookup name
    (∃ invocation, Invocation.ofArguments environment ["config", "show"] = .ok invocation ∧
      ((gather invocation.configurationPath environment invocation.fields).run Machine.host
        machine).1 = .error (.load "missing.yaml"
          (.unreadable "No such file or directory (os error 2)"))) ∧
      (machine.run environment ["config", "show"]).1.exitCode = 1 ∧
      ((gather none environment fun _ => none).run Machine.host machine).1 =
        .ok { server := "here" } := by
  intro tree machine environment
  have working : machine.disk = .tree tree [] := rfl
  have known : Configuration.ofYaml? "server: here\n" = some { server := "here" } := by
    decide +kernel
  refine ⟨⟨_, rfl, rfl⟩, by decide +kernel, ?_⟩
  have found : sourceOn tree [] none environment = some "./nfs-provisioner.yaml" := by
    decide +kernel
  have read : tree.read [] "./nfs-provisioner.yaml" = .ok "server: here\n" := rfl
  rw [run_gather working, found, readOn, read]
  simp only [known]
  rfl

end Resolution

end CommandLine
end ExportVolumes
