import ExportVolumes.CommandLine.Machine
import ExportVolumes.Proofs.Program.Trace
import Mathlib.Logic.Function.Basic

namespace ExportVolumes

/-!
The layers of a configuration.

At the bottom is what one file says, or the defaults where there is no file; the environment lies on
it, and the flags on top (`Configuration.gather_layers`).  Gathering is pure: it answers what the
tree says and leaves the machine alone (`Configuration.run_gather`).
-/

namespace Tree

/-- Whether there is anything at a path that can be looked at. -/
def holds (tree : Tree) (here : Location) (path : String) : Bool :=
  (tree.pathExists here path).toOption.getD false

theorem holds_iff {tree : Tree} {here : Location} {path : String} :
    tree.holds here path = true ↔ tree.pathExists here path = .ok true := by
  rw [holds]
  cases tree.pathExists here path <;> simp [Except.toOption]

end Tree

namespace Configuration

/-! ## Texts -/

/-- Whether a source says nothing of a text: it does not have it, or leaves it empty. -/
def Silent (source : Option String) : Prop :=
  source = none ∨ source = some ""

/-- A text is that of the flag, or if this says nothing the one set in the environment, and at last
the one below them. -/
structure Layered (flag setting : Option String) (base text : String) : Prop where
  ofFlag : ∀ given, flag = some given → given ≠ "" → text = given
  ofSetting : Silent flag → ∀ given, setting = some given → given ≠ "" → text = given
  ofBase : Silent flag → Silent setting → text = base

theorem chosen_of_ne {given : String} (said : given ≠ "") (otherwise : String) :
    chosen (some given) otherwise = given := by
  simp [chosen, Option.filter, said]

theorem chosen_of_silent {source : Option String} (silent : Silent source) (otherwise : String) :
    chosen source otherwise = otherwise := by
  rcases silent with rfl | rfl <;> rfl

theorem layered_chosen (flag setting : Option String) (base : String) :
    Layered flag setting base (chosen flag (chosen setting base)) where
  ofFlag given gives said := by rw [gives, chosen_of_ne said]
  ofSetting silent given gives said := by
    rw [chosen_of_silent silent, gives, chosen_of_ne said]
  ofBase quiet silent := by rw [chosen_of_silent quiet, chosen_of_silent silent]

/-! ## Fields -/

/-- Each field is overridden on its own. -/
theorem get_overriddenBy (configuration : Configuration) (source : Field → Option String)
    (field : Field) :
    (configuration.overriddenBy source).get field =
      chosen (source field) (configuration.get field) := by
  cases field <;> rfl

/-- A configuration is told by its fields. -/
theorem ext_get {first second : Configuration}
    (same : ∀ field, first.get field = second.get field) : first = second := by
  cases first
  cases second
  simp only [mk.injEq]
  exact ⟨same .server, same .path, same .mountRoot, same .provisionerName, same .defaultMode,
    same .defaultUser, same .defaultGroup, same .leaderElection⟩

/-- Flags that fall back to what they override anyway change nothing. -/
theorem overriddenBy_or (configuration : Configuration) (source flags : Field → Option String) :
    (configuration.overriddenBy source).overriddenBy
        (fun field => (flags field).or (source field)) =
      (configuration.overriddenBy source).overriddenBy flags := by
  apply ext_get
  intro field
  simp only [get_overriddenBy]
  cases flags field with
  | some given => rfl
  | none =>
      rw [Option.none_or, chosen_of_silent (.inl rfl)]
      cases source field with
      | none => rfl
      | some given =>
          by_cases empty : given = ""
          · rw [chosen_of_silent (.inr (congrArg some empty))]
          · rw [chosen_of_ne empty, chosen_of_ne empty]

/-- No two fields have one variable. -/
theorem environmentName_injective : Function.Injective Field.environmentName := by
  intro first second same
  cases first <;> cases second <;> first | rfl | exact absurd same (by decide)

/-- The variable of no field names the file. -/
theorem environmentName_ne_pathVariable (field : Field) : field.environmentName ≠ pathVariable := by
  cases field <;> decide

/-! ## Gathering -/

section Gathering

variable {tree : Tree} {here : Location} {machine : CommandLine.Machine}
  (working : machine.disk = .tree tree here)

/-- The file that a configuration comes from. -/
def sourceOn (tree : Tree) (here : Location) (asked : Option String) (environment : Environment) :
    Option String :=
  asked.or ((searchPaths environment).find? (tree.holds here))

/-- What a file says; without one, the defaults. -/
def readOn (tree : Tree) (here : Location) :
    Option String → Except ConfigurationError Configuration
  | none => .ok {}
  | some path =>
      match tree.read here path with
      | .error cause => .error (.load path (.unreadable cause.message))
      | .ok text =>
          match ofYaml? text with
          | none => .error (.load path .malformed)
          | some configuration => .ok configuration

include working

theorem run_isPresent (path : String) :
    (Program.isPresent path).run CommandLine.Machine.host machine =
      (tree.holds here path, machine) := by
  have answered : CommandLine.Machine.host (.call (.pathExists path)) machine =
      ((tree.pathExists here path).mapError SystemError.message, machine) := by
    rcases machine with ⟨disk, notices⟩
    subst working
    rfl
  rw [Program.isPresent, Program.run_ask, answered, Tree.holds]
  cases tree.pathExists here path <;> rfl

theorem run_firstPresent (paths : List String) :
    (firstPresent paths).run CommandLine.Machine.host machine =
      (paths.find? (tree.holds here), machine) := by
  induction paths with
  | nil => rfl
  | cons path rest ih =>
      rw [firstPresent, Program.bind_eq_bind, Program.run_bind, run_isPresent working]
      cases there : tree.holds here path with
      | true =>
          rw [List.find?_cons_of_pos there]
          rfl
      | false =>
          rw [List.find?_cons_of_neg (by simp [there])]
          exact ih

theorem run_sourceFile (asked : Option String) (environment : Environment) :
    (sourceFile asked environment).run CommandLine.Machine.host machine =
      (sourceOn tree here asked environment, machine) := by
  cases asked with
  | none => exact run_firstPresent working _
  | some path => rfl

theorem run_ofFile (path : String) :
    (ofFile path).run CommandLine.Machine.host machine =
      (readOn tree here (some path), machine) := by
  have read : CommandLine.Machine.host (.readFile path) machine =
      ((tree.read here path).mapError SystemError.message, machine) := by
    rcases machine with ⟨disk, notices⟩
    subst working
    rfl
  have run : (Program.readFile path).run CommandLine.Machine.host machine =
      CommandLine.Machine.host (.readFile path) machine := rfl
  rw [ofFile, Program.bind_eq_bind, Program.run_bind, run, read, readOn]
  cases tree.read here path with
  | error cause => rfl
  | ok text =>
      simp only [Program.mapError_ok]
      cases ofYaml? text <;> rfl

/-- What is gathered is told by the tree, and the machine stays as it is. -/
theorem run_gather (asked : Option String) (environment : Environment)
    (flags : Field → Option String) :
    (gather asked environment flags).run CommandLine.Machine.host machine =
      ((readOn tree here (sourceOn tree here asked environment)).map fun configuration =>
        (configuration.overriddenBy environment.fields).overriddenBy flags, machine) := by
  rw [gather, Program.bind_eq_bind, Program.run_bind, run_sourceFile working]
  cases sourceOn tree here asked environment with
  | none => rfl
  | some path =>
      simp only [Program.bind_eq_bind, Program.run_bind, run_ofFile working]
      rfl

/-- A configuration is gathered in layers.  Its file is the one that is asked for, or the first one
that is there; a file that cannot be read fails, and otherwise each field is that of the flag, of
the variable or of the file.  Nothing else makes a difference to a field. -/
theorem gather_layers (asked : Option String) (environment : Environment)
    (flags : Field → Option String) :
    let gathered := fun (environment : Environment) (flags : Field → Option String) =>
      (gather asked environment flags).run CommandLine.Machine.host machine
    let candidates := (environment "NFS_PROVISIONER_CONFIG").toList ++
      ["./nfs-provisioner.yaml", "/etc/nfs-subdir-provisioner/config.yaml"]
    (∃ file : Option String,
      (∀ path, asked = some path → file = some path) ∧
      (asked = none → file = candidates.find? (tree.holds here)) ∧
      (∀ path cause, file = some path → tree.read here path = .error cause →
        gathered environment flags = (.error (.load path (.unreadable cause.message)), machine)) ∧
      (∀ path text, file = some path → tree.read here path = .ok text → ofYaml? text = none →
        gathered environment flags = (.error (.load path .malformed), machine)) ∧
      (∀ base, (file = none ∧ base = {} ∨
          ∃ path text, file = some path ∧ tree.read here path = .ok text ∧
            ofYaml? text = some base) →
        ∃ configuration, gathered environment flags = (.ok configuration, machine) ∧
          ∀ field, Layered (flags field) (environment field.environmentName) (base.get field)
            (configuration.get field))) ∧
      ∀ field environment' flags', flags' field = flags field →
        (∀ name, (∀ other, other ≠ field → name ≠ other.environmentName) →
          environment' name = environment name) →
        (gathered environment' flags').1.map (fun configuration => configuration.get field) =
          (gathered environment flags).1.map (fun configuration => configuration.get field) := by
  intro gathered candidates
  have run := run_gather working asked environment flags
  refine ⟨⟨sourceOn tree here asked environment, ?_, ?_, ?_, ?_, ?_⟩, ?_⟩
  · rintro path rfl
    rfl
  · rintro rfl
    rfl
  · intro path cause found unreadable
    rw [found, readOn, unreadable] at run
    exact run
  · intro path text found read malformed
    rw [found, readOn, read] at run
    simp only [malformed] at run
    exact run
  · intro base below
    have known : readOn tree here (sourceOn tree here asked environment) = .ok base := by
      rcases below with ⟨found, rfl⟩ | ⟨path, text, found, read, known⟩
      · rw [found, readOn]
      · rw [found, readOn, read]
        simp only [known]
    rw [known] at run
    refine ⟨_, run, fun field => ?_⟩
    rw [get_overriddenBy, get_overriddenBy]
    exact layered_chosen _ _ _
  · intro field environment' flags' sameFlag sameElse
    have run' := run_gather working asked environment' flags'
    have samePath := sameElse pathVariable fun other _ =>
      (environmentName_ne_pathVariable other).symm
    have sameOwn := sameElse field.environmentName fun other differs =>
      environmentName_injective.ne differs.symm
    have source : sourceOn tree here asked environment' = sourceOn tree here asked environment := by
      rw [sourceOn, sourceOn, searchPaths, searchPaths, samePath]
    simp only [gathered, run, run', source]
    cases readOn tree here (sourceOn tree here asked environment) with
    | error cause => rfl
    | ok base =>
        simp only [Except.map, get_overriddenBy, Environment.fields, sameOwn, sameFlag]

end Gathering

/-- With a variable that names a missing file, the file of the working directory is read.  Its path
is kept below an empty setting, and its server gives way to a flag. -/
theorem gather_layers_local :
    let tree := Tree.set {} ["nfs-provisioner.yaml"]
      (.file 0o644 0 0 "server: here\npath: /export\n")
    let machine : CommandLine.Machine := { disk := .tree tree [] }
    let environment : Environment := fun name =>
      [("NFS_PROVISIONER_CONFIG", "gone.yaml"), ("NFS_SERVER", "there"),
        ("NFS_PATH", "")].lookup name
    let flags : Field → Option String := fun field =>
      if field = .server then some "elsewhere" else none
    machine.disk = .tree tree [] ∧
      ∃ configuration, (gather none environment flags).run CommandLine.Machine.host machine =
          (.ok configuration, machine) ∧
        configuration.server = "elsewhere" ∧ configuration.path = "/export" := by
  intro tree machine environment flags
  have working : machine.disk = .tree tree [] := rfl
  refine ⟨working, ?_⟩
  rcases (gather_layers working none environment flags).1 with ⟨file, _, first, _, _, layers⟩
  have found : file = some "./nfs-provisioner.yaml" := (first rfl).trans (by decide +kernel)
  have read : tree.read [] "./nfs-provisioner.yaml" = .ok "server: here\npath: /export\n" := by
    rfl
  have known : ofYaml? "server: here\npath: /export\n" =
      some { server := "here", path := "/export" } := by decide +kernel
  rcases layers _ (.inr ⟨_, _, found, read, known⟩) with ⟨configuration, gathered, layered⟩
  have noFlag : Silent (flags .path) := .inl (by decide)
  refine ⟨configuration, gathered, ?_, ?_⟩
  · exact (layered .server).ofFlag "elsewhere" (by decide) (by decide)
  · exact (layered .path).ofBase noFlag (.inr (by decide))

end Configuration
end ExportVolumes
