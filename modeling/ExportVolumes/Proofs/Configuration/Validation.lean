import ExportVolumes.Proofs.Configuration.Numbers

namespace ExportVolumes

/-!
Which configurations give settings.

`Configuration.Valid` is what the texts of a configuration have to be, `Configuration.Takes` what
settings have of them, and `Configuration.FirstRefused` which field an error names where several
could be named; `Configuration.settings_exact` ties the three to validation.
-/

namespace Parameter

/-- A text is a flag that is on or off. -/
inductive Marks : String → Bool → Prop
  | on {text : String} (spelled : text ∈ trueSpellings) : Marks text true
  | off {text : String} (spelled : text ∈ falseSpellings) : Marks text false

/-- A text gives a value: the default if it is empty, and otherwise what it means. -/
def Gives {α : Type} (default : α) (means : String → α → Prop) (text : String) (value : α) : Prop :=
  text = "" ∧ value = default ∨ text ≠ "" ∧ means text value

/-- No spelling is of both kinds. -/
theorem not_mem_trueSpellings {text : String} (spelled : text ∈ falseSpellings) :
    text ∉ trueSpellings := by
  revert text
  decide

theorem readFlag_eq_ok_iff {text : String} {flag : Bool} :
    readFlag text = .ok flag ↔ Marks text flag := by
  unfold readFlag
  constructor
  · intro read
    split at read
    · rename_i spelled
      exact Except.ok.inj read ▸ .on spelled
    · split at read
      · rename_i spelled
        exact Except.ok.inj read ▸ .off spelled
      · cases read
  · rintro (spelled | spelled)
    · rw [if_pos spelled]
    · rw [if_neg (not_mem_trueSpellings spelled), if_pos spelled]

section Gives

variable {α : Type} {default : α} {means : String → α → Prop}
  {read : String → Except ParameterError α}

/-- A reader gives what the texts give if it does so for the empty one and for the others. -/
theorem reads_gives (empty : read "" = .ok default)
    (other : ∀ text, text ≠ "" → ∀ value, read text = .ok value ↔ means text value)
    (text : String) (value : α) : read text = .ok value ↔ Gives default means text value := by
  by_cases bare : text = ""
  · subst bare
    rw [empty, Except.ok.injEq, eq_comm]
    simp [Gives]
  · rw [other text bare]
    simp [Gives, bare]

/-- A text that is empty or means something is not refused. -/
theorem ne_error_of_means
    (reads : ∀ text value, read text = .ok value ↔ Gives default means text value)
    {text : String} (readable : text = "" ∨ ∃ value, means text value) (cause : ParameterError) :
    read text ≠ .error cause := by
  have answers : ∃ value, read text = .ok value := by
    by_cases bare : text = ""
    · exact ⟨default, (reads text default).mpr (.inl ⟨bare, rfl⟩)⟩
    · rcases readable.resolve_left bare with ⟨value, said⟩
      exact ⟨value, (reads text value).mpr (.inr ⟨bare, said⟩)⟩
  rcases answers with ⟨value, answer⟩
  rw [answer]
  rintro ⟨⟩

end Gives

theorem readMode_gives : ∀ (text : String) (mode : UInt32),
    readMode text = .ok mode ↔ Gives largestMode (Spells 8 largestMode) text mode :=
  reads_gives rfl fun _ inhabited _ =>
    (readMode_eq_ok_iff inhabited).trans (denotes_iff_spells (by decide) (by decide))

theorem readId_gives : ∀ (text : String) (id : UInt32),
    readId text = .ok id ↔ Gives 0 (Spells 10 largestId) text id :=
  reads_gives rfl fun _ inhabited _ =>
    (readId_eq_ok_iff inhabited).trans (denotes_iff_spells (by decide) (by decide))

end Parameter

namespace Configuration

open Parameter (Gives Spells Marks largestMode largestId)

theorem readLeaderElection_of_ne {text : String} (given : text ≠ "") :
    readLeaderElection text = Parameter.readFlag text :=
  if_neg (by simp [given])

theorem readLeaderElection_gives : ∀ (text : String) (flag : Bool),
    readLeaderElection text = .ok flag ↔ Gives true Marks text flag :=
  Parameter.reads_gives rfl fun text given flag => by
    rw [readLeaderElection_of_ne given, Parameter.readFlag_eq_ok_iff]

/-! ## What is asked of the texts -/

/-- The texts that settings can be made of. -/
structure Valid (configuration : Configuration) : Prop where
  server : configuration.server ≠ ""
  path : configuration.path ≠ ""
  provisionerName : configuration.provisionerName ≠ ""
  defaultMode : configuration.defaultMode = "" ∨
    ∃ mode, Spells 8 largestMode configuration.defaultMode mode
  defaultUser : configuration.defaultUser = "" ∨
    ∃ user, Spells 10 largestId configuration.defaultUser user
  defaultGroup : configuration.defaultGroup = "" ∨
    ∃ group, Spells 10 largestId configuration.defaultGroup group
  leaderElection : configuration.leaderElection = "" ∨
    ∃ flag, Marks configuration.leaderElection flag

/-- The settings that a configuration describes, each value taken from the text of its own field. -/
structure Takes (configuration : Configuration) (settings : Settings) : Prop where
  server : settings.server = configuration.server
  exportPath : settings.exportPath = configuration.path
  provisionerName : settings.provisionerName = configuration.provisionerName
  defaultMode : Gives largestMode (Spells 8 largestMode) configuration.defaultMode
    settings.defaultMode
  defaultUser : Gives 0 (Spells 10 largestId) configuration.defaultUser settings.defaultUser
  defaultGroup : Gives 0 (Spells 10 largestId) configuration.defaultGroup settings.defaultGroup
  leaderElection : Gives true Marks configuration.leaderElection settings.leaderElection
  mountRoot : Gives Layout.defaultMountRoot (fun text root => root = text) configuration.mountRoot
    settings.mountRoot

/-- The reader of a field rejects a text. -/
inductive Rejects : Field → String → ParameterError → Prop
  | mode {text : String} {cause : ParameterError}
      (unreadable : Parameter.readMode text = .error cause) : Rejects .defaultMode text cause
  | user {text : String} {cause : ParameterError}
      (unreadable : Parameter.readId text = .error cause) : Rejects .defaultUser text cause
  | group {text : String} {cause : ParameterError}
      (unreadable : Parameter.readId text = .error cause) : Rejects .defaultGroup text cause
  | flag {text : String} {cause : ParameterError} (given : text ≠ "")
      (unreadable : Parameter.readFlag text = .error cause) : Rejects .leaderElection text cause

/-- The fields that have to be filled. -/
def needed : List Field := [.server, .path, .provisionerName]

/-- A field on its own gives cause for an error. -/
inductive Refused (configuration : Configuration) (field : Field) : ConfigurationError → Prop
  | missing (required : field ∈ needed) (empty : configuration.get field = "") :
      Refused configuration field (.missing field)
  | invalid {cause : ParameterError} (rejected : Rejects field (configuration.get field) cause) :
      Refused configuration field (.invalid field cause)

/-- The first field of a list that gives cause for an error, and the error. -/
inductive FirstRefused (configuration : Configuration) : List Field → ConfigurationError → Prop
  | here {field : Field} {later : List Field} {error : ConfigurationError}
      (refused : configuration.Refused field error) :
      FirstRefused configuration (field :: later) error
  | later {field : Field} {later : List Field} {error : ConfigurationError}
      (passes : ∀ cause, ¬configuration.Refused field cause)
      (onward : FirstRefused configuration later error) :
      FirstRefused configuration (field :: later) error

/-- The fields that can be refused, in the order in which they are looked at. -/
def validated : List Field :=
  [.server, .path, .provisionerName, .defaultMode, .defaultUser, .defaultGroup, .leaderElection]

variable {configuration : Configuration} {settings : Settings} {error : ConfigurationError}

theorem FirstRefused.refused {fields : List Field}
    (first : configuration.FirstRefused fields error) :
    ∃ field ∈ fields, configuration.Refused field error := by
  induction first with
  | here refused => exact ⟨_, List.mem_cons_self, refused⟩
  | later _ _ ih =>
      rcases ih with ⟨field, member, refused⟩
      exact ⟨field, List.mem_cons_of_mem _ member, refused⟩

/-- No field of a valid configuration is refused. -/
theorem Valid.not_refused (valid : configuration.Valid) {field : Field} :
    ¬configuration.Refused field error := by
  intro refused
  cases refused with
  | missing required empty =>
      simp only [needed, List.mem_cons, List.not_mem_nil, or_false] at required
      rcases required with rfl | rfl | rfl
      · exact valid.server empty
      · exact valid.path empty
      · exact valid.provisionerName empty
  | invalid rejected =>
      cases rejected with
      | mode unreadable =>
          exact Parameter.ne_error_of_means Parameter.readMode_gives valid.defaultMode _ unreadable
      | user unreadable =>
          exact Parameter.ne_error_of_means Parameter.readId_gives valid.defaultUser _ unreadable
      | group unreadable =>
          exact Parameter.ne_error_of_means Parameter.readId_gives valid.defaultGroup _ unreadable
      | flag given unreadable =>
          rw [← readLeaderElection_of_ne given] at unreadable
          exact Parameter.ne_error_of_means readLeaderElection_gives valid.leaderElection _
            unreadable

theorem Takes.mountRoot_ne_empty (takes : configuration.Takes settings) :
    settings.mountRoot ≠ "" := by
  rcases takes.mountRoot with ⟨_, default⟩ | ⟨given, same⟩
  · rw [default]
    decide
  · rwa [same]

/-! ## Single fields -/

theorem required_eq_ok_iff {field : Field} {text : String} :
    configuration.required field = .ok text ↔ configuration.get field = text ∧ text ≠ "" := by
  simp only [required]
  by_cases empty : configuration.get field = ""
  · rw [if_pos (by simp [empty])]
    exact iff_of_false (by rintro ⟨⟩) fun same => same.2 (same.1 ▸ empty)
  · rw [if_neg (by simp [empty]), Except.ok.injEq]
    exact ⟨fun same => ⟨same, same ▸ empty⟩, And.left⟩

theorem required_eq_error_iff {field : Field} (isNeeded : field ∈ needed) :
    configuration.required field = .error error ↔ configuration.Refused field error := by
  constructor
  · intro failed
    simp only [required] at failed
    split at failed
    · rename_i empty
      cases failed
      exact .missing isNeeded (by simpa using empty)
    · cases failed
  · intro refused
    cases refused with
    | missing _ empty => simp [required, empty]
    | invalid rejected => cases rejected <;> exact absurd isNeeded (by decide)

theorem parameter_eq_error_iff {α : Type} {field : Field} (spare : field ∉ needed)
    {read : String → Except ParameterError α}
    (rejects : ∀ text cause, read text = .error cause ↔ Rejects field text cause) :
    configuration.parameter field read = .error error ↔ configuration.Refused field error := by
  unfold parameter
  constructor
  · intro failed
    cases answer : read (configuration.get field) with
    | ok value =>
        rw [answer] at failed
        cases failed
    | error cause =>
        rw [answer] at failed
        cases failed
        exact .invalid ((rejects _ _).mp answer)
  · intro refused
    cases refused with
    | missing isNeeded _ => exact absurd isNeeded spare
    | invalid rejected => rw [(rejects _ _).mpr rejected, Except.mapError]

theorem readLeaderElection_eq_error_iff (text : String) (cause : ParameterError) :
    readLeaderElection text = .error cause ↔ Rejects .leaderElection text cause := by
  constructor
  · intro failed
    by_cases given : text = ""
    · subst given
      cases failed
    · exact .flag given (readLeaderElection_of_ne given ▸ failed)
  · intro rejected
    cases rejected with
    | flag given unreadable => rwa [readLeaderElection_of_ne given]

/-! ## All fields -/

/-- A validation that looks at a field and goes on if it passes stops at the first field of all. -/
theorem firstRefused_bind {α β : Type} {field : Field} {later : List Field}
    {look : Except ConfigurationError α} {next : α → Except ConfigurationError β}
    (refuses : ∀ cause, look = .error cause ↔ configuration.Refused field cause)
    (onward : ∀ value, look = .ok value →
      (next value = .error error ↔ configuration.FirstRefused later error)) :
    look >>= next = .error error ↔ configuration.FirstRefused (field :: later) error := by
  cases looked : look with
  | error cause =>
      have refused := (refuses cause).mp looked
      constructor
      · intro same
        exact .here (Except.error.inj same ▸ refused)
      · intro first
        cases first with
        | here other =>
            cases looked.symm.trans ((refuses error).mpr other)
            rfl
        | later passes _ => exact absurd refused (passes cause)
  | ok value =>
      have passes : ∀ cause, ¬configuration.Refused field cause := fun cause refused => by
        cases looked.symm.trans ((refuses cause).mpr refused)
      refine (onward value looked).trans ⟨.later passes, fun first => ?_⟩
      cases first with
      | here refused => exact absurd refused (passes error)
      | later _ onward => exact onward

theorem settings_eq_error_iff :
    configuration.settings = .error error ↔ configuration.FirstRefused validated error := by
  refine firstRefused_bind (fun _ => required_eq_error_iff (by decide)) fun server _ => ?_
  refine firstRefused_bind (fun _ => required_eq_error_iff (by decide)) fun path _ => ?_
  refine firstRefused_bind (fun _ => required_eq_error_iff (by decide)) fun name _ => ?_
  refine firstRefused_bind (fun _ => parameter_eq_error_iff (by decide) fun _ _ =>
    ⟨.mode, fun | .mode unreadable => unreadable⟩) fun mode _ => ?_
  refine firstRefused_bind (fun _ => parameter_eq_error_iff (by decide) fun _ _ =>
    ⟨.user, fun | .user unreadable => unreadable⟩) fun user _ => ?_
  refine firstRefused_bind (fun _ => parameter_eq_error_iff (by decide) fun _ _ =>
    ⟨.group, fun | .group unreadable => unreadable⟩) fun group _ => ?_
  refine firstRefused_bind (fun _ => parameter_eq_error_iff (by decide)
    readLeaderElection_eq_error_iff) fun flag _ => ?_
  exact iff_of_false (by rintro ⟨⟩) (by rintro ⟨⟩)

/-- Settings have what the configuration says, and are made only if the required texts are there. -/
theorem takes_of_settings (given : configuration.settings = .ok settings) :
    configuration.Takes settings ∧ ∀ field ∈ needed, configuration.get field ≠ "" := by
  rcases bind_eq_ok_iff.mp given with ⟨_, server, given⟩
  rcases bind_eq_ok_iff.mp given with ⟨_, path, given⟩
  rcases bind_eq_ok_iff.mp given with ⟨_, name, given⟩
  rcases bind_eq_ok_iff.mp given with ⟨mode, validMode, given⟩
  rcases bind_eq_ok_iff.mp given with ⟨user, validUser, given⟩
  rcases bind_eq_ok_iff.mp given with ⟨group, validGroup, given⟩
  rcases bind_eq_ok_iff.mp given with ⟨flag, validFlag, given⟩
  cases given
  rcases required_eq_ok_iff.mp server with ⟨rfl, filledServer⟩
  rcases required_eq_ok_iff.mp path with ⟨rfl, filledPath⟩
  rcases required_eq_ok_iff.mp name with ⟨rfl, filledName⟩
  refine ⟨?_, by simp [needed, filledServer, filledPath, filledName]⟩
  exact
    { server := rfl
      exportPath := rfl
      provisionerName := rfl
      defaultMode := (Parameter.readMode_gives _ _).mp (read_of_parameter validMode)
      defaultUser := (Parameter.readId_gives _ _).mp (read_of_parameter validUser)
      defaultGroup := (Parameter.readId_gives _ _).mp (read_of_parameter validGroup)
      leaderElection := (readLeaderElection_gives _ _).mp (read_of_parameter validFlag)
      mountRoot := by
        by_cases empty : configuration.mountRoot = ""
        · exact .inl ⟨empty, if_pos (by simp [empty])⟩
        · exact .inr ⟨empty, if_neg (by simp [empty])⟩ }

theorem Takes.valid (takes : configuration.Takes settings)
    (filled : ∀ field ∈ needed, configuration.get field ≠ "") : configuration.Valid where
  server := filled .server (by decide)
  path := filled .path (by decide)
  provisionerName := filled .provisionerName (by decide)
  defaultMode := takes.defaultMode.imp And.left fun spelled => ⟨_, spelled.2⟩
  defaultUser := takes.defaultUser.imp And.left fun spelled => ⟨_, spelled.2⟩
  defaultGroup := takes.defaultGroup.imp And.left fun spelled => ⟨_, spelled.2⟩
  leaderElection := takes.leaderElection.imp And.left fun marked => ⟨_, marked.2⟩

/-- Settings come of exactly the valid configurations.  Of several fields that could be named the
error names the first, with what its own reader said of it. -/
theorem settings_exact (configuration : Configuration) :
    ((∃ settings, configuration.settings = .ok settings) ↔ configuration.Valid) ∧
      (∀ error, configuration.settings = .error error ↔
        configuration.FirstRefused validated error) ∧
      ∀ settings, configuration.settings = .ok settings →
        configuration.Takes settings ∧ settings.Bounded ∧ settings.mountRoot ≠ "" := by
  refine ⟨⟨?_, fun valid => ?_⟩, fun _ => settings_eq_error_iff, fun settings given => ?_⟩
  · rintro ⟨settings, given⟩
    have taken := takes_of_settings given
    exact taken.1.valid taken.2
  · cases answer : configuration.settings with
    | ok settings => exact ⟨settings, rfl⟩
    | error error =>
        rcases (settings_eq_error_iff.mp answer).refused with ⟨field, _, refused⟩
        exact absurd refused valid.not_refused
  · have takes := (takes_of_settings given).1
    exact ⟨takes, bounded_of_settings given, takes.mountRoot_ne_empty⟩

/-- A configuration that leaves the mount root, the group and leader election to their defaults. -/
def sampleConfiguration : Configuration where
  server := "10.0.0.5"
  path := "/export/k8s"
  mountRoot := ""
  provisionerName := "example.com/nfs"
  defaultMode := "0750"
  defaultUser := "+1000"

/-- The settings of the sample. -/
def sampleTaken : Settings where
  server := "10.0.0.5"
  exportPath := "/export/k8s"
  mountRoot := "/persistentvolumes"
  provisionerName := "example.com/nfs"
  defaultMode := 0o750
  defaultUser := 1000
  defaultGroup := 0
  leaderElection := true

theorem settings_exact_sample :
    sampleConfiguration.settings = .ok sampleTaken ∧ sampleConfiguration.Takes sampleTaken := by
  have given : sampleConfiguration.settings = .ok sampleTaken := by decide
  exact ⟨given, ((settings_exact sampleConfiguration).2.2 sampleTaken given).1⟩

end Configuration
end ExportVolumes
