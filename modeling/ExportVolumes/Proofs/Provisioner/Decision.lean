import ExportVolumes.Proofs.Provisioner.Staging

namespace ExportVolumes

/-!
What deletion decides.

A class says to remove a directory, to archive it or to keep it, or it says nothing that can be
read (`StorageClass.SaysRemove`, `SaysArchive`, `SaysNothing`).  `Course` lists how deletion goes
from what it sees of the directory and from the class that its volume is served with;
`Settings.Decides` reads off it when which call is made and which error is returned.
-/

/-! ## What a class says -/

namespace StorageClass

/-- `onDelete` decides nothing: it is neither of its two words, or is not there. -/
def LeavesOpen (sc : StorageClass) : Prop :=
  sc.onDelete? ≠ some "delete" ∧ sc.onDelete? ≠ some "retain"

/-- The class says that the directory is to be removed. -/
def SaysRemove (sc : StorageClass) : Prop :=
  sc.onDelete? = some "delete" ∨
    sc.LeavesOpen ∧ ∃ text ∈ Parameter.falseSpellings, sc.archiveOnDelete? = some text

/-- The class says that the directory is to be moved to its archive. -/
def SaysArchive (sc : StorageClass) : Prop :=
  sc.LeavesOpen ∧ (sc.archiveOnDelete? = none ∨
    ∃ text ∈ Parameter.trueSpellings, sc.archiveOnDelete? = some text)

/-- The class leaves the question to a flag that is no spelling of true or false. -/
def SaysNothing (sc : StorageClass) (text : String) : Prop :=
  sc.LeavesOpen ∧ sc.archiveOnDelete? = some text ∧ text ∉ Parameter.trueSpellings ∧
    text ∉ Parameter.falseSpellings

/-- A class says one of the four. -/
theorem says_cases (sc : StorageClass) :
    sc.SaysRemove ∨ sc.SaysArchive ∨ sc.onDelete? = some "retain" ∨ ∃ text, sc.SaysNothing text := by
  by_cases delete : sc.onDelete? = some "delete"
  · exact .inl (.inl delete)
  by_cases retain : sc.onDelete? = some "retain"
  · exact .inr (.inr (.inl retain))
  have leaves : sc.LeavesOpen := ⟨delete, retain⟩
  cases said : sc.archiveOnDelete? with
  | none => exact .inr (.inl ⟨leaves, .inl said⟩)
  | some text =>
      by_cases yes : text ∈ Parameter.trueSpellings
      · exact .inr (.inl ⟨leaves, .inr ⟨text, yes, said⟩⟩)
      by_cases no : text ∈ Parameter.falseSpellings
      · exact .inl (.inr ⟨leaves, text, no, said⟩)
      · exact .inr (.inr (.inr ⟨text, leaves, said, yes, no⟩))

end StorageClass

theorem Parameter.readFlag_of_true {text : String} (yes : text ∈ trueSpellings) :
    readFlag text = .ok true := by
  rw [readFlag, if_pos yes]

theorem Parameter.readFlag_of_false {text : String} (no : text ∈ falseSpellings) :
    readFlag text = .ok false := by
  have apart : ∀ text ∈ falseSpellings, text ∉ trueSpellings := by decide
  rw [readFlag, if_neg (apart text no), if_pos no]

/-! ## What its policy comes to -/

namespace DeletionPolicy

variable {sc : StorageClass}

/-- The action that the policy of a class resolves to. -/
def actionOf (sc : StorageClass) : Except ParameterError DeletionAction :=
  (ofClass sc).map action

theorem actionOf_of_flag {text : String} (leaves : sc.LeavesOpen)
    (said : sc.archiveOnDelete? = some text) :
    actionOf sc =
      (Parameter.readFlag text).map (fun flag => if flag then .archive else .remove) := by
  rw [actionOf, ofClass, if_neg leaves.1, if_neg leaves.2]
  simp only [said]
  cases read : Parameter.readFlag text with
  | error cause => rfl
  | ok flag => cases flag <;> rfl

theorem actionOf_of_saysRemove (wants : sc.SaysRemove) : actionOf sc = .ok .remove := by
  rcases wants with delete | ⟨leaves, text, no, said⟩
  · rw [actionOf, ofClass, if_pos delete]
    rfl
  · rw [actionOf_of_flag leaves said, Parameter.readFlag_of_false no]
    rfl

theorem actionOf_of_saysArchive (wants : sc.SaysArchive) : actionOf sc = .ok .archive := by
  rcases wants with ⟨leaves, unsaid | ⟨text, yes, said⟩⟩
  · rw [actionOf, ofClass, if_neg leaves.1, if_neg leaves.2]
    simp only [unsaid]
    rfl
  · rw [actionOf_of_flag leaves said, Parameter.readFlag_of_true yes]
    rfl

theorem actionOf_of_retain (retain : sc.onDelete? = some "retain") : actionOf sc = .ok .keep := by
  have kept : sc.onDelete? ≠ some "delete" := by
    rw [retain]
    decide
  rw [actionOf, ofClass, if_neg kept, if_pos retain]
  rfl

theorem actionOf_of_saysNothing {text : String} (nothing : sc.SaysNothing text) :
    actionOf sc = .error (.invalidFlag text) := by
  rcases nothing with ⟨leaves, said, notTrue, notFalse⟩
  rw [actionOf_of_flag leaves said, Parameter.readFlag, if_neg notTrue, if_neg notFalse]
  rfl

theorem actionOf_eq_remove_iff : actionOf sc = .ok .remove ↔ sc.SaysRemove := by
  refine ⟨fun decided => ?_, actionOf_of_saysRemove⟩
  rcases sc.says_cases with wants | wants | retain | ⟨text, nothing⟩
  · exact wants
  · cases decided.symm.trans (actionOf_of_saysArchive wants)
  · cases decided.symm.trans (actionOf_of_retain retain)
  · cases decided.symm.trans (actionOf_of_saysNothing nothing)

theorem actionOf_eq_archive_iff : actionOf sc = .ok .archive ↔ sc.SaysArchive := by
  refine ⟨fun decided => ?_, actionOf_of_saysArchive⟩
  rcases sc.says_cases with wants | wants | retain | ⟨text, nothing⟩
  · cases decided.symm.trans (actionOf_of_saysRemove wants)
  · exact wants
  · cases decided.symm.trans (actionOf_of_retain retain)
  · cases decided.symm.trans (actionOf_of_saysNothing nothing)

theorem actionOf_eq_error_iff {cause : ParameterError} :
    actionOf sc = .error cause ↔ ∃ text, sc.SaysNothing text ∧ cause = .invalidFlag text := by
  constructor
  · intro refused
    rcases sc.says_cases with wants | wants | retain | ⟨text, nothing⟩
    · cases refused.symm.trans (actionOf_of_saysRemove wants)
    · cases refused.symm.trans (actionOf_of_saysArchive wants)
    · cases refused.symm.trans (actionOf_of_retain retain)
    · cases refused.symm.trans (actionOf_of_saysNothing nothing)
      exact ⟨text, nothing, rfl⟩
  · rintro ⟨text, nothing, rfl⟩
    exact actionOf_of_saysNothing nothing

end DeletionPolicy

/-! ## The class of a volume -/

namespace Volume

variable {volume : Volume} {registry : Registry}

/-- The volume names a class that is served. -/
def ServedBy (volume : Volume) (registry : Registry) (sc : StorageClass) : Prop :=
  ∃ name, volume.storageClassName = some name ∧ name ≠ "" ∧ registry.get? name = some sc

/-- The volume names no class, or one that is not served. -/
inductive LacksClass (volume : Volume) (registry : Registry) : LookupError → Prop
  | nameless (silent : volume.storageClassName = none ∨ volume.storageClassName = some "") :
      LacksClass volume registry .missingClassName
  | unknown {name : String} (named : volume.storageClassName = some name) (inhabited : name ≠ "")
      (missing : registry.get? name = none) :
      LacksClass volume registry (.notFound name)

/-- Look the class of a volume up. -/
def lookup (volume : Volume) (registry : Registry) : Except LookupError StorageClass :=
  registry.find (volume.storageClassName.getD "")

theorem lookup_of_servedBy {sc : StorageClass} (served : volume.ServedBy registry sc) :
    volume.lookup registry = .ok sc := by
  rcases served with ⟨name, named, inhabited, held⟩
  simp [lookup, Registry.find, named, inhabited, held]

theorem lookup_of_lacksClass {cause : LookupError} (lacks : volume.LacksClass registry cause) :
    volume.lookup registry = .error cause := by
  cases lacks with
  | nameless silent => rcases silent with silent | silent <;> simp [lookup, Registry.find, silent]
  | unknown named inhabited missing => simp [lookup, Registry.find, named, inhabited, missing]

theorem lookup_cases (volume : Volume) (registry : Registry) :
    (∃ sc, volume.ServedBy registry sc) ∨ ∃ cause, volume.LacksClass registry cause := by
  cases named : volume.storageClassName with
  | none => exact .inr ⟨_, .nameless (.inl named)⟩
  | some name =>
      by_cases empty : name = ""
      · subst empty
        exact .inr ⟨_, .nameless (.inr named)⟩
      · cases held : registry.get? name with
        | none => exact .inr ⟨_, .unknown named empty held⟩
        | some sc => exact .inl ⟨sc, name, named, empty, held⟩

theorem lookup_eq_ok_iff {sc : StorageClass} :
    volume.lookup registry = .ok sc ↔ volume.ServedBy registry sc := by
  refine ⟨fun found => ?_, lookup_of_servedBy⟩
  rcases volume.lookup_cases registry with ⟨other, served⟩ | ⟨cause, lacks⟩
  · cases found.symm.trans (lookup_of_servedBy served)
    exact served
  · cases found.symm.trans (lookup_of_lacksClass lacks)

theorem lookup_eq_error_iff {cause : LookupError} :
    volume.lookup registry = .error cause ↔ volume.LacksClass registry cause := by
  refine ⟨fun missing => ?_, lookup_of_lacksClass⟩
  rcases volume.lookup_cases registry with ⟨other, served⟩ | ⟨other, lacks⟩
  · cases missing.symm.trans (lookup_of_servedBy served)
  · cases missing.symm.trans (lookup_of_lacksClass lacks)
    exact lacks

end Volume

theorem Settings.run_classOf_serving {σ : Type} (volume : Volume) (registry : Registry)
    (host : Host σ) (state : σ) :
    (classOf volume).run (host.serving registry) state = (volume.lookup registry, state) := by
  unfold classOf Volume.lookup
  cases volume.storageClassName with
  | none => rfl
  | some name =>
      by_cases empty : name.isEmpty = true
      · simp [Registry.find, empty]
      · simp only [if_neg empty]
        rfl

/-! ## The course of a deletion -/

/-- How deletion can go: what it sees of the directory, what comes of it, and its calls with their
answers. -/
inductive Course (settings : Settings) (registry : Registry) (volume : Volume)
    (directory : String) :
    Except Fault Bool → Except ProvisionerError Unit → List (Call × Except Fault Bool) → Prop
  | unseen {fault : Fault} :
      Course settings registry volume directory (.error fault)
        (.error (.filesystem ((Call.pathExists directory).error fault)))
        [(.pathExists directory, .error fault)]
  | gone :
      Course settings registry volume directory (.ok false) (.ok ())
        [(.pathExists directory, .ok false)]
  | unserved {cause : LookupError} (missing : volume.lookup registry = .error cause) :
      Course settings registry volume directory (.ok true) (.error (.classLookup cause))
        [(.pathExists directory, .ok true)]
  | undecided {sc : StorageClass} {cause : ParameterError} (found : volume.lookup registry = .ok sc)
      (refused : DeletionPolicy.actionOf sc = .error cause) :
      Course settings registry volume directory (.ok true) (.error (.invalidParameter cause))
        [(.pathExists directory, .ok true)]
  | released {sc : StorageClass} {action : DeletionAction} {result : Except ProvisionerError Unit}
      {made : List (Call × Except Fault Bool)} (found : volume.lookup registry = .ok sc)
      (decided : DeletionPolicy.actionOf sc = .ok action)
      (staged : Staged () (settings.disposal? volume directory action).toList result made) :
      Course settings registry volume directory (.ok true) result
        ((.pathExists directory, .ok true) :: made)

namespace Settings

variable {σ : Type}

theorem release_staged (settings : Settings) (volume : Volume) (directory : String)
    (action : DeletionAction) (host : Host σ) (state : σ) :
    Staged () (settings.disposal? volume directory action).toList
      ((settings.release volume directory action).run host state).1
      (answered ((settings.release volume directory action).trace host state)) := by
  cases action with
  | keep => exact .finished
  | remove => exact Staged.of_call (fun _ => rfl) fun _ removed => .finished
  | archive => exact Staged.of_call (fun _ => rfl) fun _ renamed => .finished

theorem answered_classOf (volume : Volume) (host : Host σ) (state : σ) :
    answered ((classOf volume).trace host state) = [] := by
  rcases classOf_cases volume with nameless | ⟨name, _, look⟩
  · rw [nameless]
    rfl
  · rw [look]
    rfl

theorem delete_course (settings : Settings) (registry : Registry) (volume : Volume)
    (host : Host σ) (state : σ) :
    Course settings registry volume (settings.layout.localPathFor volume.nfs.path)
      (host (.call (.pathExists (settings.layout.localPathFor volume.nfs.path))) state).1
      ((settings.delete volume).run (host.serving registry) state).1
      (answered ((settings.delete volume).trace (host.serving registry) state)) := by
  have serves : host.serving registry (.call (.pathExists (settings.layout.localPathFor
      volume.nfs.path))) state =
    host (.call (.pathExists (settings.layout.localPathFor volume.nfs.path))) state := rfl
  simp only [delete, Program.bind_eq_bind, Program.run_bind, Program.trace_bind, Program.run_call,
    Program.trace_call, serves]
  cases (host (.call (.pathExists (settings.layout.localPathFor volume.nfs.path))) state).1 with
  | error fault => exact .unseen
  | ok present =>
      generalize (host (.call (.pathExists (settings.layout.localPathFor volume.nfs.path))) state).2 =
        next
      cases present with
      | false => exact .gone
      | true =>
          simp only [Program.mapError_ok, Program.run_bind, Program.trace_bind, answered_append,
            run_classOf_serving, answered_classOf, List.nil_append]
          cases found : volume.lookup registry with
          | error cause => exact .unserved found
          | ok sc =>
              cases decided : DeletionPolicy.ofClass sc with
              | error cause =>
                  have refused : DeletionPolicy.actionOf sc = .error cause := by
                    rw [DeletionPolicy.actionOf, decided]
                    rfl
                  simp only [decided]
                  exact .undecided found refused
              | ok policy =>
                  have action : DeletionPolicy.actionOf sc = .ok policy.action := by
                    rw [DeletionPolicy.actionOf, decided]
                    rfl
                  simp only [decided]
                  exact .released found action (release_staged settings volume _ _ _ _)

/-- A directory that is not there is skipped, and no class is looked up for it. -/
theorem trace_delete_gone {settings : Settings} {volume : Volume} (host : Host σ) {state : σ}
    (absent : (host (.call (.pathExists (settings.layout.localPathFor volume.nfs.path))) state).1 =
      .ok false) :
    (settings.delete volume).trace host state =
      [⟨.call (.pathExists (settings.layout.localPathFor volume.nfs.path)), .ok false⟩,
        ⟨.notify (.deletionSkipped (settings.layout.localPathFor volume.nfs.path)), ()⟩,
        ⟨.publish (.deletionSkipped volume.name (settings.layout.localPathFor volume.nfs.path)), ()⟩] := by
  simp only [delete, Program.bind_eq_bind, Program.trace_bind, Program.run_call, Program.trace_call,
    absent]
  rfl

end Settings

/-- A plan of one call at most is carried out whole, with success or not. -/
theorem Staged.map_fst {α : Type} {value : α} {planned : Option Call}
    {result : Except ProvisionerError α} {made : List (Call × Except Fault Bool)}
    (staged : Staged value planned.toList result made) : made.map Prod.fst = planned.toList := by
  cases planned with
  | none =>
      cases staged
      rfl
  | some call =>
      cases staged with
      | failed => rfl
      | passed onward =>
          cases onward
          rfl

namespace Course

variable {settings : Settings} {registry : Registry} {volume : Volume} {directory : String}
  {seen : Except Fault Bool} {result : Except ProvisionerError Unit}
  {calls : List (Call × Except Fault Bool)}

theorem removes_iff (course : Course settings registry volume directory seen result calls) :
    .removeTree directory ∈ calls.map Prod.fst ↔
      seen = .ok true ∧ ∃ sc, volume.ServedBy registry sc ∧ sc.SaysRemove := by
  simp only [← Volume.lookup_eq_ok_iff, ← DeletionPolicy.actionOf_eq_remove_iff]
  cases course with
  | unseen => simp
  | gone => simp
  | unserved missing => simp [missing]
  | undecided found refused => simp [found, refused]
  | @released sc action result made found decided staged =>
      rw [List.map_cons, staged.map_fst]
      cases action <;> simp [found, decided, Settings.disposal?]

theorem archives_iff (course : Course settings registry volume directory seen result calls) :
    .rename directory (settings.layout.archivePathFor volume.nfs.path) ∈ calls.map Prod.fst ↔
      seen = .ok true ∧ ∃ sc, volume.ServedBy registry sc ∧ sc.SaysArchive := by
  simp only [← Volume.lookup_eq_ok_iff, ← DeletionPolicy.actionOf_eq_archive_iff]
  cases course with
  | unseen => simp
  | gone => simp
  | unserved missing => simp [missing]
  | undecided found refused => simp [found, refused]
  | @released sc action result made found decided staged =>
      rw [List.map_cons, staged.map_fst]
      cases action <;> simp [found, decided, Settings.disposal?]

/-- Of calls that change anything there is one at most, and it is one of the two. -/
theorem mutating (course : Course settings registry volume directory seen result calls) :
    (calls.map Prod.fst).filter Call.isMutating = [] ∨
      (calls.map Prod.fst).filter Call.isMutating = [.removeTree directory] ∨
      (calls.map Prod.fst).filter Call.isMutating =
        [.rename directory (settings.layout.archivePathFor volume.nfs.path)] := by
  cases course with
  | @released sc action result made found decided staged =>
      rw [List.map_cons, staged.map_fst]
      cases action with
      | remove => exact .inr (.inl rfl)
      | keep => exact .inl rfl
      | archive => exact .inr (.inr rfl)
  | _ => exact .inl rfl

theorem ok_of_gone (course : Course settings registry volume directory seen result calls)
    (absent : seen = .ok false) : result = .ok () := by
  cases course with
  | gone => rfl
  | _ => cases absent

/-- A release fails only with its call. -/
theorem released_error {action : DeletionAction} {cause : ProvisionerError}
    {made : List (Call × Except Fault Bool)}
    (staged : Staged () (settings.disposal? volume directory action).toList (.error cause) made) :
    ∃ fault, cause = .filesystem fault := by
  rcases staged.error_eq rfl with ⟨call, fault, _, same⟩
  exact ⟨_, same⟩

theorem classLookup_iff (course : Course settings registry volume directory seen result calls)
    {cause : LookupError} :
    result = .error (.classLookup cause) ↔ seen = .ok true ∧ volume.LacksClass registry cause := by
  rw [← Volume.lookup_eq_error_iff]
  cases course with
  | unseen => simp
  | gone => simp
  | unserved missing => simp [missing]
  | undecided found refused => simp [found]
  | released found decided staged =>
      simp only [found, reduceCtorEq, and_false, iff_false]
      rintro rfl
      rcases released_error staged with ⟨_, ⟨⟩⟩

theorem invalidParameter_iff (course : Course settings registry volume directory seen result calls)
    {cause : ParameterError} :
    result = .error (.invalidParameter cause) ↔ seen = .ok true ∧
      ∃ sc text, volume.ServedBy registry sc ∧ sc.SaysNothing text ∧ cause = .invalidFlag text := by
  simp only [exists_and_left, ← Volume.lookup_eq_ok_iff, ← DeletionPolicy.actionOf_eq_error_iff]
  cases course with
  | unseen => simp
  | gone => simp
  | unserved missing => simp [missing]
  | undecided found refused => simp [found, refused]
  | released found decided staged =>
      simp only [found, Except.ok.injEq, exists_eq_left', decided, reduceCtorEq, and_false,
        iff_false]
      rintro rfl
      rcases released_error staged with ⟨_, ⟨⟩⟩

end Course

namespace Settings

/-- What deletion decides, by what it sees of the directory of its volume: what comes of it, and
its steps. -/
structure Decides (settings : Settings) (registry : Registry) (volume : Volume) (directory : String)
    (seen : Except Fault Bool) (result : Except ProvisionerError Unit) (steps : List Step) :
    Prop where
  /-- The directory is removed if it is there and a class is served that says so, and not else. -/
  removes : .removeTree directory ∈ (answered steps).map Prod.fst ↔
    seen = .ok true ∧ ∃ sc, volume.ServedBy registry sc ∧ sc.SaysRemove
  /-- It is moved to its archive if it is there and a class is served that says so, and not
  else. -/
  archives : .rename directory (settings.layout.archivePathFor volume.nfs.path) ∈
      (answered steps).map Prod.fst ↔
    seen = .ok true ∧ ∃ sc, volume.ServedBy registry sc ∧ sc.SaysArchive
  /-- No other call is made that can change anything, and no two. -/
  mutating : ((answered steps).map Prod.fst).filter Call.isMutating = [] ∨
    ((answered steps).map Prod.fst).filter Call.isMutating = [.removeTree directory] ∨
    ((answered steps).map Prod.fst).filter Call.isMutating =
      [.rename directory (settings.layout.archivePathFor volume.nfs.path)]
  /-- A directory that is not there is given up, with no class looked up. -/
  gone : seen = .ok false → result = .ok () ∧ ∀ step ∈ steps, step.isLookup = false
  /-- Class lookup is what fails exactly if the directory is there and no class of the volume is
  served. -/
  classLookup : ∀ cause, result = .error (.classLookup cause) ↔
    seen = .ok true ∧ volume.LacksClass registry cause
  /-- A parameter is refused exactly if the directory is there and the class that is served leaves
  the question to a flag that cannot be read. -/
  invalidParameter : ∀ cause, result = .error (.invalidParameter cause) ↔ seen = .ok true ∧
    ∃ sc text, volume.ServedBy registry sc ∧ sc.SaysNothing text ∧ cause = .invalidFlag text

/-- Whatever a filesystem answers and whatever classes are served, deletion removes or archives the
directory of a volume only when the class of the volume says so. -/
theorem delete_decides {σ : Type} (settings : Settings) (registry : Registry) (volume : Volume)
    (host : Host σ) (state : σ) :
    settings.Decides registry volume (settings.layout.localPathFor volume.nfs.path)
      (host (.call (.pathExists (settings.layout.localPathFor volume.nfs.path))) state).1
      ((settings.delete volume).run (host.serving registry) state).1
      ((settings.delete volume).trace (host.serving registry) state) := by
  have course := delete_course settings registry volume host state
  constructor
  case removes => exact course.removes_iff
  case archives => exact course.archives_iff
  case mutating => exact course.mutating
  case gone =>
    intro absent
    refine ⟨course.ok_of_gone absent, ?_⟩
    rw [trace_delete_gone (host.serving registry) absent]
    intro step member
    simp only [List.mem_cons, List.not_mem_nil, or_false] at member
    rcases member with rfl | rfl | rfl <;> rfl
  case classLookup => exact fun _ => course.classLookup_iff
  case invalidParameter => exact fun _ => course.invalidParameter_iff

end Settings
end ExportVolumes
