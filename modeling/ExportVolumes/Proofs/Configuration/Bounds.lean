import ExportVolumes.Configuration
import ExportVolumes.Proofs.Program.Trace

namespace ExportVolumes

/-!
The bounds of modes and owner ids.

A text that is read as a mode or as an id is the numeral of that number, and the number is within
its bound (`Parameter.readMode_eq_ok_iff` and `Parameter.readId_eq_ok_iff`).  The defaults of all
validated settings are within the same bounds (`Configuration.bounded_of_settings`).
-/

namespace Parameter

/-- A text is the numeral, in a radix, of a number up to a bound. -/
structure Denotes (radix : Nat) (bound : UInt32) (text : String) (number : UInt32) : Prop where
  numeral : Numeral.read radix text = .ok (number.toNat : Int)
  bounded : number ≤ bound

/-- Within a bound, a number keeps its value when it is narrowed to 32 bits. -/
theorem narrowed_eq_ok_iff {ε : Type} {number : Int} {bound word : UInt32} {cause : ε} :
    (if 0 ≤ number ∧ number ≤ bound.toNat then .ok number.toNat.toUInt32
      else .error cause : Except ε UInt32) = .ok word ↔ number = word.toNat ∧ word ≤ bound := by
  by_cases within : 0 ≤ number ∧ number ≤ bound.toNat
  · have fits : number.toNat < UInt32.size := by
      have widest := bound.toNat_lt
      change number.toNat < 4294967296
      omega
    have kept : number.toNat.toUInt32.toNat = number.toNat := UInt32.toNat_ofNat_of_lt' fits
    rw [if_pos within, Except.ok.injEq]
    constructor
    · rintro rfl
      rw [UInt32.le_iff_toNat_le, kept]
      omega
    · rintro ⟨same, _⟩
      rw [← UInt32.toNat_inj, kept]
      omega
  · rw [if_neg within]
    refine iff_of_false (by simp) ?_
    rintro ⟨rfl, bounded⟩
    rw [UInt32.le_iff_toNat_le] at bounded
    omega

theorem isEmpty_false {text : String} (inhabited : text ≠ "") : text.isEmpty = false := by
  simpa using inhabited

/-- What a reader of numerals with a bound accepts is what a text denotes. -/
theorem ranged_eq_ok_iff {ε : Type} {radix : Nat} {bound word : UInt32} {text : String}
    {invalid : Numeral.Fault → ε} {outOfRange : ε} :
    (match Numeral.read radix text with
      | .error fault => .error (invalid fault)
      | .ok number =>
          if 0 ≤ number ∧ number ≤ bound.toNat then .ok number.toNat.toUInt32
          else .error outOfRange : Except ε UInt32) = .ok word ↔ Denotes radix bound text word := by
  cases read : Numeral.read radix text with
  | error fault =>
      refine iff_of_false (by simp) fun denotes => ?_
      cases read.symm.trans denotes.numeral
  | ok number =>
      refine narrowed_eq_ok_iff.trans ⟨fun both => ⟨read.trans (congrArg _ both.1), both.2⟩, ?_⟩
      exact fun denotes => ⟨Except.ok.inj (read.symm.trans denotes.numeral), denotes.bounded⟩

/-- A text that is not empty is read as the mode that it denotes, if it denotes one. -/
theorem readMode_eq_ok_iff {text : String} {mode : UInt32} (inhabited : text ≠ "") :
    readMode text = .ok mode ↔ Denotes 8 largestMode text mode := by
  rw [readMode, isEmpty_false inhabited, if_neg Bool.false_ne_true]
  exact ranged_eq_ok_iff

/-- A text that is not empty is read as the id that it denotes, if it denotes one. -/
theorem readId_eq_ok_iff {text : String} {id : UInt32} (inhabited : text ≠ "") :
    readId text = .ok id ↔ Denotes 10 largestId text id := by
  rw [readId, isEmpty_false inhabited, if_neg Bool.false_ne_true]
  exact ranged_eq_ok_iff

theorem readMode_le {text : String} {mode : UInt32} (read : readMode text = .ok mode) :
    mode ≤ largestMode := by
  by_cases empty : text = ""
  · rw [empty] at read
    cases read
    exact UInt32.le_refl _
  · exact ((readMode_eq_ok_iff empty).mp read).bounded

theorem readId_le {text : String} {id : UInt32} (read : readId text = .ok id) :
    id ≤ largestId := by
  by_cases empty : text = ""
  · rw [empty] at read
    cases read
    decide
  · exact ((readId_eq_ok_iff empty).mp read).bounded

end Parameter

/-- The defaults of settings are within their bounds. -/
structure Settings.Bounded (settings : Settings) : Prop where
  mode : settings.defaultMode ≤ Parameter.largestMode
  user : settings.defaultUser ≤ Parameter.largestId
  group : settings.defaultGroup ≤ Parameter.largestId

namespace Configuration

theorem read_of_parameter {α : Type} {configuration : Configuration} {field : Field}
    {read : String → Except ParameterError α} {value : α}
    (valid : configuration.parameter field read = .ok value) :
    read (configuration.get field) = .ok value := by
  unfold parameter at valid
  cases said : read (configuration.get field) with
  | error cause =>
      rw [said] at valid
      cases valid
  | ok other =>
      rw [said] at valid
      exact congrArg Except.ok (Except.ok.inj valid)

theorem bounded_of_settings {configuration : Configuration} {settings : Settings}
    (valid : configuration.settings = .ok settings) : settings.Bounded := by
  rcases bind_eq_ok_iff.mp valid with ⟨_, _, valid⟩
  rcases bind_eq_ok_iff.mp valid with ⟨_, _, valid⟩
  rcases bind_eq_ok_iff.mp valid with ⟨_, _, valid⟩
  rcases bind_eq_ok_iff.mp valid with ⟨mode, validMode, valid⟩
  rcases bind_eq_ok_iff.mp valid with ⟨user, validUser, valid⟩
  rcases bind_eq_ok_iff.mp valid with ⟨group, validGroup, valid⟩
  rcases bind_eq_ok_iff.mp valid with ⟨_, _, valid⟩
  cases valid
  exact ⟨Parameter.readMode_le (read_of_parameter validMode),
    Parameter.readId_le (read_of_parameter validUser),
    Parameter.readId_le (read_of_parameter validGroup)⟩

end Configuration
end ExportVolumes
