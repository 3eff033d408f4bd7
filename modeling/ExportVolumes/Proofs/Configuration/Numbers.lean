import ExportVolumes.Proofs.Configuration.Bounds
import ExportVolumes.Proofs.Text.Numeral

namespace ExportVolumes

/-!
The numbers that parameters are written as.

Modes are octal and owner ids decimal, both up to a bound of their own.  `Parameter.Verdict` tells
from the cut of a text what a reader of such numbers answers, and
`Parameter.readsNumbers_readMode_readId` says that the two readers answer so on all texts;
`Parameter.Spells` is what the readers accept, stated without them.
-/

namespace Parameter

open Numeral (Cut InRange)

/-- The answer to a text that is cut in this way: a number that leaves the range is told first,
whatever stands behind its digits, then anything that is no digit, and at last the bound. -/
structure Verdict {radix : Nat} {text : String} (cut : Cut radix text) (bound : UInt32)
    (invalid : Numeral.Fault → ParameterError) (outOfRange : ParameterError)
    (answer : Except ParameterError UInt32) : Prop where
  tooLarge : 2 ^ 63 - 1 < cut.value → answer = .error (invalid .tooLarge)
  tooSmall : cut.value < -2 ^ 63 → answer = .error (invalid .tooSmall)
  invalidDigit : InRange cut.value → ¬cut.IsNumeral → answer = .error (invalid .invalidDigit)
  outOfRange : InRange cut.value → cut.IsNumeral → ¬(0 ≤ cut.value ∧ cut.value ≤ bound.toNat) →
    answer = .error outOfRange
  /-- A number up to the bound keeps its value in 32 bits. -/
  number : cut.IsNumeral → 0 ≤ cut.value → cut.value ≤ bound.toNat →
    ∃ number : UInt32, answer = .ok number ∧ (number.toNat : Int) = cut.value

/-- A reader of numbers up to a bound. -/
structure ReadsNumbers (radix : Nat) (bound : UInt32)
    (invalid : String → Numeral.Fault → ParameterError) (outOfRange : String → ParameterError)
    (read : String → Except ParameterError UInt32) : Prop where
  /-- Every text has a cut that decides on it. -/
  verdict (text : String) : Nonempty (Cut radix text) ∧
    ∀ cut : Cut radix text, text ≠ "" →
      Verdict cut bound (invalid text) (outOfRange text) (read text)
  leadingZeros (count : Nat) {digits : List Nat} (below : ∀ digit ∈ digits, digit < radix)
    (given : digits ≠ []) (bounded : Nat.ofDigits radix digits.reverse ≤ bound.toNat) :
    ∃ number : UInt32, number.toNat = Nat.ofDigits radix digits.reverse ∧
      read (String.ofList (List.replicate count '0' ++ digits.map Nat.digitChar)) = .ok number
  negativeZero (count : Nat) :
    read (String.ofList ('-' :: List.replicate (count + 1) '0')) = .ok 0

/-- Read a number up to a bound. -/
def ranged (radix : Nat) (bound : UInt32) (invalid : Numeral.Fault → ParameterError)
    (outOfRange : ParameterError) (text : String) : Except ParameterError UInt32 :=
  match Numeral.read radix text with
  | .error fault => .error (invalid fault)
  | .ok number =>
      if 0 ≤ number ∧ number ≤ bound.toNat then .ok number.toNat.toUInt32 else .error outOfRange

theorem readMode_eq_ranged {text : String} (inhabited : text ≠ "") :
    readMode text = ranged 8 largestMode (.invalidMode text) (.modeOutOfRange text) text :=
  if_neg (by simp [inhabited])

theorem readId_eq_ranged {text : String} (inhabited : text ≠ "") :
    readId text = ranged 10 largestId (.invalidId text) (.idOutOfRange text) text :=
  if_neg (by simp [inhabited])

section Ranged

variable {radix : Nat} (decimal : radix ≤ 10) (some_digit : 0 < radix) {bound : UInt32}

include decimal some_digit

theorem verdict_ranged {text : String} (cut : Cut radix text)
    (invalid : Numeral.Fault → ParameterError) (outOfRange : ParameterError) :
    Verdict cut bound invalid outOfRange (ranged radix bound invalid outOfRange text) := by
  have read := Numeral.read_eq decimal some_digit cut
  have narrow : bound.toNat < 2 ^ 32 := bound.toNat_lt
  rw [ranged, read]
  by_cases leaves : cut.sign.limit < cut.magnitude
  · -- No other case of the verdict holds of a number out of range.
    rw [if_pos leaves]
    rcases cut.beyond_of_limit_lt leaves with ⟨sign, above⟩ | ⟨sign, below⟩
    · rw [sign]
      exact
        { tooLarge := fun _ => rfl
          tooSmall := fun below => by omega
          invalidDigit := fun inRange => absurd inRange.2 (by omega)
          outOfRange := fun inRange => absurd inRange.2 (by omega)
          number := fun _ _ bounded => by omega }
    · rw [sign]
      exact
        { tooLarge := fun above => by omega
          tooSmall := fun _ => rfl
          invalidDigit := fun inRange => absurd inRange.1 (by omega)
          outOfRange := fun inRange => absurd inRange.1 (by omega)
          number := fun _ positive => by omega }
  · have stays : InRange cut.value := cut.inRange_of_le_limit (Nat.not_lt.mp leaves)
    have lower := stays.1
    have upper := stays.2
    rw [if_neg leaves]
    by_cases numeral : cut.IsNumeral
    · rw [if_pos numeral]
      exact
        { tooLarge := fun above => by omega
          tooSmall := fun below => by omega
          invalidDigit := fun _ other => absurd numeral other
          outOfRange := fun _ _ beyond => if_neg beyond
          number := fun _ positive bounded => by
            have word : (cut.value.toNat.toUInt32).toNat = cut.value.toNat :=
              UInt32.toNat_ofNat_of_lt' (by change _ < 2 ^ 32; omega)
            exact ⟨_, if_pos ⟨positive, bounded⟩, by rw [word, Int.toNat_of_nonneg positive]⟩ }
    · rw [if_neg numeral]
      exact
        { tooLarge := fun above => by omega
          tooSmall := fun below => by omega
          invalidDigit := fun _ _ => rfl
          outOfRange := fun _ other => absurd other numeral
          number := fun other => absurd other numeral }

/-- Digits that are written out are read as their number. -/
theorem ranged_written (mark : Option Numeral.Sign) {digits : List Nat}
    (below : ∀ digit ∈ digits, digit < radix) (given : digits ≠ []) {number : UInt32}
    (value : (Cut.written mark decimal below).value = number.toNat) (bounded : number ≤ bound)
    (invalid : Numeral.Fault → ParameterError) (outOfRange : ParameterError) :
    ranged radix bound invalid outOfRange
      (String.ofList (mark.toList.map Numeral.Sign.mark ++ digits.map Nat.digitChar)) =
        .ok number := by
  have verdict : Verdict _ bound _ _ _ :=
    verdict_ranged decimal some_digit (Cut.written mark decimal below) invalid outOfRange
  rcases verdict.number ⟨given, rfl⟩ (by omega)
    (by rw [value]; exact_mod_cast UInt32.le_iff_toNat_le.mp bounded) with ⟨read, answer, same⟩
  rw [answer, Except.ok.injEq, ← UInt32.toNat_inj]
  exact_mod_cast same.trans value

theorem readsNumbers_of_ranged {invalid : String → Numeral.Fault → ParameterError}
    {outOfRange : String → ParameterError} {read : String → Except ParameterError UInt32}
    (same : ∀ text, text ≠ "" →
      read text = ranged radix bound (invalid text) (outOfRange text) text) :
    ReadsNumbers radix bound invalid outOfRange read where
  verdict text := ⟨Numeral.nonempty_cut radix text, fun cut inhabited =>
    same text inhabited ▸ verdict_ranged decimal some_digit cut _ _⟩
  leadingZeros count digits below given bounded := by
    have padded : ∀ digit ∈ List.replicate count 0 ++ digits, digit < radix := by
      intro digit member
      rcases List.mem_append.mp member with zero | later
      · rwa [List.eq_of_mem_replicate zero]
      · exact below digit later
    have number : (Nat.ofDigits radix digits.reverse).toUInt32.toNat =
        Nat.ofDigits radix digits.reverse :=
      UInt32.toNat_ofNat_of_lt' (bounded.trans_lt bound.toNat_lt)
    have value : (Cut.written none decimal padded).value =
        (Nat.ofDigits radix digits.reverse).toUInt32.toNat := by
      rw [number]
      simp [Cut.value, Cut.sign, Cut.magnitude, Cut.written, Numeral.Sign.signed,
        Nat.ofDigits_append_replicate_zero]
    have answer := ranged_written decimal some_digit none padded (by simp [given]) value
      (UInt32.le_iff_toNat_le.mpr (number.trans_le bounded))
    have text : (none : Option Numeral.Sign).toList.map Numeral.Sign.mark ++
        (List.replicate count 0 ++ digits).map Nat.digitChar =
          List.replicate count '0' ++ digits.map Nat.digitChar := by
      rw [List.map_append, List.map_replicate]
      rfl
    rw [text] at answer
    exact ⟨_, number, (same _ (by simp [given])).trans (answer _ _)⟩
  negativeZero count := by
    have below : ∀ digit ∈ List.replicate (count + 1) 0, digit < radix := by
      intro digit member
      rwa [List.eq_of_mem_replicate member]
    have value : (Cut.written (some .negative) decimal below).value = (0 : UInt32).toNat := by
      simp [Cut.value, Cut.sign, Cut.magnitude, Cut.written, Nat.ofDigits_replicate_zero]
    have answer := ranged_written decimal some_digit (some .negative) below (by simp) value
      (UInt32.zero_le (a := bound))
    rw [List.map_replicate] at answer
    exact (same _ (by simp)).trans (answer _ _)

end Ranged

/-- Modes are read as octal numbers and owner ids as decimal ones: what a text is answered with is
decided by its sign, its digits and what stands behind them. -/
theorem readsNumbers_readMode_readId :
    ReadsNumbers 8 largestMode .invalidMode .modeOutOfRange readMode ∧
      ReadsNumbers 10 largestId .invalidId .idOutOfRange readId :=
  ⟨readsNumbers_of_ranged (by decide) (by decide) fun _ => readMode_eq_ranged,
    readsNumbers_of_ranged (by decide) (by decide) fun _ => readId_eq_ranged⟩

/-- A number one below the range, and a letter behind it. -/
def sampleCut : Cut 10 "-9223372036854775809x" where
  mark := some .negative
  digits := [9, 2, 2, 3, 3, 7, 2, 0, 3, 6, 8, 5, 4, 7, 7, 5, 8, 0, 9]
  rest := ['x']
  whole := by decide
  unmarked := by simp
  below := by decide
  longest := by decide

/-- The range is left before the letter is looked at. -/
theorem readsNumbers_below_range :
    readId "-9223372036854775809x" =
      .error (.invalidId "-9223372036854775809x" .tooSmall) :=
  ((readsNumbers_readMode_readId.2.verdict _).2 sampleCut (by decide)).tooSmall (by decide)

/-! ## What is accepted -/

/-- A text is the numeral of a number up to a bound. -/
def Spells (radix : Nat) (bound : UInt32) (text : String) (number : UInt32) : Prop :=
  number ≤ bound ∧ ∃ cut : Cut radix text, cut.IsNumeral ∧ cut.value = number.toNat

theorem denotes_iff_spells {radix : Nat} (decimal : radix ≤ 10) (some_digit : 0 < radix)
    {bound number : UInt32} {text : String} :
    Denotes radix bound text number ↔ Spells radix bound text number := by
  constructor
  · rintro ⟨numeral, bounded⟩
    rcases Numeral.nonempty_cut radix text with ⟨cut⟩
    rw [Numeral.read_eq decimal some_digit cut] at numeral
    split at numeral
    · cases numeral
    · split at numeral
      · rename_i isNumeral
        exact ⟨bounded, cut, isNumeral, Except.ok.inj numeral⟩
      · cases numeral
  · rintro ⟨bounded, cut, isNumeral, value⟩
    have narrow : number.toNat < 2 ^ 32 := number.toNat_lt
    have stays : ¬cut.sign.limit < cut.magnitude := by
      intro leaves
      rcases cut.beyond_of_limit_lt leaves with ⟨_, above⟩ | ⟨_, below⟩ <;> omega
    refine ⟨?_, bounded⟩
    rw [Numeral.read_eq decimal some_digit cut, if_neg stays, if_pos isNumeral, value]

end Parameter
end ExportVolumes
