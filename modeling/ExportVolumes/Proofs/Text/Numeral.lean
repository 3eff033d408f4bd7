import ExportVolumes.Text.Numeral
import Mathlib.Data.Nat.Digits.Defs
import Mathlib.Tactic.IntervalCases
import Mathlib.Tactic.Ring

namespace ExportVolumes
namespace Numeral

/-!
What a text says as a numeral.

A text is cut into a mark, the longest run of digits behind it and the rest (`Numeral.Cut`), and the
digits have a value by their places.  Reading goes by digits and gives up at the first fault; the
main statement is `read_eq`, which tells its answer from the cut alone: the value decides before
the rest does.
-/

/-! ## Signs -/

/-- The character that marks a sign. -/
def Sign.mark : Sign → Char
  | .positive => '+'
  | .negative => '-'

/-- A magnitude under a sign. -/
def Sign.signed : Sign → Nat → Int
  | .positive, magnitude => magnitude
  | .negative, magnitude => -magnitude

/-- The largest magnitude that is in range under a sign. -/
def Sign.limit : Sign → Nat
  | .positive => 2 ^ 63 - 1
  | .negative => 2 ^ 63

/-- How a magnitude leaves the range under a sign. -/
def Sign.fault : Sign → Fault
  | .positive => .tooLarge
  | .negative => .tooSmall

/-- The numbers that 64 bits hold with a sign. -/
def InRange (value : Int) : Prop :=
  -2 ^ 63 ≤ value ∧ value ≤ 2 ^ 63 - 1

namespace Sign

@[simp]
theorem signed_zero (sign : Sign) : sign.signed 0 = 0 := by
  cases sign <;> rfl

theorem extend_signed (sign : Sign) (radix magnitude digit : Nat) :
    sign.extend radix (sign.signed magnitude) digit = sign.signed (magnitude * radix + digit) := by
  cases sign with
  | positive => simp [extend, signed]
  | negative =>
      simp only [extend, signed, Nat.cast_add, Nat.cast_mul]
      ring

theorem overflow?_signed (sign : Sign) (magnitude : Nat) :
    sign.overflow? (sign.signed magnitude) =
      if sign.limit < magnitude then some sign.fault else none := by
  cases sign with
  | positive =>
      have exceeds : largest < (magnitude : Int) ↔ 2 ^ 63 - 1 < magnitude := by
        rw [show largest = ((2 ^ 63 - 1 : Nat) : Int) from rfl, Nat.cast_lt]
      exact if_congr exceeds rfl rfl
  | negative =>
      have exceeds : -(magnitude : Int) < smallest ↔ 2 ^ 63 < magnitude := by
        rw [show smallest = -((2 ^ 63 : Nat) : Int) from rfl, neg_lt_neg_iff, Nat.cast_lt]
      exact if_congr exceeds rfl rfl

end Sign

/-! ## Digits -/

/-- The magnitude of a run of digits behind others, the most significant first. -/
def magnitudeFrom (radix start : Nat) (digits : List Nat) : Nat :=
  start * radix ^ digits.length + Nat.ofDigits radix digits.reverse

@[simp]
theorem magnitudeFrom_nil (radix start : Nat) : magnitudeFrom radix start [] = start := by
  simp [magnitudeFrom]

theorem magnitudeFrom_cons (radix start digit : Nat) (digits : List Nat) :
    magnitudeFrom radix start (digit :: digits) =
      magnitudeFrom radix (start * radix + digit) digits := by
  simp only [magnitudeFrom, List.reverse_cons, List.length_cons, Nat.ofDigits_append,
    List.length_reverse, Nat.ofDigits_singleton]
  ring

theorem magnitudeFrom_append (radix start : Nat) (front back : List Nat) :
    magnitudeFrom radix start (front ++ back) =
      magnitudeFrom radix (magnitudeFrom radix start front) back := by
  induction front generalizing start with
  | nil => rw [List.nil_append, magnitudeFrom_nil]
  | cons digit front ih => rw [List.cons_append, magnitudeFrom_cons, magnitudeFrom_cons, ih]

theorem magnitudeFrom_zero (radix : Nat) (digits : List Nat) :
    magnitudeFrom radix 0 digits = Nat.ofDigits radix digits.reverse := by
  rw [magnitudeFrom, Nat.zero_mul, Nat.zero_add]

/-- Digits behind others are worth less than one in the last place in front of them. -/
theorem magnitudeFrom_div_pow {radix : Nat} (several : 1 < radix) {digits : List Nat}
    (below : ∀ digit ∈ digits, digit < radix) (start : Nat) :
    magnitudeFrom radix start digits / radix ^ digits.length = start := by
  have small : Nat.ofDigits radix digits.reverse < radix ^ digits.length := by
    rw [← List.length_reverse]
    exact Nat.ofDigits_lt_base_pow_length several fun digit member =>
      below digit (List.mem_reverse.mp member)
  rw [magnitudeFrom, Nat.add_comm, Nat.add_mul_div_right _ _ (Nat.pow_pos (by omega)),
    Nat.div_eq_of_lt small, Nat.zero_add]

/-- More digits never make a number smaller, so a number that has left the range does not come
back. -/
theorem le_magnitudeFrom {radix : Nat} (some_digit : 0 < radix) (start : Nat) (digits : List Nat) :
    start ≤ magnitudeFrom radix start digits :=
  (Nat.le_mul_of_pos_right start (Nat.pow_pos some_digit)).trans (Nat.le_add_right _ _)

theorem toNat_digitChar {digit : Nat} (decimal : digit < 10) :
    (Nat.digitChar digit).toNat = '0'.toNat + digit := by
  interval_cases digit <;> rfl

theorem digit?_digitChar {radix digit : Nat} (decimal : radix ≤ 10) (below : digit < radix) :
    digit? radix (Nat.digitChar digit) = some digit := by
  have code := toNat_digitChar (below.trans_le decimal)
  have first : '0' ≤ Nat.digitChar digit := by
    rw [Char.le_def, UInt32.le_iff_toNat_le]
    exact (Nat.le_add_right _ _).trans_eq code.symm
  rw [digit?, if_pos ⟨first, by omega⟩, code, Nat.add_sub_cancel_left]

/-- What is no digit of the radix is not taken for one. -/
theorem digit?_eq_none {radix : Nat} (decimal : radix ≤ 10) {c : Char}
    (noDigit : ∀ digit < radix, c ≠ Nat.digitChar digit) : digit? radix c = none := by
  rw [digit?, if_neg]
  rintro ⟨first, last⟩
  rw [Char.le_def, UInt32.le_iff_toNat_le] at first
  have code : '0'.toNat ≤ c.toNat := first
  have below : c.toNat - '0'.toNat < radix := by omega
  apply noDigit _ below
  apply Char.toNat_inj.mp
  rw [toNat_digitChar (below.trans_le decimal), Nat.add_sub_cancel' code]

/-- Reading digits onto a magnitude that is in range. -/
theorem readDigits_eq {radix : Nat} (decimal : radix ≤ 10) (some_digit : 0 < radix) {sign : Sign}
    {start : Nat} (inRange : start ≤ sign.limit) {digits : List Nat}
    (below : ∀ digit ∈ digits, digit < radix) {rest : List Char}
    (longest : ∀ digit < radix, rest.head? ≠ some (Nat.digitChar digit)) :
    readDigits radix sign (sign.signed start) (digits.map Nat.digitChar ++ rest) =
      if sign.limit < magnitudeFrom radix start digits then .error sign.fault
      else if rest = [] then .ok (sign.signed (magnitudeFrom radix start digits))
      else .error .invalidDigit := by
  induction digits generalizing start with
  | nil =>
      rw [magnitudeFrom_nil, if_neg (Nat.not_lt.mpr inRange), List.map_nil, List.nil_append]
      cases rest with
      | nil => rfl
      | cons c rest =>
          have noDigit := digit?_eq_none decimal fun digit less same =>
            longest digit less (congrArg some same)
          rw [readDigits, noDigit, if_neg (List.cons_ne_nil _ _)]
  | cons digit digits ih =>
      have isDigit := digit?_digitChar decimal (below digit List.mem_cons_self)
      rw [List.map_cons, List.cons_append, readDigits, isDigit]
      simp only [Sign.extend_signed, Sign.overflow?_signed, magnitudeFrom_cons]
      by_cases leaves : sign.limit < start * radix + digit
      · have stays := leaves.trans_le (le_magnitudeFrom some_digit (start * radix + digit) digits)
        rw [if_pos leaves, if_pos stays]
      · rw [if_neg leaves]
        exact ih (Nat.not_lt.mp leaves) fun other member =>
          below other (List.mem_cons_of_mem _ member)

/-! ## Cuts -/

/-- A text cut into a mark, the longest run of digits behind it and the rest. -/
structure Cut (radix : Nat) (text : String) where
  mark : Option Sign
  digits : List Nat
  rest : List Char
  whole : text.toList = mark.toList.map Sign.mark ++ (digits.map Nat.digitChar ++ rest)
  unmarked : mark = none → ∀ sign : Sign, text.toList.head? ≠ some sign.mark
  below : ∀ digit ∈ digits, digit < radix
  longest : ∀ digit < radix, rest.head? ≠ some (Nat.digitChar digit)

/-- Any text opens with a longest run of digits, which may be empty. -/
theorem exists_run (radix : Nat) (chars : List Char) :
    ∃ (digits : List Nat) (rest : List Char), chars = digits.map Nat.digitChar ++ rest ∧
      (∀ digit ∈ digits, digit < radix) ∧
      ∀ digit < radix, rest.head? ≠ some (Nat.digitChar digit) := by
  induction chars with
  | nil => exact ⟨[], [], rfl, by simp, by simp⟩
  | cons c chars ih =>
      by_cases found : ∃ digit < radix, c = Nat.digitChar digit
      · rcases found with ⟨digit, less, rfl⟩
        rcases ih with ⟨digits, rest, rfl, below, longest⟩
        exact ⟨digit :: digits, rest, rfl, List.forall_mem_cons.mpr ⟨less, below⟩, longest⟩
      · refine ⟨[], c :: chars, rfl, by simp, fun digit less same => ?_⟩
        exact found ⟨digit, less, Option.some.inj same⟩

/-- Every text can be cut. -/
theorem nonempty_cut (radix : Nat) (text : String) : Nonempty (Cut radix text) := by
  by_cases marked : ∃ sign : Sign, text.toList.head? = some sign.mark
  · rcases marked with ⟨sign, opens⟩
    rcases List.head?_eq_some_iff.mp opens with ⟨chars, whole⟩
    rcases exists_run radix chars with ⟨digits, rest, rfl, below, longest⟩
    exact ⟨⟨some sign, digits, rest, whole, by simp, below, longest⟩⟩
  · rcases exists_run radix text.toList with ⟨digits, rest, whole, below, longest⟩
    exact ⟨⟨none, digits, rest, whole, fun _ sign opens => marked ⟨sign, opens⟩, below, longest⟩⟩

namespace Cut

variable {radix : Nat} {text : String} (cut : Cut radix text)

/-- The sign that the mark stands for. -/
def sign : Sign := cut.mark.getD .positive

/-- The magnitude of the digits by their places. -/
def magnitude : Nat := Nat.ofDigits radix cut.digits.reverse

/-- The number that sign and digits make. -/
def value : Int := cut.sign.signed cut.magnitude

/-- There are digits, and nothing behind them. -/
def IsNumeral : Prop := cut.digits ≠ [] ∧ cut.rest = []

instance : Decidable cut.IsNumeral := inferInstanceAs (Decidable (_ ∧ _))

/-- The cut of a mark and digits that are written out. -/
def written (mark : Option Sign) {digits : List Nat} (decimal : radix ≤ 10)
    (below : ∀ digit ∈ digits, digit < radix) :
    Cut radix (String.ofList (mark.toList.map Sign.mark ++ digits.map Nat.digitChar)) where
  mark
  digits
  rest := []
  whole := by simp
  unmarked := by
    rintro rfl sign opens
    rcases digits with _ | ⟨digit, digits⟩
    · simp at opens
    · have same : Nat.digitChar digit = sign.mark := by simpa using opens
      have code := congrArg Char.toNat same
      rw [toNat_digitChar ((below digit List.mem_cons_self).trans_le decimal)] at code
      cases sign <;> exact absurd code (by simp [Sign.mark]; omega)
  below
  longest := by simp

theorem beyond_of_limit_lt (leaves : cut.sign.limit < cut.magnitude) :
    cut.sign = .positive ∧ 2 ^ 63 - 1 < cut.value ∨
      cut.sign = .negative ∧ cut.value < -2 ^ 63 := by
  rw [value]
  cases sign : cut.sign with
  | positive =>
      simp only [sign, Sign.limit] at leaves
      exact .inl ⟨rfl, by simp only [Sign.signed]; omega⟩
  | negative =>
      simp only [sign, Sign.limit] at leaves
      exact .inr ⟨rfl, by simp only [Sign.signed]; omega⟩

theorem inRange_of_le_limit (stays : cut.magnitude ≤ cut.sign.limit) : InRange cut.value := by
  rw [value]
  cases sign : cut.sign with
  | positive =>
      simp only [sign, Sign.limit] at stays
      exact ⟨by simp only [Sign.signed]; omega, by simp only [Sign.signed]; omega⟩
  | negative =>
      simp only [sign, Sign.limit] at stays
      exact ⟨by simp only [Sign.signed]; omega, by simp only [Sign.signed]; omega⟩

theorem read_eq_readDigits :
    read radix text =
      if cut.digits = [] ∧ cut.rest = [] then .error .invalidDigit
      else readDigits radix cut.sign (cut.sign.signed 0)
        (cut.digits.map Nat.digitChar ++ cut.rest) := by
  rcases cut with ⟨mark, digits, rest, whole, unmarked, below, longest⟩
  have bare : digits = [] ∧ rest = [] ↔ digits.map Nat.digitChar ++ rest = [] := by simp
  simp only [bare, sign, Sign.signed_zero]
  generalize digits.map Nat.digitChar ++ rest = chars at whole
  rw [read, whole]
  cases mark with
  | some sign =>
      cases sign <;> cases chars <;> simp [Sign.mark]
  | none =>
      have notPlus : text.toList.head? ≠ some '+' := unmarked rfl .positive
      have notMinus : text.toList.head? ≠ some '-' := unmarked rfl .negative
      rw [whole] at notPlus notMinus
      cases chars with
      | nil => rfl
      | cons c chars =>
          simp only [Option.toList_none, List.map_nil, List.nil_append, List.head?_cons, ne_eq,
            Option.some.injEq] at notPlus notMinus
          simp [notPlus, notMinus]

end Cut

/-- A numeral is read by its cut.  A magnitude out of range is reported whatever the rest is, and
otherwise any rest, or a lack of digits. -/
theorem read_eq {radix : Nat} (decimal : radix ≤ 10) (some_digit : 0 < radix) {text : String}
    (cut : Cut radix text) :
    read radix text =
      if cut.sign.limit < cut.magnitude then .error cut.sign.fault
      else if cut.IsNumeral then .ok cut.value
      else .error .invalidDigit := by
  rw [cut.read_eq_readDigits, readDigits_eq decimal some_digit (Nat.zero_le _) cut.below
    cut.longest, magnitudeFrom_zero, ← Cut.magnitude]
  by_cases digits : cut.digits = [] <;> by_cases rest : cut.rest = [] <;>
    simp [digits, rest, Cut.magnitude, Cut.value, Cut.IsNumeral]

end Numeral
end ExportVolumes
