import ExportVolumes.Proofs.Text.Numeral
import ExportVolumes.Time.Instant

namespace ExportVolumes
namespace Instant

/-!
Numbers of a fixed width in the texts of times.

`Instant.places` are the last decimal digits of a number.  Padding writes them
(`padded_eq`), and every reader of a number takes exactly the digits off the front of a text that
it stands for, whatever comes behind them (`number?_map`, `twoDigits?_pair`).
-/

open Numeral (magnitudeFrom magnitudeFrom_nil magnitudeFrom_cons magnitudeFrom_append)

/-! ## The digits of a number -/

/-- The last `width` decimal digits of a number. -/
def places : Nat → Nat → List Nat
  | 0, _ => []
  | width + 1, value => places width (value / 10) ++ [value % 10]

@[simp]
theorem length_places (width value : Nat) : (places width value).length = width := by
  induction width generalizing value with
  | zero => rfl
  | succ width ih => rw [places, List.length_append, ih, List.length_singleton]

theorem places_ne_nil {width : Nat} (wide : 0 < width) (value : Nat) : places width value ≠ [] := by
  rw [ne_eq, ← List.length_eq_zero_iff, length_places]
  exact Nat.pos_iff_ne_zero.mp wide

theorem lt_of_mem_places {width value digit : Nat} (member : digit ∈ places width value) :
    digit < 10 := by
  induction width generalizing value with
  | zero => exact absurd member List.not_mem_nil
  | succ width ih =>
      rcases List.mem_append.mp member with inFront | last
      · exact ih inFront
      · rw [List.mem_singleton.mp last]
        exact Nat.mod_lt _ (by decide)

theorem magnitudeFrom_places_mod (width value : Nat) :
    magnitudeFrom 10 0 (places width value) = value % 10 ^ width := by
  induction width generalizing value with
  | zero => rw [places, magnitudeFrom_nil, Nat.pow_zero, Nat.mod_one]
  | succ width ih =>
      rw [places, magnitudeFrom_append, ih, magnitudeFrom_cons, magnitudeFrom_nil, Nat.pow_succ',
        Nat.mod_mul]
      omega

/-- The digits of a number that has no more of them are worth the number. -/
theorem magnitudeFrom_places {width value : Nat} (fits : value < 10 ^ width) :
    magnitudeFrom 10 0 (places width value) = value := by
  rw [magnitudeFrom_places_mod, Nat.mod_eq_of_lt fits]

/-! ## Writing -/

theorem places_zero (width : Nat) : places width 0 = List.replicate width 0 := by
  induction width with
  | zero => rfl
  | succ width ih => rw [places, Nat.zero_div, ih, List.replicate_succ']

/-- Beyond the digits that a number has there are only zeros. -/
theorem places_add {width value : Nat} (fits : value < 10 ^ width) (more : Nat) :
    places (more + width) value = List.replicate more 0 ++ places width value := by
  induction width generalizing value with
  | zero =>
      obtain rfl : value = 0 := by simpa using fits
      rw [Nat.add_zero, places_zero, places, List.append_nil]
  | succ width ih =>
      have shorter : value / 10 < 10 ^ width := by
        rw [Nat.pow_succ] at fits
        omega
      rw [← Nat.add_assoc, places, ih shorter, places, List.append_assoc]

theorem toDigits_eq_places (value : Nat) :
    Nat.toDigits 10 value = (places (Nat.toDigits 10 value).length value).map Nat.digitChar := by
  induction value using Nat.strongRecOn with
  | ind value ih =>
      rw [Nat.toDigits_eq_if (by decide)]
      split
      · rename_i single
        simp [places, Nat.mod_eq_of_lt single]
      · rename_i several
        rw [List.length_append, List.length_singleton, places, List.map_append,
          ← ih (value / 10) (by omega), List.map_singleton]

/-- Padding writes the digits, and more than the width only where the number has more. -/
theorem padded_eq (width value : Nat) :
    padded width value =
      (places (max width (Nat.toDigits 10 value).length) value).map Nat.digitChar := by
  have fits : value < 10 ^ (Nat.toDigits 10 value).length := by
    rw [← Nat.length_toDigits_le_iff (by decide)
      (List.length_pos_iff.mpr Nat.toDigits_ne_nil)]
  have split : max width (Nat.toDigits 10 value).length =
      width - (Nat.toDigits 10 value).length + (Nat.toDigits 10 value).length := by omega
  rw [split, places_add fits, List.map_append, ← toDigits_eq_places, List.map_replicate]
  rfl

/-- A number that fits is padded to the width. -/
theorem padded_of_lt {width value : Nat} (wide : 0 < width) (fits : value < 10 ^ width) :
    padded width value = (places width value).map Nat.digitChar := by
  have short := (Nat.length_toDigits_le_iff (by decide) wide).mpr fits
  rw [padded_eq, Nat.max_eq_left short]

/-! ## Reading -/

/-- A text that does not go on with a digit. -/
def NoDigit (text : List Char) : Prop :=
  ∀ c ∈ text.head?, c.isDigit = false

theorem noDigit_cons {c : Char} {text : List Char} : NoDigit (c :: text) ↔ c.isDigit = false := by
  simp [NoDigit]

theorem isDigit_digitChar {digit : Nat} (decimal : digit < 10) :
    (Nat.digitChar digit).isDigit = true := by
  rw [Nat.isDigit_digitChar, decide_eq_true decimal]

theorem digitChar_ne {digit : Nat} (decimal : digit < 10) {c : Char} (noDigit : c.isDigit = false) :
    Nat.digitChar digit ≠ c := by
  rintro rfl
  exact absurd (isDigit_digitChar decimal) (Bool.eq_false_iff.mp noDigit)

theorem digit?_digitChar {digit : Nat} (decimal : digit < 10) :
    digit? (Nat.digitChar digit) = some digit := by
  rw [digit?, if_pos (isDigit_digitChar decimal), Numeral.toNat_digitChar decimal,
    Nat.add_sub_cancel_left]

theorem isBlank_digitChar {digit : Nat} (decimal : digit < 10) :
    Text.isBlank (Nat.digitChar digit) = false := by
  interval_cases digit <;> decide

/-- Digits are read up to as many as are wanted, or up to what is none. -/
theorem digits_map {digits : List Nat} (decimal : ∀ digit ∈ digits, digit < 10) {rest : List Char}
    {most : Nat} (enough : digits.length ≤ most) (ends : digits.length = most ∨ NoDigit rest)
    (value : Nat) :
    Instant.digits most value (digits.map Nat.digitChar ++ rest) =
      (magnitudeFrom 10 value digits, rest) := by
  induction digits generalizing most value with
  | nil =>
      rw [List.map_nil, List.nil_append, magnitudeFrom_nil]
      cases most with
      | zero => rfl
      | succ most =>
          cases rest with
          | nil => rfl
          | cons c rest =>
              have stops := noDigit_cons.mp (ends.resolve_left (by simp))
              simp [Instant.digits, digit?, stops]
  | cons digit digits ih =>
      cases most with
      | zero => exact absurd enough (by simp)
      | succ most =>
          have first := decimal digit List.mem_cons_self
          have others := fun other member => decimal other (List.mem_cons_of_mem digit member)
          rw [List.map_cons, List.cons_append, Instant.digits, digit?_digitChar first,
            magnitudeFrom_cons]
          exact ih others (Nat.le_of_succ_le_succ enough) (ends.imp_left Nat.succ_inj.mp) _

/-- A number is read off the front of a text. -/
theorem number?_map {digits : List Nat} (decimal : ∀ digit ∈ digits, digit < 10)
    (nonempty : digits ≠ []) {rest : List Char} {most : Nat} (enough : digits.length ≤ most)
    (ends : digits.length = most ∨ NoDigit rest) :
    number? most (digits.map Nat.digitChar ++ rest) = some (magnitudeFrom 10 0 digits, rest) := by
  have read := digits_map decimal enough ends 0
  cases digits with
  | nil => exact absurd rfl nonempty
  | cons digit digits =>
      rw [List.map_cons, List.cons_append] at read ⊢
      rw [number?, if_pos (isDigit_digitChar (decimal digit List.mem_cons_self)), read]

theorem dropBlanks_cons {c : Char} (full : Text.isBlank c = false) (text : List Char) :
    Text.dropBlanks (c :: text) = c :: text := by
  rw [Text.dropBlanks, List.dropWhile_cons, full]
  rfl

theorem dropBlanks_map {digits : List Nat} (decimal : ∀ digit ∈ digits, digit < 10)
    (nonempty : digits ≠ []) (rest : List Char) :
    Text.dropBlanks (digits.map Nat.digitChar ++ rest) = digits.map Nat.digitChar ++ rest := by
  cases digits with
  | nil => exact absurd rfl nonempty
  | cons digit digits =>
      exact dropBlanks_cons (isBlank_digitChar (decimal digit List.mem_cons_self)) _

/-- A number of two digits, as the fields of dates and times have them. -/
def pair (value : Nat) : List Char :=
  (places 2 value).map Nat.digitChar

theorem padded_two {value : Nat} (fits : value < 100) : padded 2 value = pair value :=
  padded_of_lt (by decide) fits

theorem field?_pair {value : Nat} (fits : value < 100) (rest : List Char) :
    field? 2 (pair value ++ rest) = some (value, rest) := by
  have decimal : ∀ digit ∈ places 2 value, digit < 10 := fun _ => lt_of_mem_places
  have nonempty : places 2 value ≠ [] := places_ne_nil (by decide) value
  rw [field?, pair, dropBlanks_map decimal nonempty, number?_map decimal nonempty (by simp)
    (Or.inl (by simp)), magnitudeFrom_places fits]

theorem twoDigits?_pair {value : Nat} (fits : value < 100) (rest : List Char) :
    twoDigits? (pair value ++ rest) = some (value, rest) := by
  have tens : value / 10 % 10 < 10 := Nat.mod_lt _ (by decide)
  have units : value % 10 < 10 := Nat.mod_lt _ (by decide)
  have whole : value / 10 % 10 * 10 + value % 10 = value := by omega
  simp [pair, places, twoDigits?, digit?_digitChar tens, digit?_digitChar units, whole]

theorem mark?_cons (mark : Char) (full : Text.isBlank mark = false) (rest : List Char) :
    mark? mark (mark :: rest) = some rest := by
  rw [mark?, dropBlanks_cons full]
  exact if_pos rfl

/-! ## Years -/

/-- A padded number of any length is read where it ends. -/
theorem number?_padded (width value : Nat) {rest : List Char} (ends : NoDigit rest) :
    number? (padded width value ++ rest).length (padded width value ++ rest) =
      some (value, rest) := by
  have length : 0 < (Nat.toDigits 10 value).length := List.length_pos_iff.mpr Nat.toDigits_ne_nil
  have fits : value < 10 ^ (Nat.toDigits 10 value).length :=
    (Nat.length_toDigits_le_iff (by decide) length).mp le_rfl
  have fitsMax := fits.trans_le
    (Nat.pow_le_pow_right (by decide) (Nat.le_max_right width (Nat.toDigits 10 value).length))
  rw [padded_eq, number?_map (fun _ => lt_of_mem_places) ?_ (by simp) (Or.inr ends),
    magnitudeFrom_places fitsMax]
  exact places_ne_nil (by omega) value

theorem year?_yearText (year : Int) {rest : List Char} (ends : NoDigit rest) :
    year? (yearText year ++ rest) = some (year, rest) := by
  unfold yearText
  split
  · rename_i civil
    have fits : year.toNat < 10 ^ 4 := by omega
    have decimal : ∀ digit ∈ places 4 year.toNat, digit < 10 := fun _ => lt_of_mem_places
    have nonempty : places 4 year.toNat ≠ [] := places_ne_nil (by decide) year.toNat
    have read : number? 4 ((places 4 year.toNat).map Nat.digitChar ++ rest) =
        some (year.toNat, rest) := by
      rw [number?_map decimal nonempty (by simp) (Or.inl (length_places _ _)),
        magnitudeFrom_places fits]
    rw [padded_of_lt (by decide) fits, year?, dropBlanks_map decimal nonempty]
    have unsigned {sign : Char} (noDigit : sign.isDigit = false) (others : List Char) :
        (places 4 year.toNat).map Nat.digitChar ++ rest ≠ sign :: others := by
      intro same
      have first : Nat.digitChar (year.toNat / 10 / 10 / 10 % 10) = sign := by
        simpa [places] using congrArg List.head? same
      exact digitChar_ne (Nat.mod_lt _ (by decide)) noDigit first
    split
    · rename_i minus
      exact absurd minus (unsigned (by decide) _)
    · rename_i plus
      exact absurd plus (unsigned (by decide) _)
    · rw [read]
      simp [civil.1]
  · split
    · rw [year?, List.cons_append, dropBlanks_cons (by decide)]
      simp only [number?_padded 4 _ ends, Option.map_some, Option.some.injEq, Prod.mk.injEq,
        and_true]
      omega
    · rw [year?, List.cons_append, dropBlanks_cons (by decide)]
      simp only [number?_padded 4 _ ends, Option.map_some, Option.some.injEq, Prod.mk.injEq,
        and_true]
      omega

end Instant
end ExportVolumes
