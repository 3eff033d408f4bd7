import ExportVolumes.Proofs.Time.Digits

namespace ExportVolumes
namespace Instant

/-!
Fractions of a second.

A fraction is a run of digits of any length.  It says so many nanoseconds
(`Instant.nanosecondsOf`), and is read as that many.  What is written is the shortest fraction of 0,
3, 6 or 9 digits that says the nanoseconds of an instant (`Instant.fractionDigits`,
`length_fractionDigits_le`).
-/

open Numeral (magnitudeFrom magnitudeFrom_append magnitudeFrom_div_pow)

/-! ## What a fraction says -/

/-- The nanoseconds of the digits of a fraction of a second.  What is less than one is left out. -/
def nanosecondsOf (fraction : List Nat) : Nat :=
  magnitudeFrom 10 0 fraction * 10 ^ 9 / 10 ^ fraction.length

/-- The text of a fraction of a second. -/
def fractionChars : List Nat → List Char
  | [] => []
  | digits => '.' :: digits.map Nat.digitChar

theorem nanosecondsOf_of_le {digits : List Nat} (short : digits.length ≤ 9) :
    nanosecondsOf digits = magnitudeFrom 10 0 digits * 10 ^ (9 - digits.length) := by
  have split : 10 ^ 9 = 10 ^ (9 - digits.length) * 10 ^ digits.length := by
    rw [← Nat.pow_add, Nat.sub_add_cancel short]
  rw [nanosecondsOf, split, ← Nat.mul_assoc, Nat.mul_div_cancel _ (Nat.pow_pos (by decide))]

/-- The digits behind the ninth do not count. -/
theorem nanosecondsOf_take {digits : List Nat} (decimal : ∀ digit ∈ digits, digit < 10) :
    nanosecondsOf (digits.take 9) = nanosecondsOf digits := by
  by_cases short : digits.length ≤ 9
  · rw [List.take_of_length_le short]
  · have front : (digits.take 9).length = 9 := by simp; omega
    have split : 10 ^ digits.length = 10 ^ (digits.drop 9).length * 10 ^ 9 := by
      rw [← Nat.pow_add, List.length_drop]
      congr 1
      omega
    have back : ∀ digit ∈ digits.drop 9, digit < 10 := fun digit member =>
      decimal digit (List.mem_of_mem_drop member)
    calc nanosecondsOf (digits.take 9)
        = magnitudeFrom 10 0 (digits.take 9) := by
          rw [nanosecondsOf_of_le front.le, front, Nat.sub_self, Nat.pow_zero, Nat.mul_one]
      _ = magnitudeFrom 10 (magnitudeFrom 10 0 (digits.take 9)) (digits.drop 9) /
            10 ^ (digits.drop 9).length :=
          (magnitudeFrom_div_pow (by decide) back _).symm
      _ = magnitudeFrom 10 0 digits / 10 ^ (digits.drop 9).length := by
          rw [← magnitudeFrom_append, List.take_append_drop]
      _ = nanosecondsOf digits := by
          rw [nanosecondsOf, split, Nat.mul_div_mul_right _ _ (by decide)]

/-- A fraction says less than a second. -/
theorem nanosecondsOf_lt {digits : List Nat} (decimal : ∀ digit ∈ digits, digit < 10) :
    nanosecondsOf digits < nanosPerSecond := by
  have below : magnitudeFrom 10 0 digits < 10 ^ digits.length := by
    have none := magnitudeFrom_div_pow (by decide) decimal 0
    exact Nat.lt_of_div_eq_zero (Nat.pow_pos (by decide)) none
  rw [nanosecondsOf, Nat.div_lt_iff_lt_mul (Nat.pow_pos (by decide)),
    show nanosPerSecond = 10 ^ 9 from rfl, Nat.mul_comm]
  exact Nat.mul_lt_mul_of_pos_left below (by decide)

/-! ## Reading -/

theorem dropWhile_isDigit {digits : List Nat} (decimal : ∀ digit ∈ digits, digit < 10)
    {rest : List Char} (ends : NoDigit rest) :
    (digits.map Nat.digitChar ++ rest).dropWhile Char.isDigit = rest := by
  rw [List.dropWhile_append_of_pos]
  · cases rest with
    | nil => rfl
    | cons c rest => rw [List.dropWhile_cons, noDigit_cons.mp ends, if_neg Bool.false_ne_true]
  · intro c member
    rcases List.mem_map.mp member with ⟨digit, isOne, rfl⟩
    exact isDigit_digitChar (decimal digit isOne)

/-- A fraction is read to its end, and its first nine digits count. -/
theorem fraction?_fractionChars {digits : List Nat} (decimal : ∀ digit ∈ digits, digit < 10)
    {rest : List Char} (ends : NoDigit rest) (noPoint : rest.head? ≠ some '.') :
    fraction? (fractionChars digits ++ rest) = some (nanosecondsOf digits, rest) := by
  by_cases empty : digits = []
  · subst empty
    rw [fractionChars, List.nil_append, fraction?]
    · simp [nanosecondsOf]
    · rintro others rfl
      exact noPoint rfl
  · have front : ∀ digit ∈ digits.take 9, digit < 10 := fun digit member =>
      decimal digit (List.mem_of_mem_take member)
    have back : ∀ digit ∈ digits.drop 9, digit < 10 := fun digit member =>
      decimal digit (List.mem_of_mem_drop member)
    have text : fractionChars digits ++ rest = '.' :: ((digits.take 9).map Nat.digitChar ++
        ((digits.drop 9).map Nat.digitChar ++ rest)) := by
      rw [fractionChars, ← List.append_assoc, ← List.map_append, List.take_append_drop,
        List.cons_append]
      exact empty
    have frontEnds : (digits.take 9).length = 9 ∨
        NoDigit ((digits.drop 9).map Nat.digitChar ++ rest) := by
      -- If fewer than nine digits are left, nothing is behind them.
      by_cases long : 9 ≤ digits.length
      · exact Or.inl (by simpa using long)
      · rw [List.drop_of_length_le (by omega)]
        exact Or.inr ends
    rw [text, fraction?, number?_map front (by simpa using empty) (List.length_take_le 9 digits)
      frontEnds, ← nanosecondsOf_take decimal, nanosecondsOf_of_le (List.length_take_le 9 digits)]
    simp only [Option.map_some, List.length_append, List.length_map, Nat.add_sub_cancel,
      dropWhile_isDigit back ends]
    rfl

/-! ## Writing -/

/-- The fewest of 0, 3, 6 or 9 digits that nanoseconds can do with. -/
def fractionWidth (nanoseconds : Nat) : Nat :=
  if nanoseconds % 10 ^ 9 = 0 then 0
  else if nanoseconds % 10 ^ 6 = 0 then 3
  else if nanoseconds % 10 ^ 3 = 0 then 6
  else 9

/-- The digits of the fraction that is written for nanoseconds. -/
def fractionDigits (nanoseconds : Nat) : List Nat :=
  places (fractionWidth nanoseconds) (nanoseconds / 10 ^ (9 - fractionWidth nanoseconds))

theorem length_fractionDigits (nanoseconds : Nat) :
    (fractionDigits nanoseconds).length = fractionWidth nanoseconds :=
  length_places _ _

theorem lt_of_mem_fractionDigits {nanoseconds digit : Nat}
    (member : digit ∈ fractionDigits nanoseconds) : digit < 10 :=
  lt_of_mem_places member

theorem fractionWidth_mem (nanoseconds : Nat) : fractionWidth nanoseconds ∈ [0, 3, 6, 9] := by
  unfold fractionWidth
  split_ifs <;> decide

theorem mod_fractionWidth (nanoseconds : Nat) :
    nanoseconds % 10 ^ (9 - fractionWidth nanoseconds) = 0 := by
  unfold fractionWidth
  split_ifs <;> simp_all [Nat.mod_one]

theorem fractionWidth_le {nanoseconds width : Nat} (choice : width ∈ [0, 3, 6, 9])
    (enough : nanoseconds % 10 ^ (9 - width) = 0) : fractionWidth nanoseconds ≤ width := by
  simp only [List.mem_cons, List.not_mem_nil, or_false] at choice
  unfold fractionWidth
  rcases choice with rfl | rfl | rfl | rfl
  · rw [if_pos enough]
  · split_ifs <;> omega
  · split_ifs <;> omega
  · split_ifs <;> omega

theorem nanosecondsOf_places {width value : Nat} (short : width ≤ 9) (fits : value < 10 ^ width) :
    nanosecondsOf (places width value) = value * 10 ^ (9 - width) := by
  rw [nanosecondsOf_of_le (by simpa using short), length_places,
    magnitudeFrom_places fits]

/-- The digits that are written say as many nanoseconds. -/
theorem nanosecondsOf_fractionDigits {nanoseconds : Nat}
    (whole : nanoseconds < nanosPerSecond) :
    nanosecondsOf (fractionDigits nanoseconds) = nanoseconds := by
  have short : fractionWidth nanoseconds ≤ 9 :=
    (by decide : ∀ width ∈ [0, 3, 6, 9], width ≤ 9) _ (fractionWidth_mem nanoseconds)
  have fits : nanoseconds / 10 ^ (9 - fractionWidth nanoseconds) <
      10 ^ fractionWidth nanoseconds := by
    rw [Nat.div_lt_iff_lt_mul (Nat.pow_pos (by decide)), ← Nat.pow_add, Nat.add_sub_cancel' short]
    exact whole
  rw [fractionDigits, nanosecondsOf_places short fits]
  exact Nat.div_mul_cancel (Nat.dvd_of_mod_eq_zero (mod_fractionWidth nanoseconds))

/-- No other fraction of 0, 3, 6 or 9 digits that says as much is shorter. -/
theorem length_fractionDigits_le {digits : List Nat} (choice : digits.length ∈ [0, 3, 6, 9]) :
    (fractionDigits (nanosecondsOf digits)).length ≤ digits.length := by
  have short : digits.length ≤ 9 :=
    (by decide : ∀ width ∈ [0, 3, 6, 9], width ≤ 9) _ choice
  rw [length_fractionDigits]
  apply fractionWidth_le choice
  rw [nanosecondsOf_of_le short, Nat.mul_mod_left]

theorem fractionChars_places {width value : Nat} (wide : 0 < width) (fits : value < 10 ^ width) :
    fractionChars (places width value) = '.' :: padded width value := by
  rw [fractionChars, padded_of_lt wide fits]
  exact places_ne_nil wide value

theorem fractionText_eq {nanoseconds : Nat} (whole : nanoseconds < nanosPerSecond) :
    fractionText nanoseconds = fractionChars (fractionDigits nanoseconds) := by
  simp only [nanosPerSecond] at whole
  have zero : nanoseconds % 1000000000 = 0 ↔ nanoseconds = 0 := by omega
  simp only [fractionText, fractionDigits, fractionWidth, Nat.reducePow, zero]
  by_cases none : nanoseconds = 0
  · subst none
    rfl
  by_cases millis : nanoseconds % 1000000 = 0
  · simp only [if_neg none, if_pos millis]
    exact (fractionChars_places (by decide) (by omega)).symm
  by_cases micros : nanoseconds % 1000 = 0
  · simp only [if_neg none, if_neg millis, if_pos micros]
    exact (fractionChars_places (by decide) (by omega)).symm
  · simp only [if_neg none, if_neg millis, if_neg micros]
    rw [fractionChars_places (by decide) (by simpa using whole)]
    simp

end Instant
end ExportVolumes
