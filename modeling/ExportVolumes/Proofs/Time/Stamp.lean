import ExportVolumes.Proofs.Time.Calendar
import ExportVolumes.Proofs.Time.Fraction

namespace ExportVolumes

/-!
The texts of RFC 3339 and the instants that they denote.

A `Stamp` is such a text in its parts, with a zone of any offset and a fraction of any length.  It
denotes the instant that its parts count up to (`Stamp.instant`).  Reading and writing meet at
stamps: the text of every stamp is read as its instant (`Stamp.ofText?_text`), and the text of an
instant is that of a stamp in universal time which denotes the instant (`Instant.text_eq`,
`Instant.instant_universal`) and whose fraction is as short as it can be
(`Instant.isCanonical_universal`).
-/

open Instant (pair places yearText fractionChars fractionDigits nanosecondsOf NoDigit noDigit_cons)

/-! ## Stamps -/

/-- The zone of a time: universal time, or hours and minutes ahead of it or behind it. -/
inductive Zone where
  | universal (mark : Char)
  | ahead (hours minutes : Nat)
  | behind (hours minutes : Nat)
  deriving DecidableEq

namespace Zone

/-- Whether the offset is one that RFC 3339 knows. -/
def IsValid : Zone → Prop
  | universal mark => mark = 'Z' ∨ mark = 'z'
  | ahead hours minutes | behind hours minutes => hours < 24 ∧ minutes < 60

/-- The seconds that the clocks of the zone are ahead of universal time. -/
def offset : Zone → Int
  | universal _ => 0
  | ahead hours minutes => hours * 3600 + minutes * 60
  | behind hours minutes => -(hours * 3600 + minutes * 60)

/-- The text of the zone. -/
def chars : Zone → List Char
  | universal mark => [mark]
  | ahead hours minutes => '+' :: (pair hours ++ ':' :: pair minutes)
  | behind hours minutes => '-' :: (pair hours ++ ':' :: pair minutes)

/-- A zone opens with a mark, which no number and no fraction goes on with. -/
theorem IsValid.opens {zone : Zone} (valid : zone.IsValid) :
    ∃ mark rest, zone.chars = mark :: rest ∧ mark.isDigit = false ∧ mark ≠ '.' ∧
      Text.isBlank mark = false := by
  cases zone with
  | universal mark => exact ⟨mark, [], rfl, by rcases valid with rfl | rfl <;> decide⟩
  | ahead hours minutes => exact ⟨'+', _, rfl, by decide⟩
  | behind hours minutes => exact ⟨'-', _, rfl, by decide⟩

theorem IsValid.offset_lt {zone : Zone} (valid : zone.IsValid) :
    -86400 < zone.offset ∧ zone.offset < 86400 := by
  cases zone with
  | universal mark => simp [offset]
  | ahead hours minutes =>
      rcases valid with ⟨hour, minute⟩
      simp only [offset]
      omega
  | behind hours minutes =>
      rcases valid with ⟨hour, minute⟩
      simp only [offset]
      omega

end Zone

namespace Instant

/-- The size of an offset is read off two pairs of digits. -/
theorem offsetSize?_pairs {hours minutes : Nat} (hour : hours < 24) (minute : minutes < 60) :
    offsetSize? (pair hours ++ ':' :: pair minutes) = some (hours * 3600 + minutes * 60, []) := by
  have second := twoDigits?_pair (by omega : minutes < 100) []
  rw [List.append_nil] at second
  have colon : (':' :: pair minutes).dropWhile (fun c => c = ':' || Text.isBlank c) =
      pair minutes := by
    have first : minutes / 10 % 10 < 10 := Nat.mod_lt _ (by decide)
    simp [pair, places, digitChar_ne first, isBlank_digitChar first]
  rw [offsetSize?, twoDigits?_pair (by omega)]
  simp only [Option.bind_eq_bind, Option.bind_some, colon, second]
  rw [if_pos ⟨minute, hour⟩]

theorem offset?_chars {zone : Zone} (valid : zone.IsValid) :
    offset? zone.chars = some (zone.offset, []) := by
  cases zone with
  | universal mark => rcases valid with rfl | rfl <;> rfl
  | ahead hours minutes =>
      rw [Zone.chars, offset?, offsetSize?_pairs valid.1 valid.2]
      simp [Zone.offset]
  | behind hours minutes =>
      rw [Zone.chars, offset?, offsetSize?_pairs valid.1 valid.2]
      simp [Zone.offset]

end Instant

/-- A time of a day of the calendar in a zone, in the parts of its text. -/
structure Stamp where
  date : CivilDate
  separator : Char
  hour : Nat
  minute : Nat
  second : Nat
  fraction : List Nat
  zone : Zone
  date_valid : date.isValid = true
  separator_mem : separator = 'T' ∨ separator = 't' ∨ separator = ' '
  hour_lt : hour < 24
  minute_lt : minute < 60
  second_lt : second < 60
  fraction_lt : ∀ digit ∈ fraction, digit < 10
  zone_valid : zone.IsValid

namespace Stamp

/-- The text of a stamp, as characters. -/
def chars (stamp : Stamp) : List Char :=
  yearText stamp.date.year ++ '-' :: (pair stamp.date.month ++ '-' :: (pair stamp.date.day ++
    stamp.separator :: (pair stamp.hour ++ ':' :: (pair stamp.minute ++ ':' :: (pair stamp.second ++
      (fractionChars stamp.fraction ++ stamp.zone.chars))))))

/-- The text of a stamp. -/
def text (stamp : Stamp) : String :=
  String.ofList stamp.chars

/-- The instant of a stamp. -/
def instant (stamp : Stamp) : Instant where
  seconds := stamp.date.dayNumber * 86400 +
    (stamp.hour * 3600 + stamp.minute * 60 + stamp.second) - stamp.zone.offset
  nanoseconds := nanosecondsOf stamp.fraction

/-- Universal time with `Z`, and the fewest of 0, 3, 6 or 9 fraction digits that lose nothing. -/
structure IsCanonical (stamp : Stamp) : Prop where
  zone : stamp.zone = .universal 'Z'
  separator : stamp.separator = 'T'
  width : stamp.fraction.length ∈ [0, 3, 6, 9]
  fewest : ∀ digits : List Nat, digits.length ∈ [0, 3, 6, 9] →
    nanosecondsOf digits = nanosecondsOf stamp.fraction → stamp.fraction.length ≤ digits.length

end Stamp

/-! ## Reading a stamp -/

namespace Stamp

variable (stamp : Stamp)

theorem month_lt : stamp.date.month < 100 := by
  rcases CivilDate.isValid_iff.mp stamp.date_valid with ⟨⟨_, last⟩, _⟩
  omega

theorem day_lt : stamp.date.day < 100 := by
  rcases CivilDate.isValid_iff.mp stamp.date_valid with ⟨_, _, last⟩
  have longest : CivilDate.daysInMonth stamp.date.year stamp.date.month ≤ 31 := by
    unfold CivilDate.daysInMonth
    split_ifs <;> decide
  omega

/-- The text behind the date. -/
def timeChars : List Char :=
  pair stamp.hour ++ ':' :: (pair stamp.minute ++ ':' :: (pair stamp.second ++
    (fractionChars stamp.fraction ++ stamp.zone.chars)))

theorem date?_chars :
    Instant.date? stamp.chars = some (stamp.date, stamp.separator :: stamp.timeChars) := by
  have ends (rest : List Char) : NoDigit ('-' :: rest) := noDigit_cons.mpr (by decide)
  rw [Instant.date?, chars, ← timeChars, Instant.year?_yearText stamp.date.year (ends _)]
  simp only [Option.bind_eq_bind, Option.bind_some, Instant.mark?_cons '-' (by decide),
    Instant.field?_pair stamp.month_lt, Instant.field?_pair stamp.day_lt]
  rfl

theorem time?_timeChars : Instant.time? stamp.timeChars =
    some (stamp.hour * 3600 + stamp.minute * 60 + stamp.second - stamp.zone.offset,
      nanosecondsOf stamp.fraction, []) := by
  have hour := stamp.hour_lt
  have minute := stamp.minute_lt
  have second := stamp.second_lt
  rcases stamp.zone_valid.opens with ⟨mark, rest, opens, noDigit, noPoint, full⟩
  have zoneNoDigit : NoDigit stamp.zone.chars := opens ▸ noDigit_cons.mpr noDigit
  have zoneNoPoint : stamp.zone.chars.head? ≠ some '.' := by
    rw [opens, List.head?_cons, ne_eq, Option.some.injEq]
    exact noPoint
  have zoneFull : Text.dropBlanks stamp.zone.chars = stamp.zone.chars :=
    opens ▸ Instant.dropBlanks_cons full rest
  rw [Instant.time?, timeChars]
  simp only [Option.bind_eq_bind, Option.bind_some, Instant.mark?_cons ':' (by decide),
    Instant.field?_pair (by omega : stamp.hour < 100),
    Instant.field?_pair (by omega : stamp.minute < 100),
    Instant.field?_pair (by omega : stamp.second < 100),
    Instant.fraction?_fractionChars stamp.fraction_lt zoneNoDigit zoneNoPoint, zoneFull,
    Instant.offset?_chars stamp.zone_valid]
  rw [if_neg (by omega), if_neg (by omega), Nat.min_eq_left (by omega)]
  simp

/-- Universal time is less than a day away, and so in the same year or the one before or behind. -/
theorem year_universal : stamp.date.year - 1 ≤
    (CivilDate.ofDays (stamp.instant.seconds / 86400)).year ∧
      (CivilDate.ofDays (stamp.instant.seconds / 86400)).year ≤ stamp.date.year + 1 := by
  have hour := stamp.hour_lt
  have minute := stamp.minute_lt
  have second := stamp.second_lt
  have offset := stamp.zone_valid.offset_lt
  have days : stamp.date.dayNumber - 1 ≤ stamp.instant.seconds / 86400 ∧
      stamp.instant.seconds / 86400 ≤ stamp.date.dayNumber + 1 := by
    simp only [instant]
    omega
  have valid := CivilDate.isValid_ofDays (stamp.instant.seconds / 86400)
  have number := CivilDate.dayNumber_ofDays (stamp.instant.seconds / 86400)
  have first := CivilDate.year_lt_iff valid (stamp.date.year - 1)
  have last := CivilDate.year_lt_iff valid (stamp.date.year + 1 + 1)
  rw [number] at first last
  have ownFirst := CivilDate.year_lt_iff stamp.date_valid stamp.date.year
  have ownLast := CivilDate.year_lt_iff stamp.date_valid (stamp.date.year + 1)
  have before := CivilDate.daysBeforeYear_succ (stamp.date.year - 1)
  have behind := CivilDate.daysBeforeYear_succ (stamp.date.year + 1)
  rw [Int.sub_add_cancel] at before
  omega

/-- Every stamp is read as its instant. -/
theorem ofText?_text (first : -262142 ≤ stamp.date.year) (last : stamp.date.year ≤ 262141) :
    Instant.ofText? stamp.text = some stamp.instant := by
  have year := stamp.year_universal
  have seconds : stamp.date.toDays * 86400 + (stamp.hour * 3600 + stamp.minute * 60 +
      stamp.second - stamp.zone.offset) = stamp.instant.seconds := by
    simp only [CivilDate.toDays_eq_dayNumber stamp.date_valid, instant]
    omega
  have ownRange : Instant.yearInRange stamp.date.year = true := by
    simp only [Instant.yearInRange, Bool.and_eq_true, decide_eq_true_eq]
    omega
  have range : Instant.yearInRange
      (CivilDate.ofDays (stamp.instant.seconds / 86400)).year = true := by
    simp only [Instant.yearInRange, Bool.and_eq_true, decide_eq_true_eq]
    omega
  rw [Instant.ofText?, text, String.toList_ofList, Instant.ofChars?, date?_chars]
  rcases stamp.separator_mem with same | same | same <;>
    simp only [same, Option.bind_eq_bind, Option.bind_some, time?_timeChars, seconds,
      stamp.date_valid, ownRange, range] <;> rfl

end Stamp

/-! ## Writing an instant -/

namespace Instant

/-- The stamp of an instant in universal time. -/
def universal (instant : Instant) : Stamp where
  date := CivilDate.ofDays (instant.seconds / 86400)
  separator := 'T'
  hour := (instant.seconds % 86400).toNat / 3600
  minute := (instant.seconds % 86400).toNat / 60 % 60
  second := (instant.seconds % 86400).toNat % 60
  fraction := fractionDigits instant.nanoseconds
  zone := .universal 'Z'
  date_valid := CivilDate.isValid_ofDays _
  separator_mem := Or.inl rfl
  hour_lt := by omega
  minute_lt := by omega
  second_lt := by omega
  fraction_lt := fun _ => lt_of_mem_fractionDigits
  zone_valid := Or.inl rfl

theorem text_eq {instant : Instant} (whole : instant.nanoseconds < nanosPerSecond) :
    instant.text = instant.universal.text := by
  have noLeap : ¬ nanosPerSecond ≤ instant.nanoseconds := Nat.not_le.mpr whole
  have month := instant.universal.month_lt
  have day := instant.universal.day_lt
  have hour := instant.universal.hour_lt
  have minute := instant.universal.minute_lt
  have second := instant.universal.second_lt
  simp only [universal] at month day hour minute second
  simp only [text, Stamp.text, textChars, Stamp.chars, universal, if_neg noLeap, Nat.add_zero,
    fractionText_eq whole, Zone.chars]
  simp (disch := omega) only [padded_two, List.append_assoc, List.cons_append]

theorem fraction_universal (instant : Instant) :
    instant.universal.fraction = fractionDigits instant.nanoseconds :=
  rfl

theorem isCanonical_universal {instant : Instant} (whole : instant.nanoseconds < nanosPerSecond) :
    instant.universal.IsCanonical where
  zone := rfl
  separator := rfl
  width := by
    rw [fraction_universal, length_fractionDigits]
    exact fractionWidth_mem instant.nanoseconds
  fewest := by
    intro digits choice same
    rw [fraction_universal, nanosecondsOf_fractionDigits whole] at same
    rw [fraction_universal, ← same]
    exact length_fractionDigits_le choice

/-- The stamp that is written denotes the instant. -/
theorem instant_universal {instant : Instant} (whole : instant.nanoseconds < nanosPerSecond) :
    instant.universal.instant = instant := by
  rcases instant with ⟨seconds, nanoseconds⟩
  simp only [universal, Stamp.instant, CivilDate.dayNumber_ofDays,
    nanosecondsOf_fractionDigits whole, Zone.offset, Instant.mk.injEq, and_true]
  omega

/-- An instant of the years 0 to 9999 that is not in a leap second. -/
structure IsCivil (instant : Instant) : Prop where
  first : CivilDate.daysBeforeYear 0 * 86400 ≤ instant.seconds
  last : instant.seconds < CivilDate.daysBeforeYear 10000 * 86400
  whole : instant.nanoseconds < nanosPerSecond

theorem IsCivil.year_universal {instant : Instant} (civil : instant.IsCivil) :
    0 ≤ instant.universal.date.year ∧ instant.universal.date.year ≤ 9999 := by
  have valid := instant.universal.date_valid
  have first := CivilDate.year_lt_iff valid 0
  have last := CivilDate.year_lt_iff valid 10000
  have number : instant.universal.date.dayNumber = instant.seconds / 86400 :=
    CivilDate.dayNumber_ofDays _
  have after := civil.first
  have before := civil.last
  rw [number] at first last
  omega

/-- Reading undoes writing. -/
theorem ofText?_text {instant : Instant} (civil : instant.IsCivil) :
    ofText? instant.text = some instant := by
  have year := civil.year_universal
  rw [text_eq civil.whole, instant.universal.ofText?_text (by omega) (by omega),
    instant_universal civil.whole]

end Instant
end ExportVolumes
