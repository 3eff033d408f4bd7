import ExportVolumes.Text.Blank
import ExportVolumes.Time.Calendar

namespace ExportVolumes

/-!
Instants of time and their RFC 3339 texts.

An instant is written in universal time with `Z` and the fewest of 0, 3, 6 or 9 fraction
digits that lose nothing.  Reading takes any offset of whole minutes, and is lenient about
blanks around and between the parts of a text, about leading zeros and about the case of `T`
and `Z`.
-/

/-- An instant in universal time.  From the thousand millionth on, the nanoseconds are those
of a leap second. -/
structure Instant where
  /-- Seconds from 1970-01-01T00:00:00Z, leap seconds not counted. -/
  seconds : Int
  nanoseconds : Nat
  deriving DecidableEq, Repr

namespace Instant

/-- The nanoseconds of a second. -/
def nanosPerSecond : Nat := 1000000000

/-- The years that can be written. -/
def yearInRange (year : Int) : Bool :=
  -262143 ≤ year && year ≤ 262142

/-! ## Writing -/

/-- A number in at least `width` digits. -/
def padded (width : Nat) (value : Nat) : List Char :=
  let digits := Nat.toDigits 10 value
  List.replicate (width - digits.length) '0' ++ digits

/-- A year: four digits, and outside of 0 to 9999 a sign in front of them. -/
def yearText (year : Int) : List Char :=
  if 0 ≤ year ∧ year ≤ 9999 then padded 4 year.toNat
  else if 0 ≤ year then '+' :: padded 4 year.toNat
  else '-' :: padded 4 year.natAbs

/-- The fewest of 0, 3, 6 or 9 fraction digits. -/
def fractionText (nanoseconds : Nat) : List Char :=
  if nanoseconds = 0 then []
  else if nanoseconds % 1000000 = 0 then '.' :: padded 3 (nanoseconds / 1000000)
  else if nanoseconds % 1000 = 0 then '.' :: padded 6 (nanoseconds / 1000)
  else '.' :: padded 9 nanoseconds

/-- The text of an instant, as characters. -/
def textChars (instant : Instant) : List Char :=
  let date := CivilDate.ofDays (instant.seconds / 86400)
  let ofDay := (instant.seconds % 86400).toNat
  let leap := nanosPerSecond ≤ instant.nanoseconds
  let second := ofDay % 60 + (if leap then 1 else 0)
  let nanoseconds := if leap then instant.nanoseconds - nanosPerSecond else instant.nanoseconds
  yearText date.year ++ '-' :: padded 2 date.month ++ '-' :: padded 2 date.day ++
    'T' :: padded 2 (ofDay / 3600) ++ ':' :: padded 2 (ofDay / 60 % 60) ++
    ':' :: padded 2 second ++ fractionText nanoseconds ++ ['Z']

/-- The text of an instant. -/
def text (instant : Instant) : String :=
  String.ofList instant.textChars

/-! ## Reading

Each reader takes its part off the front of a text and hands on the rest. -/

/-- The value of a digit. -/
def digit? (c : Char) : Option Nat :=
  if c.isDigit then some (c.toNat - '0'.toNat) else none

/-- At most `most` digits, read onto `value`. -/
def digits : Nat → Nat → List Char → Nat × List Char
  | 0, value, text => (value, text)
  | _ + 1, value, [] => (value, [])
  | most + 1, value, c :: text =>
      match digit? c with
      | some digit => digits most (value * 10 + digit) text
      | none => (value, c :: text)

/-- A number of one to `most` digits. -/
def number? (most : Nat) (text : List Char) : Option (Nat × List Char) :=
  match text with
  | [] => none
  | c :: _ => if c.isDigit then some (digits most 0 text) else none

/-- A number after blanks. -/
def field? (most : Nat) (text : List Char) : Option (Nat × List Char) :=
  number? most (Text.dropBlanks text)

/-- A year after blanks: up to four digits, or a sign and any number of digits. -/
def year? (text : List Char) : Option (Int × List Char) :=
  match Text.dropBlanks text with
  | '-' :: rest => (number? rest.length rest).map (fun found => (-(found.1 : Int), found.2))
  | '+' :: rest => (number? rest.length rest).map (fun found => ((found.1 : Int), found.2))
  | rest => (number? 4 rest).map (fun found => ((found.1 : Int), found.2))

/-- A mark after blanks. -/
def mark? (mark : Char) (text : List Char) : Option (List Char) :=
  match Text.dropBlanks text with
  | c :: rest => if c = mark then some rest else none
  | [] => none

/-- An optional fraction of a second, in nanoseconds.  Digits after the ninth are dropped. -/
def fraction? (text : List Char) : Option (Nat × List Char) :=
  match text with
  | '.' :: rest =>
      (number? 9 rest).map fun found =>
        let taken := rest.length - found.2.length
        (found.1 * Nat.pow 10 (9 - taken), found.2.dropWhile Char.isDigit)
  | _ => some (0, text)

/-- Two digits. -/
def twoDigits? : List Char → Option (Nat × List Char)
  | first :: second :: rest => do
      let tens ← digit? first
      let units ← digit? second
      return (tens * 10 + units, rest)
  | _ => none

/-- Hours and minutes of an offset, in seconds. -/
def offsetSize? (text : List Char) : Option (Nat × List Char) := do
  let (hours, rest) ← twoDigits? text
  let (minutes, rest) ← twoDigits? (rest.dropWhile (fun c => c = ':' || Text.isBlank c))
  if minutes < 60 ∧ hours < 24 then some (hours * 3600 + minutes * 60, rest) else none

/-- An offset from universal time, in seconds. -/
def offset? : List Char → Option (Int × List Char)
  | 'Z' :: rest | 'z' :: rest => some (0, rest)
  | '+' :: rest => (offsetSize? rest).map (fun found => ((found.1 : Int), found.2))
  | '-' :: rest | '−' :: rest => (offsetSize? rest).map (fun found => (-(found.1 : Int), found.2))
  | first :: second :: third :: rest =>
      if first.toUpper = 'U' ∧ second.toUpper = 'T' ∧ third.toUpper = 'C' then some (0, rest)
      else none
  | _ => none

/-- A date. -/
def date? (text : List Char) : Option (CivilDate × List Char) := do
  let (year, rest) ← year? text
  let rest ← mark? '-' rest
  let (month, rest) ← field? 2 rest
  let rest ← mark? '-' rest
  let (day, rest) ← field? 2 rest
  return (⟨year, month, day⟩, rest)

/-- A time of day with its offset: the seconds of the day in universal time, which may lie
outside of the day, and the nanoseconds. -/
def time? (text : List Char) : Option (Int × Nat × List Char) := do
  let (hour, rest) ← field? 2 text
  let rest ← mark? ':' rest
  let (minute, rest) ← field? 2 rest
  let rest ← mark? ':' rest
  let (second, rest) ← field? 2 rest
  let (nanoseconds, rest) ← fraction? rest
  let (offset, rest) ← offset? (Text.dropBlanks rest)
  if 23 < hour ∨ 59 < minute ∨ 60 < second then none
  else
    let whole : Nat := hour * 3600 + minute * 60 + min second 59
    let nanoseconds := if second = 60 then nanoseconds + nanosPerSecond else nanoseconds
    some ((whole : Int) - offset, nanoseconds, rest)

/-- Read an instant from the whole of a text. -/
def ofChars? (text : List Char) : Option Instant := do
  let (date, rest) ← date? text
  let rest ←
    match rest with
    | 'T' :: rest | 't' :: rest | ' ' :: rest => some rest
    | _ => none
  let (ofDay, nanoseconds, rest) ← time? rest
  let seconds := date.toDays * 86400 + ofDay
  if (Text.dropBlanks rest).isEmpty && date.isValid && yearInRange date.year &&
      yearInRange (CivilDate.ofDays (seconds / 86400)).year then
    some { seconds, nanoseconds }
  else none

/-- Read an instant from the whole of a text. -/
def ofText? (text : String) : Option Instant :=
  ofChars? text.toList

end Instant
end ExportVolumes
