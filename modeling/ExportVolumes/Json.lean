import ExportVolumes.DataFormat

namespace ExportVolumes

/-!
JSON values and how models are read from them.
-/

/-- A JSON value.  A number is its digits, as an integer, and its decimal places. -/
inductive Json where
  | null
  | bool (value : Bool)
  | number (digits : Int) (places : Nat)
  | text (value : String)
  | list (items : List Json)
  | object (fields : List (String × Json))
  deriving Inhabited

namespace Json

/-- A whole number. -/
def nat (value : Nat) : Json := .number value 0

/-- The object of a dictionary. -/
def ofDictionary (d : Dictionary String) : Json :=
  .object (d.entries.map (fun entry => (entry.1, .text entry.2)))

/-- A list of texts. -/
def ofTexts (texts : List String) : Json :=
  .list (texts.map .text)

/-- A text, or null. -/
def ofText? : Option String → Json
  | none => .null
  | some value => .text value

/-- The field of an object. -/
def field? (name : String) : Json → Option Json
  | object fields => fields.lookup name
  | _ => none

/-- A text. -/
def text? : Json → Option String
  | text value => some value
  | _ => none

/-- A whole number below `2 ^ 32`. -/
def word32? : Json → Option UInt32
  | number digits 0 =>
      if 0 ≤ digits ∧ digits < Int.pow 2 32 then some digits.toNat.toUInt32 else none
  | _ => none

/-- The fields of a record: those of an object, or a list of values in field order, which may
leave out fields at the end. -/
def record? (names : List String) : Json → Option (List (String × Json))
  | object fields => some fields
  | list items => if items.length ≤ names.length then some (names.zip items) else none
  | _ => none

/-- A word of a fixed choice: a text, or an object with this one key and no value. -/
def word? : Json → Option String
  | text value => some value
  | object [(key, null)] => some key
  | _ => none

/-- JSON as a format: every value has the kind that it shows, and `null` is an absent option. -/
def format : DataFormat Json where
  text? := text?
  absent? | null => some true
          | _ => some false
  record? := record?
  table? | object fields => some fields
         | _ => none
  items? | list items => some items
         | _ => none
  flag? | bool value => some value
        | _ => none
  word? := word?

end Json
end ExportVolumes
