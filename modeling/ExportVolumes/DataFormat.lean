import ExportVolumes.Dictionary

namespace ExportVolumes

/-!
What a data format has to tell about its values so that models can be read from them.

The readers of models are written once, against this interface.  Each format decides for
itself which of its values are texts, which stand for an absent option, and so on.
-/

/-- How the values `ν` of a format are looked at.  Each question has no answer for a value
of the wrong kind. -/
structure DataFormat (ν : Type) where
  /-- The text of a value where a text is wanted. -/
  text? : ν → Option String
  /-- Whether the value stands for an absent option. -/
  absent? : ν → Option Bool
  /-- The fields of a record with the given field names. -/
  record? : List String → ν → Option (List (String × ν))
  /-- The entries of a dictionary. -/
  table? : ν → Option (List (String × ν))
  /-- The items of a list. -/
  items? : ν → Option (List ν)
  /-- A truth value. -/
  flag? : ν → Option Bool
  /-- A word out of a fixed choice. -/
  word? : ν → Option String

namespace DataFormat

variable {ν : Type} {α : Type}

/-- The fields of a record none of whose named fields is given twice. -/
def fields? (format : DataFormat ν) (names : List String) (value : ν) :
    Option (List (String × ν)) :=
  match format.record? names value with
  | none => none
  | some fields =>
      if names.all (fun name => (fields.filter (·.1 = name)).length ≤ 1) then some fields else none

/-- Read a field that has to be there. -/
def required? (fields : List (String × ν)) (name : String) (read : ν → Option α) : Option α :=
  (fields.lookup name).bind read

/-- Read a field that has a default. -/
def defaulted? (fields : List (String × ν)) (name : String) (default : α)
    (read : ν → Option α) : Option α :=
  match fields.lookup name with
  | none => some default
  | some value => read value

/-- Read a field that may be absent. -/
def optional? (format : DataFormat ν) (fields : List (String × ν)) (name : String)
    (read : ν → Option α) : Option (Option α) :=
  match fields.lookup name with
  | none => some none
  | some value =>
      match format.absent? value with
      | none => none
      | some true => some none
      | some false => (read value).map some

/-- Read a list of values. -/
def list? (format : DataFormat ν) (read : ν → Option α) (value : ν) : Option (List α) :=
  (format.items? value).bind (·.mapM read)

/-- Read a dictionary of texts.  Of entries with one key the last is kept. -/
def texts? (format : DataFormat ν) (value : ν) : Option (Dictionary String) :=
  match format.table? value with
  | none => none
  | some entries =>
      (entries.mapM (fun entry => (format.text? entry.2).map (fun text => (entry.1, text)))).map
        Dictionary.ofList

/-- Read one of the words of a fixed choice. -/
def choice? (format : DataFormat ν) (ofWord? : String → Option α) (value : ν) : Option α :=
  (format.word? value).bind ofWord?

end DataFormat
end ExportVolumes
