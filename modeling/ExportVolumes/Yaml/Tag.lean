import ExportVolumes.Yaml.Scalar

namespace ExportVolumes
namespace Yaml

/-!
Tags and anchor names, and the directives before a document, which give the handles of tags
their meaning.
-/

/-! ## Names -/

/-- A character of an anchor name. -/
def isNameChar (c : Char) : Bool :=
  c.isAlphanum || c = '_' || c = '-'

/-- The name of an anchor or an alias, which something else has to end. -/
def anchorName? (text : List Char) : Option (String × List Char) :=
  let name := text.takeWhile isNameChar
  let rest := text.dropWhile isNameChar
  if name.isEmpty then none
  else if breaksOff rest || rest.head?.any ("?:,]\x7d%@\x60".toList.contains ·) then
    some (String.ofList name, rest)
  else none

/-! ## Tags -/

/-- A character of the part of a tag that names a kind. -/
def isTagChar (c : Char) : Bool :=
  isNameChar c || ";/?:@&=+$.!~*'()".toList.contains c

/-- A character of a tag that is given in full. -/
def isFullTagChar (c : Char) : Bool :=
  isTagChar c || c = ',' || c = '[' || c = ']'

/-- The octets of a part of a tag.  A percent sign and two hexadecimal digits give any octet. -/
def tagOctets? (inside : Char → Bool) : List Char → Option (List UInt8 × List Char)
  | '%' :: high :: low :: rest => do
      let high ← hexDigit? high
      let low ← hexDigit? low
      let (octets, rest) ← tagOctets? inside rest
      some (UInt8.ofNat (16 * high + low) :: octets, rest)
  | c :: rest =>
      if c = '%' then none
      else if inside c then
        (tagOctets? inside rest).map
          (fun found => (UInt8.ofNat c.toNat :: found.1, found.2))
      else some ([], c :: rest)
  | [] => some ([], [])

/-- The text of a part of a tag. -/
def tagText? (inside : Char → Bool) (text : List Char) : Option (String × List Char) := do
  let (octets, rest) ← tagOctets? inside text
  some (← String.fromUTF8? ⟨octets.toArray⟩, rest)

/-- The tag behind an exclamation mark.  A handle, which two exclamation marks enclose, stands
for the start of a tag. -/
def tagBody? (handles : List (String × String)) : List Char → Option (String × List Char)
  | '<' :: text => do
      match ← tagText? isFullTagChar text with
      | (tag, '>' :: rest) => if tag.isEmpty then none else some (tag, rest)
      | _ => none
  | text => do
      let name := String.ofList (text.takeWhile isNameChar)
      match text.dropWhile isNameChar with
      | '!' :: text =>
          let (kind, rest) ← tagText? isTagChar text
          if kind.isEmpty then none
          else some ((← handles.lookup ("!" ++ name ++ "!")) ++ kind, rest)
      | text =>
          let (kind, rest) ← tagText? isTagChar text
          if name.isEmpty && kind.isEmpty then some ("!", rest)
          else some ((← handles.lookup "!") ++ name ++ kind, rest)

/-- The tag behind an exclamation mark, which a blank has to end. -/
def tag? (handles : List (String × String)) (flow : Bool) (text : List Char) :
    Option (String × List Char) :=
  match tagBody? handles text with
  | none => none
  | some (tag, rest) =>
      if breaksOff rest || (flow && rest.head? = some ',') then some (tag, rest) else none

/-! ## Directives -/

/-- What the directives before a document state. -/
structure Directives where
  versioned : Bool := false
  handles : List (String × String) := []

/-- A number of a version, of at most nine digits. -/
def versionNumber? (text : List Char) : Option (Nat × List Char) :=
  let digits := text.takeWhile Char.isDigit
  if digits.isEmpty || 9 < digits.length then none
  else some (Nat.ofDigitChars 10 digits 0, text.drop digits.length)

/-- The directive that states the version of YAML, of which 1.1 and 1.2 are read. -/
def Directives.addVersion? (directives : Directives) (text : List Char) :
    Option (Directives × List Char) := do
  let (major, rest) ← versionNumber? (text.dropWhile isBlank)
  match rest with
  | '.' :: rest =>
      let (minor, rest) ← versionNumber? rest
      if !directives.versioned && major = 1 && (minor = 1 || minor = 2) then
        some ({ directives with versioned := true }, rest)
      else none
  | _ => none

/-- The directive that gives a handle its meaning, which is done once. -/
def Directives.addHandle? (directives : Directives) (text : List Char) :
    Option (Directives × List Char) :=
  match text.dropWhile isBlank with
  | '!' :: rest =>
      let name := rest.takeWhile isNameChar
      match rest.drop name.length with
      | '!' :: rest => define ("!" ++ String.ofList name ++ "!") rest
      | rest => if name.isEmpty then define "!" rest else none
  | _ => none
where
  define (handle : String) (rest : List Char) : Option (Directives × List Char) := do
    let (start, after) ← tagText? isFullTagChar (rest.dropWhile isBlank)
    if !rest.head?.any isBlank || start.isEmpty || !breaksOff after ||
        (directives.handles.lookup handle).isSome then none
    else some ({ directives with handles := (handle, start) :: directives.handles }, after)

/-- Read the directive of a line. -/
def Directives.addLine? (directives : Directives) (line : List Char) : Option Directives := do
  let name := line.takeWhile isNameChar
  let text := line.drop name.length
  if !breaksOff text then none
  else
    let (directives, rest) ←
      if name = "YAML".toList then directives.addVersion? text
      else if name = "TAG".toList then directives.addHandle? text
      else none
    if (← dropComment? rest).isEmpty then some directives else none

/-- Read the directives up to the next thing in a text. -/
def readDirectives? : Nat → Directives → Cursor → Option (Directives × Cursor)
  | 0, _, _ => none
  | fuel + 1, directives, c => do
      if c.column = 0 && c.rest.head? = some '%' then
        let line := c.rest.tail.takeWhile (fun next => !isBreak next)
        let directives ← directives.addLine? line
        let next := (c.pass (line.length + 1)).passBreak
        readDirectives? fuel directives ({ next with fresh := false }.skip false)
      else some (directives, c)

end Yaml
end ExportVolumes
