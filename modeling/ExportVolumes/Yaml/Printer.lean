import ExportVolumes.Yaml.Cursor
import ExportVolumes.Yaml.Node
import ExportVolumes.Yaml.Resolution

namespace ExportVolumes
namespace Yaml

/-!
Printing of YAML in block style.

A text is written plain where that reads back as the same text, in a literal block when it
has several lines, and in quotes otherwise; `styleOf` makes the choice.  Lines are never
folded, so `indent` matters only to what has breaks in it.
-/

/-! ## The choice of a style -/

/-- Whether a character may be written as it is. -/
def isPrintable (c : Char) : Bool :=
  let code := c.toNat
  c = '\n' || (0x20 ≤ code && code ≤ 0x7E) || (0xA0 ≤ code && code ≤ 0xD7FF) ||
    (0xE000 ≤ code && code ≤ 0xFFFD && code ≠ 0xFEFF) || 0x10000 ≤ code

/-- Whether a character is a space or a break. -/
def isSpaceOrBreak (c : Char) : Bool :=
  c = ' ' || isBreak c

/-- Whether somewhere in a text one kind of character stands right before another. -/
def hasAdjacent (first second : Char → Bool) : List Char → Bool
  | c :: d :: rest => (first c && second d) || hasAdjacent first second (d :: rest)
  | _ => false

/-- Whether a text begins like something else than a plain scalar. -/
def startsLikeMark : List Char → Bool
  | '-' :: '-' :: '-' :: _ => true
  | '.' :: '.' :: '.' :: _ => true
  | c :: rest =>
      "#,[]\x7b\x7d&*!|>'\"%@\x60".toList.contains c ||
        ((c = '-' || c = '?') && breaksOff rest)
  | [] => false

/-- Whether there is a colon before a blank or the end, or a number sign at the beginning or
behind a blank. -/
def hasInnerMark : (afterBlank : Bool) → List Char → Bool
  | _, [] => false
  | afterBlank, c :: rest =>
      (c = ':' && breaksOff rest) || (c = '#' && afterBlank) ||
        hasInnerMark (isBlank c || isBreak c) rest

/-- Whether a text can be written plain. -/
def allowsPlain (text : List Char) : Bool :=
  !(text.head?.any isSpaceOrBreak || text.getLast?.any isSpaceOrBreak ||
    text.any (fun c => isBreak c || !isPrintable c) || startsLikeMark text ||
    hasInnerMark true text)

/-- Whether a text can be written in single quotes. -/
def allowsSingleQuotes (text : List Char) : Bool :=
  !(text.any (fun c => !isPrintable c) || hasAdjacent (· = ' ') isBreak text ||
    hasAdjacent isBreak (· = ' ') text)

/-- Whether a text can be written in a literal block. -/
def allowsLiteral (text : List Char) : Bool :=
  !(text.any (fun c => !isPrintable c) || hasAdjacent (· = ' ') isBreak text ||
    text.getLast? = some ' ')

/-- The style that a text is written in. -/
def styleOf (text : String) : ScalarStyle :=
  let chars := text.toList
  if chars.contains '\n' then
    if allowsLiteral chars then .literal else .doubleQuoted
  else if readsAsText text && allowsPlain chars then .plain
  else if allowsSingleQuotes chars then .singleQuoted
  else .doubleQuoted

/-! ## The styles -/

/-- Spaces at the front of a line. -/
def indentation (indent : Nat) : List Char :=
  List.replicate indent ' '

/-- A single-quoted text.  A quote is written twice, and so is a line feed that begins a run of
breaks. -/
def singleQuotedBody (indent : Nat) : (broken : Bool) → List Char → List Char
  | broken, [] => if broken then indentation indent else []
  | broken, c :: rest =>
      if isBreak c then
        (if c = '\n' && !broken then ['\n', c] else [c]) ++ singleQuotedBody indent true rest
      else if c = ' ' then c :: singleQuotedBody indent broken rest
      else
        (if broken then indentation indent else []) ++
          (if c = '\'' then ['\'', '\''] else [c]) ++ singleQuotedBody indent false rest

/-- A hexadecimal digit. -/
def hexDigit (value : Nat) : Char :=
  (Nat.digitChar value).toUpper

/-- A number in hexadecimal digits, `width` of them. -/
def hexDigits : (width value : Nat) → List Char
  | 0, _ => []
  | width + 1, value => hexDigits width (value / 16) ++ [hexDigit (value % 16)]

/-- The letter that stands for a character behind a backslash. -/
def escapeLetter? : Char → Option Char
  | '\x00' => some '0'
  | '\x07' => some 'a'
  | '\x08' => some 'b'
  | '\t' => some 't'
  | '\n' => some 'n'
  | '\x0B' => some 'v'
  | '\x0C' => some 'f'
  | '\r' => some 'r'
  | '\x1B' => some 'e'
  | '"' => some '"'
  | '\\' => some '\\'
  | '\x85' => some 'N'
  | '\u2028' => some 'L'
  | '\u2029' => some 'P'
  | _ => none

/-- A character behind a backslash. -/
def escaped (c : Char) : List Char :=
  match escapeLetter? c with
  | some letter => ['\\', letter]
  | none =>
      if c.toNat < 0x100 then '\\' :: 'x' :: hexDigits 2 c.toNat
      else if c.toNat < 0x10000 then '\\' :: 'u' :: hexDigits 4 c.toNat
      else '\\' :: 'U' :: hexDigits 8 c.toNat

/-- The inside of a double-quoted text. -/
def doubleQuotedBody (text : List Char) : List Char :=
  text.flatMap fun c =>
    if !isPrintable c || isBreak c || c = '"' || c = '\\' then escaped c else [c]

/-- The lines of a literal block. -/
def literalBody (indent : Nat) : (broken : Bool) → List Char → List Char
  | _, [] => []
  | broken, c :: rest =>
      if isBreak c then c :: literalBody indent true rest
      else (if broken then indentation indent else []) ++ c :: literalBody indent false rest

/-- What the mark of a literal block says: the indentation, where the text does not show it, and
what becomes of the breaks at the end. -/
def literalHints (text : List Char) : List Char :=
  let width := if text.head?.any isSpaceOrBreak then ['2'] else []
  let chomping :=
    match text.reverse with
    | [] => ['-']
    | [last] => if isBreak last then ['+'] else ['-']
    | last :: before :: _ =>
        if !isBreak last then ['-'] else if isBreak before then ['+'] else []
  width ++ chomping

/-- A text in a style, up to the end of its last line. -/
def printIn (style : ScalarStyle) (indent : Nat) (text : List Char) : List Char :=
  match style with
  | .plain => text ++ ['\n']
  | .singleQuoted => '\'' :: singleQuotedBody indent false text ++ ['\'', '\n']
  | .doubleQuoted => '"' :: doubleQuotedBody text ++ ['"', '\n']
  | .literal | .folded =>
      '|' :: literalHints text ++ '\n' :: literalBody indent true text ++
        (if text.getLast?.any isBreak then [] else ['\n'])

/-- A text in the style that suits it, up to the end of its last line.  Further lines are
indented by `indent`. -/
def printText (indent : Nat) (text : String) : List Char :=
  printIn (styleOf text) indent text.toList

/-! ## Entries of a mapping -/

/-- An entry with a text.  `indent` is the indentation of the mapping. -/
def textEntry (indent : Nat) (key text : String) : List Char :=
  indentation indent ++ key.toList ++ ':' :: ' ' :: printText (indent + 2) text

/-- An entry that may be left out. -/
def optionalEntry (indent : Nat) (key : String) (text : Option String) : List Char :=
  match text with
  | none => []
  | some text => textEntry indent key text

/-- An entry with a truth value. -/
def flagEntry (indent : Nat) (key : String) (flag : Bool) : List Char :=
  indentation indent ++ key.toList ++ ':' :: ' ' ::
    (if flag then "true\n" else "false\n").toList

/-- An entry with a list of texts, whose dashes stand in the column of the key. -/
def listEntry (indent : Nat) (key : String) (texts : List String) : List Char :=
  if texts.isEmpty then indentation indent ++ key.toList ++ ": []\n".toList
  else
    indentation indent ++ key.toList ++ ':' :: '\n' ::
      texts.flatMap (fun text => indentation indent ++ '-' :: ' ' :: printText (indent + 2) text)

/-- An entry with a mapping, whose entries are printed at the indentation they are given. -/
def mappingEntry (indent : Nat) (key : String) (entries : Nat → List Char) : List Char :=
  indentation indent ++ key.toList ++ ':' :: '\n' :: entries (indent + 2)

end Yaml
end ExportVolumes
