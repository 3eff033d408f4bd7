namespace ExportVolumes
namespace Yaml

/-!
A place in a YAML text, and the characters that matter to the structure of the text.
-/

/-- A line break. -/
def isBreak (c : Char) : Bool :=
  c = '\n' || c = '\r' || c = '\x85' || c = '\u2028' || c = '\u2029'

/-- A space or a tab. -/
def isBlank (c : Char) : Bool :=
  c = ' ' || c = '\t'

/-- The text that a line break stands for. -/
def breakText (c : Char) : Char :=
  if c = '\u2028' || c = '\u2029' then c else '\n'

/-- Whether a text is at its end, or goes on with a blank or a break. -/
def breaksOff : List Char → Bool
  | [] => true
  | c :: _ => isBlank c || isBreak c

/-- Whether a character may stand in a text at all. -/
def isAllowed (c : Char) : Bool :=
  let code := c.toNat
  c = '\t' || c = '\n' || c = '\r' || (0x20 ≤ code && code ≤ 0x7E) || code = 0x85 ||
    (0xA0 ≤ code && code ≤ 0xFFFD) || 0x10000 ≤ code

/-- The number of octets of a text in UTF-8. -/
def octetCount (text : List Char) : Nat :=
  text.foldl (fun size c => size + c.utf8Size) 0

/-- The mark of the order of octets, which is nothing but blank where it opens a line. -/
def orderMark : Char := '\uFEFF'

/-- A place in a text. -/
structure Cursor where
  rest : List Char
  /-- The number of octets before the place. -/
  index : Nat := 0
  line : Nat := 0
  column : Nat := 0
  /-- Whether a collection in block style, or a mapping key without a mark, may begin here:
  at the start of a line, or right behind the mark of an item. -/
  fresh : Bool := true
  /-- The number of each anchor name, the latest first. -/
  anchors : List (String × Nat) := []
  /-- What the handles of tags stand for. -/
  handles : List (String × String) := [("!", "!"), ("!!", "tag:yaml.org,2002:")]
  deriving Inhabited, Repr

namespace Cursor

/-- Go on to a later place of the line, from which `rest` is left. -/
def passTo (c : Cursor) (rest : List Char) : Cursor :=
  let passed := c.rest.length - rest.length
  { c with
    rest, index := c.index + octetCount (c.rest.take passed), column := c.column + passed }

/-- Go on by some characters of the line. -/
def pass (c : Cursor) (count : Nat) : Cursor :=
  c.passTo (c.rest.drop count)

/-- Go on to the next line from the break at its end.  A carriage return and a line feed are
one break. -/
def passBreak (c : Cursor) : Cursor :=
  let next := { c with line := c.line + 1, column := 0 }
  match c.rest with
  | '\r' :: '\n' :: rest => { next with rest, index := c.index + 2 }
  | first :: rest => { next with rest, index := c.index + first.utf8Size }
  | [] => c

/-- Whether there is the mark of a new or of a finished document. -/
def atDocumentMark (c : Cursor) : Bool :=
  c.column = 0 &&
    match c.rest with
    | '-' :: '-' :: '-' :: rest => breaksOff rest
    | '.' :: '.' :: '.' :: rest => breaksOff rest
    | _ => false

/-- Whether every open block collection ends here. -/
def atEnd (c : Cursor) : Bool :=
  c.rest.isEmpty || c.atDocumentMark || (c.column = 0 && c.rest.head? = some '%')

/-- Whether there is a mark that is followed by a blank, a break or the end. -/
def atMark (c : Cursor) (mark : Char) : Bool :=
  match c.rest with
  | first :: rest => first = mark && breaksOff rest
  | [] => false

/-- Skip blanks, breaks and comments.  A tab is skipped only where it does not indent, an order
mark only where it opens a line. -/
def skipFrom (flow : Bool) : Bool → List Char → Cursor → Cursor
  | _, [], c => { c with rest := [] }
  | comment, first :: rest, c =>
      if isBreak first then
        if first = '\r' && rest.head? = some '\n' then
          skipFrom flow comment rest { c with index := c.index + 1 }
        else
          skipFrom flow false rest
            { c with
              index := c.index + first.utf8Size, line := c.line + 1, column := 0,
              fresh := c.fresh || !flow }
      else
        let next := { c with index := c.index + first.utf8Size, column := c.column + 1 }
        if comment || first = ' ' || (first = '\t' && (flow || !c.fresh)) ||
            (first = orderMark && c.column = 0) then
          skipFrom flow comment rest next
        else if first = '#' then skipFrom flow true rest next
        else { c with rest := first :: rest }

/-- Go on to the next character that is not blank, break or comment. -/
def skip (c : Cursor) (flow : Bool) : Cursor :=
  skipFrom flow false c.rest c

/-- Whether a later place of a text can still end a key that begins here: on the same line, and
within 1024 octets. -/
def keyReaches (c : Cursor) (later : Cursor) : Bool :=
  c.line = later.line && later.index ≤ c.index + 1024

end Cursor
end Yaml
end ExportVolumes
