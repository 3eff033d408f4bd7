import ExportVolumes.Yaml.Cursor

namespace ExportVolumes
namespace Yaml

/-!
Reading of scalars in the five styles.

A reader stands at the first character of a scalar and gives its text and the place behind
it.  It fails where the text of a scalar is malformed.
-/

/-! ## Gaps between the words of a scalar -/

/-- What stands between two words of a scalar: blanks, or breaks with blanks around them. -/
structure Gap where
  blanks : List Char := []
  broken : Bool := false
  first : Option Char := none
  later : List Char := []

namespace Gap

/-- What a gap stands for.  A single line feed becomes a space; of several, the first is
dropped. -/
def text (gap : Gap) : List Char :=
  if gap.broken then
    match gap.first with
    | some '\n' => if gap.later.isEmpty then [' '] else gap.later
    | some other => other :: gap.later
    | none => gap.later
  else gap.blanks

/-- The gap with one more break. -/
def addBreak (gap : Gap) (c : Char) : Gap :=
  if gap.broken then { gap with later := gap.later ++ [breakText c] }
  else { gap with blanks := [], broken := true, first := some (breakText c) }

/-- Read on through a gap.  After a break, a tab may not stand left of `floor`. -/
def readFrom (floor : Nat) : Gap → List Char → Cursor → Option (Gap × Cursor)
  | gap, [], c => some (gap, { c with rest := [] })
  | gap, first :: rest, c =>
      if isBlank first then
        if gap.broken && first = '\t' && c.column < floor then none
        else
          readFrom floor (if gap.broken then gap else { gap with blanks := gap.blanks ++ [first] })
            rest { c with index := c.index + 1, column := c.column + 1 }
      else if isBreak first then
        if first = '\r' && rest.head? = some '\n' then
          readFrom floor gap rest { c with index := c.index + 1 }
        else
          readFrom floor (gap.addBreak first) rest
            { c with index := c.index + first.utf8Size, line := c.line + 1, column := 0 }
      else some (gap, { c with rest := first :: rest })

end Gap

/-! ## Plain scalars -/

/-- A character that ends a plain scalar inside of brackets. -/
def isFlowMark (c : Char) : Bool :=
  c = ',' || c = '[' || c = ']' || c = '{' || c = '}'

/-- A character that no plain scalar begins with. -/
def isIndicator (c : Char) : Bool :=
  "-?:,[]\x7b\x7d#&*!|>'\"%@\x60".toList.contains c

/-- Whether a plain scalar begins here. -/
def startsPlain (flow : Bool) : List Char → Bool
  | [] => false
  | c :: rest =>
      if isBlank c || isBreak c then false
      else !isIndicator c || (c = '-' && !breaksOff rest) ||
        (!flow && (c = '?' || c = ':') && !breaksOff rest)

/-- The characters of a plain scalar up to a blank or a break, or to its end. -/
def plainRun (flow : Bool) : List Char → Option (List Char × List Char)
  | [] => some ([], [])
  | c :: rest =>
      if isBlank c || isBreak c then some ([], c :: rest)
      else if flow && c = ':' && rest.head?.any (fun next => isFlowMark next || next = '?') then none
      else if (c = ':' && breaksOff rest) || (flow && isFlowMark c) then some ([], c :: rest)
      else (plainRun flow rest).map (fun found => (c :: found.1, found.2))

/-- Read on through a plain scalar of which `text` was read, with `gap` behind it. -/
def plainFrom (flow : Bool) (floor : Nat) :
    Nat → Cursor → List Char → Gap → Option (List Char × Cursor)
  | 0, _, _, _ => none
  | fuel + 1, c, text, gap =>
      let ended := some (text, { c with fresh := gap.broken })
      if c.atDocumentMark || c.rest.head? = some '#' then ended
      else
        match plainRun flow c.rest with
        | none => none
        | some ([], _) => ended
        | some (run, after) =>
            let text := text ++ gap.text ++ run
            let c := { c.passTo after with fresh := false }
            if after.head?.any (fun next => isBlank next || isBreak next) then
              match Gap.readFrom floor {} c.rest c with
              | none => none
              | some (gap, c) =>
                  if !flow && c.column < floor then some (text, { c with fresh := gap.broken })
                  else plainFrom flow floor fuel c text gap
            else some (text, c)

/-- Read a plain scalar.  Its further lines are indented at least by `floor`. -/
def plain (flow : Bool) (floor : Nat) (c : Cursor) : Option (List Char × Cursor) :=
  plainFrom flow floor (c.rest.length + 1) c [] {}

/-! ## Quoted scalars -/

/-- The characters of a single-quoted scalar up to a blank, a break or its end. -/
def singleRun : List Char → List Char × List Char
  | '\'' :: '\'' :: rest => ('\'' :: (singleRun rest).1, (singleRun rest).2)
  | c :: rest =>
      if c = '\'' || isBlank c || isBreak c then ([], c :: rest)
      else (c :: (singleRun rest).1, (singleRun rest).2)
  | [] => ([], [])

/-- What a character stands for behind a backslash. -/
def escaped? : Char → Option Char
  | '0' => some '\x00'
  | 'a' => some '\x07'
  | 'b' => some '\x08'
  | 't' | '\t' => some '\t'
  | 'n' => some '\n'
  | 'v' => some '\x0B'
  | 'f' => some '\x0C'
  | 'r' => some '\r'
  | 'e' => some '\x1B'
  | ' ' => some ' '
  | '"' => some '"'
  | '/' => some '/'
  | '\\' => some '\\'
  | 'N' => some '\x85'
  | '_' => some '\xA0'
  | 'L' => some '\u2028'
  | 'P' => some '\u2029'
  | _ => none

/-- How many hexadecimal digits follow a character behind a backslash. -/
def codeWidth? : Char → Option Nat
  | 'x' => some 2
  | 'u' => some 4
  | 'U' => some 8
  | _ => none

/-- The value of a hexadecimal digit. -/
def hexDigit? (c : Char) : Option Nat :=
  if '0' ≤ c ∧ c ≤ '9' then some (c.toNat - '0'.toNat)
  else if 'a' ≤ c ∧ c ≤ 'f' then some (c.toNat - 'a'.toNat + 10)
  else if 'A' ≤ c ∧ c ≤ 'F' then some (c.toNat - 'A'.toNat + 10)
  else none

/-- The characters of a double-quoted scalar up to a blank, a break or its end, and whether
they end in a backslash before a break.  `missing` hexadecimal digits of a code are still to
be read onto `code`. -/
def doubleRun : (missing code : Nat) → List Char → Option (List Char × List Char × Bool)
  | 0, _, [] => some ([], [], false)
  | _ + 1, _, [] => none
  | missing + 1, code, c :: rest =>
      match hexDigit? c with
      | none => none
      | some digit =>
          let code := code * 16 + digit
          if missing = 0 then
            if code.isValidChar then
              (doubleRun 0 0 rest).map (fun found => (Char.ofNat code :: found.1, found.2))
            else none
          else doubleRun missing code rest
  | 0, _, '\\' :: c :: rest =>
      if isBreak c then some ([], c :: rest, true)
      else
        match codeWidth? c with
        | some width => doubleRun width 0 rest
        | none =>
            match escaped? c with
            | some meant => (doubleRun 0 0 rest).map (fun found => (meant :: found.1, found.2))
            | none => none
  | 0, _, ['\\'] => none
  | 0, _, c :: rest =>
      if c = '"' || isBlank c || isBreak c then some ([], c :: rest, false)
      else (doubleRun 0 0 rest).map (fun found => (c :: found.1, found.2))

/-- Read on through a quoted scalar of which `text` was read. -/
def quotedFrom (double : Bool) : Nat → Cursor → List Char → Option (List Char × Cursor)
  | 0, _, _ => none
  | fuel + 1, c, text =>
      if c.atDocumentMark then none
      else
        let found :=
          if double then doubleRun 0 0 c.rest
          else some ((singleRun c.rest).1, (singleRun c.rest).2, false)
        match found with
        | none => none
        | some (run, after, escapedBreak) =>
            let c := c.passTo after
            let text := text ++ run
            if escapedBreak then
              let c := c.passBreak
              match Gap.readFrom 0 { broken := true } c.rest c with
              | none => none
              | some (gap, c) => quotedFrom double fuel c (text ++ gap.text)
            else
              match after with
              | [] => none
              | next :: _ =>
                  if next = (if double then '"' else '\'') then
                    some (text, { c.pass 1 with fresh := false })
                  else
                    match Gap.readFrom 0 {} c.rest c with
                    | none => none
                    | some (gap, c) => quotedFrom double fuel c (text ++ gap.text)

/-- Read a quoted scalar from the character behind its opening quote. -/
def quoted (double : Bool) (c : Cursor) : Option (List Char × Cursor) :=
  quotedFrom double (c.rest.length + 1) c []

/-! ## Block scalars -/

/-- What becomes of the breaks at the end of a block scalar. -/
inductive Chomping where
  | strip
  | clip
  | keep
  deriving DecidableEq, Repr

/-- The mark of a way of chomping. -/
def chomping? : Char → Option Chomping
  | '-' => some .strip
  | '+' => some .keep
  | _ => none

/-- The digit that gives the indentation of a block scalar. -/
def indentDigit? (c : Char) : Option Nat :=
  if c.isDigit then some (c.toNat - '0'.toNat) else none

/-- The chomping and the indentation digit behind the mark of a block scalar, 0 for none. -/
def blockHeader? : List Char → Option (Chomping × Nat × List Char)
  | [] => some (.clip, 0, [])
  | c :: rest =>
      match chomping? c with
      | some chomping =>
          match rest with
          | [] => some (chomping, 0, [])
          | d :: after =>
              match indentDigit? d with
              | some 0 => none
              | some digit => some (chomping, digit, after)
              | none => some (chomping, 0, rest)
      | none =>
          match indentDigit? c with
          | some 0 => none
          | some digit =>
              match rest with
              | [] => some (.clip, digit, [])
              | d :: after =>
                  match chomping? d with
                  | some chomping => some (chomping, digit, after)
                  | none => some (.clip, digit, rest)
          | none => some (.clip, 0, c :: rest)

/-- The rest of a line that holds nothing but blanks and a comment. -/
def dropComment? (text : List Char) : Option (List Char) :=
  match text.dropWhile isBlank with
  | '#' :: rest => some (rest.dropWhile (fun c => !isBreak c))
  | [] => some []
  | c :: rest => if isBreak c then some (c :: rest) else none

/-- Skip the indentation of a block scalar and its empty lines: the widest indentation, the
breaks, and the place behind them.  An indentation of 0 is still to be found out. -/
def emptyLines (indent : Nat) :
    (widest : Nat) → (breaks : List Char) → List Char → Cursor → Option (Nat × List Char × Cursor)
  | widest, breaks, [], c => some (max widest c.column, breaks, { c with rest := [] })
  | widest, breaks, first :: rest, c =>
      if first = ' ' && (indent = 0 || c.column < indent) then
        emptyLines indent widest breaks rest { c with index := c.index + 1, column := c.column + 1 }
      else if first = '\t' && (indent = 0 || c.column < indent) then none
      else if isBreak first then
        if first = '\r' && rest.head? = some '\n' then
          emptyLines indent widest breaks rest { c with index := c.index + 1 }
        else
          emptyLines indent (max widest c.column) (breaks ++ [breakText first]) rest
            { c with index := c.index + first.utf8Size, line := c.line + 1, column := 0 }
      else some (max widest c.column, breaks, { c with rest := first :: rest })

/-- The text of a block scalar up to its last line, the break behind that line, and the breaks
of the empty lines that follow. -/
structure BlockText where
  text : List Char := []
  lineEnd : List Char := []
  later : List Char := []
  /-- Whether the last line begins with a blank. -/
  indented : Bool := false

/-- What stands between the last line of a block scalar and the next one. -/
def BlockText.between (block : BlockText) (folded nextIndented : Bool) : List Char :=
  if folded && block.lineEnd = ['\n'] && !block.indented && !nextIndented then
    if block.later.isEmpty then [' '] else block.later
  else block.lineEnd ++ block.later

/-- Read the lines of a block scalar. -/
def blockLines (folded : Bool) (indent : Nat) :
    Nat → Cursor → BlockText → Option (BlockText × Cursor)
  | 0, _, _ => none
  | fuel + 1, c, block =>
      if c.column ≠ indent || c.rest.isEmpty then some (block, c)
      else
        let indented := c.rest.head?.any isBlank
        let line := c.rest.takeWhile (fun next => !isBreak next)
        let text := block.text ++ block.between folded indented ++ line
        let c := c.passTo (c.rest.dropWhile (fun next => !isBreak next))
        let lineEnd := c.rest.head?.toList.map breakText
        let c := c.passBreak
        match emptyLines indent 0 [] c.rest c with
        | none => none
        | some (_, later, c) => blockLines folded indent fuel c { text, lineEnd, later, indented }

/-- Read a block scalar from the character behind its mark.  `floor` is the least indentation
of its lines. -/
def block (folded : Bool) (floor : Nat) (c : Cursor) : Option (List Char × Cursor) :=
  match blockHeader? c.rest with
  | none => none
  | some (chomping, digit, rest) =>
      match dropComment? rest with
      | none => none
      | some rest =>
          let c := (c.passTo rest).passBreak
          let given := if digit = 0 then 0 else (floor - 1) + digit
          match emptyLines given 0 [] c.rest c with
          | none => none
          | some (widest, later, c) =>
              let indent := if given = 0 then max widest (max floor 1) else given
              match blockLines folded indent (c.rest.length + 1) c { later } with
              | none => none
              | some (block, c) =>
                  let tail :=
                    match chomping with
                    | .strip => []
                    | .clip => block.lineEnd
                    | .keep => block.lineEnd ++ block.later
                  some (block.text ++ tail, { c with fresh := true })

end Yaml
end ExportVolumes
