import ExportVolumes.Yaml.Node
import ExportVolumes.Yaml.Tag

namespace ExportVolumes
namespace Yaml

/-!
Reading of YAML documents.

Nodes are read by descent.  In block style a node belongs to the innermost collection that it
is indented under: `floor` is the least column that lies inside of that collection, one more
than the column of the collection itself.  A mapping begins with its first key, which is known
for one only by the colon behind it.
-/

/-! ## Properties and aliases -/

/-- Give a name the next number.  A name that is used again takes the number over that a new
name would be given. -/
def Cursor.defineAnchor (c : Cursor) (name : String) : Nat × Cursor :=
  let number := c.anchors.length
  (number, { c with anchors := (name, number) :: c.anchors.filter (fun held => held.1 ≠ name) })

/-- Read the properties of a node, each at most once; in block style only those on one line.
The place behind them is that of what follows. -/
def readProperties (flow : Bool) : Nat → Properties → Cursor → Option (Properties × Cursor)
  | 0, _, _ => none
  | fuel + 1, properties, c =>
      let continue_ := fun (properties : Properties) (after : Cursor) =>
        let next := after.skip flow
        if !flow && next.line ≠ c.line then some (properties, next)
        else readProperties flow fuel properties next
      match c.rest with
      | '&' :: text =>
          if properties.anchor.isSome then none
          else
            match anchorName? text with
            | none => none
            | some (name, rest) =>
                let (number, after) := { c.passTo rest with fresh := false }.defineAnchor name
                continue_ { properties with anchor := some number } after
      | '!' :: text =>
          if properties.tag.isSome then none
          else
            match tag? c.handles flow text with
            | none => none
            | some (tag, rest) =>
                continue_ { properties with tag := some tag } { c.passTo rest with fresh := false }
      | _ => some (properties, c)

/-- The properties of one node that stand in two places, none of them twice. -/
def Properties.merge? (first second : Properties) : Option Properties :=
  if (first.anchor.isSome && second.anchor.isSome) || (first.tag.isSome && second.tag.isSome) then
    none
  else some { anchor := first.anchor.or second.anchor, tag := first.tag.or second.tag }

/-- Put further properties on a node.  An alias takes none. -/
def Node.addProperties? (added : Properties) : Node → Option Node
  | .scalar own style text => (added.merge? own).map (.scalar · style text)
  | .sequence own items => (added.merge? own).map (.sequence · items)
  | .mapping own entries => (added.merge? own).map (.mapping · entries)
  | .reference anchor => if added = {} then some (.reference anchor) else none

/-! ## Nodes -/

/-- Go on to the next thing inside of brackets, which neither the text nor the document may end
before. -/
def Cursor.skipInside (c : Cursor) : Option Cursor :=
  let next := c.skip true
  if next.rest.isEmpty || next.atDocumentMark then none else some next

/-- Whether the next character is one of the given ones. -/
def Cursor.at (c : Cursor) (marks : List Char) : Bool :=
  c.rest.head?.any marks.contains

mutual

/-- Read a node that can stand on a line: an alias, a flow collection, a quoted or a plain
scalar. -/
def readAtom : Nat → (flow : Bool) → (floor : Nat) → Properties → Cursor → Option (Node × Cursor)
  | 0, _, _, _, _ => none
  | fuel + 1, flow, floor, properties, c =>
      match c.rest with
      | '*' :: text =>
          if properties ≠ {} then none
          else
            match anchorName? text with
            | none => none
            | some (name, rest) =>
                match c.anchors.lookup name with
                | none => none
                | some number => some (.reference number, { c.passTo rest with fresh := false })
      | '[' :: _ =>
          (readFlowItems fuel floor (c.pass 1) []).map
            (fun found => (.sequence properties found.1, found.2))
      | '\x7b' :: _ =>
          (readFlowEntries fuel floor (c.pass 1) []).map
            (fun found => (.mapping properties found.1, found.2))
      | '"' :: _ =>
          (quoted true (c.pass 1)).map
            (fun found => (.scalar properties .doubleQuoted (String.ofList found.1), found.2))
      | '\'' :: _ =>
          (quoted false (c.pass 1)).map
            (fun found => (.scalar properties .singleQuoted (String.ofList found.1), found.2))
      | rest =>
          if startsPlain flow rest then
            (plain flow floor c).map
              (fun found => (.scalar properties .plain (String.ofList found.1), found.2))
          else none

/-- Read a node inside of brackets. -/
def readFlowNode : Nat → Nat → Cursor → Option (Node × Cursor)
  | 0, _, _ => none
  | fuel + 1, floor, c =>
      match readProperties true 3 {} c with
      | none => none
      | some (properties, next) =>
          if properties ≠ {} && next.at [',', ']', '\x7d', ':'] then
            some (.blank properties, next)
          else readAtom fuel true floor properties next

/-- Read the value behind the colon of a key inside of brackets. -/
def readFlowValue : Nat → Nat → (closing : Char) → Cursor → Option (Node × Cursor)
  | 0, _, _, _ => none
  | fuel + 1, floor, closing, c =>
      match (c.pass 1).skipInside with
      | none => none
      | some next =>
          if next.at [',', closing] then some (.blank, next) else readFlowNode fuel floor next

/-- Read an item of a flow sequence: a node, or a mapping of one entry without braces.  Right
behind its question mark, the mark that ends an empty key is passed over. -/
def readFlowItem : Nat → Nat → Cursor → Option (Node × Cursor)
  | 0, _, _ => none
  | fuel + 1, floor, c =>
      if c.at ['?'] then
        match (c.pass 1).skipInside with
        | none => none
        | some next =>
            if next.at [':', ',', ']'] then
              match (next.pass 1).skipInside with
              | none => none
              | some after =>
                  if after.at [':'] then
                    (readFlowValue fuel floor ']' after).map
                      (fun found => (.mapping {} [(.blank, found.1)], found.2))
                  else some (.mapping {} [(.blank, .blank)], after)
            else
              match readFlowNode fuel floor next with
              | none => none
              | some (key, after) =>
                  match after.skipInside with
                  | none => none
                  | some after =>
                      if after.at [':'] then
                        (readFlowValue fuel floor ']' after).map
                          (fun found => (.mapping {} [(key, found.1)], found.2))
                      else some (.mapping {} [(key, .blank)], after)
      else
        match readFlowNode fuel floor c with
        | none => none
        | some (node, after) =>
            match after.skipInside with
            | none => none
            | some after =>
                if after.at [':'] then
                  if c.keyReaches after then
                    (readFlowValue fuel floor ']' after).map
                      (fun found => (.mapping {} [(node, found.1)], found.2))
                  else none
                else some (node, after)

/-- Read the items of a flow sequence up to its closing bracket, behind those already read. -/
def readFlowItems : Nat → Nat → Cursor → List Node → Option (List Node × Cursor)
  | 0, _, _, _ => none
  | fuel + 1, floor, c, items =>
      match c.skipInside with
      | none => none
      | some c =>
          if c.at [']'] then some (items.reverse, { c.pass 1 with fresh := false })
          else
            match readFlowItem fuel floor c with
            | none => none
            | some (item, after) =>
                match after.skipInside with
                | none => none
                | some after =>
                    if after.at [','] then
                      readFlowItems fuel floor (after.pass 1) (item :: items)
                    else if after.at [']'] then
                      some ((item :: items).reverse, { after.pass 1 with fresh := false })
                    else none

/-- Read an entry of a flow mapping. -/
def readFlowEntry : Nat → Nat → Cursor → Option ((Node × Node) × Cursor)
  | 0, _, _ => none
  | fuel + 1, floor, c =>
      let marked := c.at ['?']
      match (if marked then (c.pass 1).skipInside else some c) with
      | none => none
      | some start =>
          let key :=
            if marked && start.at [':', ',', '\x7d'] then some (.blank, start)
            else readFlowNode fuel floor start
          match key with
          | none => none
          | some (key, after) =>
              match after.skipInside with
              | none => none
              | some after =>
                  if after.at [':'] then
                    if marked || c.keyReaches after then
                      (readFlowValue fuel floor '\x7d' after).map
                        (fun found => ((key, found.1), found.2))
                    else none
                  else some ((key, .blank), after)

/-- Read the entries of a flow mapping up to its closing brace, behind those already read. -/
def readFlowEntries :
    Nat → Nat → Cursor → List (Node × Node) → Option (List (Node × Node) × Cursor)
  | 0, _, _, _ => none
  | fuel + 1, floor, c, entries =>
      match c.skipInside with
      | none => none
      | some c =>
          if c.at ['\x7d'] then some (entries.reverse, { c.pass 1 with fresh := false })
          else
            match readFlowEntry fuel floor c with
            | none => none
            | some (entry, after) =>
                match after.skipInside with
                | none => none
                | some after =>
                    if after.at [','] then
                      readFlowEntries fuel floor (after.pass 1) (entry :: entries)
                    else if after.at ['\x7d'] then
                      some ((entry :: entries).reverse, { after.pass 1 with fresh := false })
                    else none

end

/-- Read a block scalar.  Its own mark may stand in the column of the collection around it. -/
def readBlockScalar (floor : Nat) (properties : Properties) (c : Cursor) :
    Option (Node × Cursor) :=
  let folded := c.at ['>']
  let style := if folded then ScalarStyle.folded else .literal
  (block folded floor (c.pass 1)).map
    (fun found => (.scalar properties style (String.ofList found.1), found.2))

mutual

/-- Read a node in block style behind the mark of its place.  `dash` tells whether a sequence
may begin in the column of the collection around it, as it may behind a key. -/
def readBlockNode : Nat → (floor : Nat) → (dash : Bool) → Cursor → Option (Node × Cursor)
  | 0, _, _, _ => none
  | fuel + 1, floor, dash, c => readBlockContent fuel floor dash {} (c.skip false)

/-- Read a node in block style from its first character, with properties that stand on lines
before it. -/
def readBlockContent :
    Nat → Nat → Bool → Properties → Cursor → Option (Node × Cursor)
  | 0, _, _, _, _ => none
  | fuel + 1, floor, dash, properties, c =>
      if c.atEnd || c.column + 1 < floor then some (.blank properties, c)
      else if c.at ['|', '>'] then readBlockScalar floor properties c
      else if c.column + 1 = floor then
        if dash && c.fresh && c.atMark '-' then
          (readBlockItems fuel c.column false c []).map
            (fun found => (.sequence properties found.1, found.2))
        else some (.blank properties, c)
      else if c.atMark '-' then
        if c.fresh then
          (readBlockItems fuel c.column true c []).map
            (fun found => (.sequence properties found.1, found.2))
        else none
      else if c.atMark '?' then
        if c.fresh then
          (readBlockEntries fuel c.column c []).map
            (fun found => (.mapping properties found.1, found.2))
        else none
      else
        match readProperties false 3 {} c with
        | none => none
        | some (own, next) =>
            if own ≠ {} && next.line ≠ c.line then
              match properties.merge? own with
              | none => none
              | some merged => readBlockContent fuel floor dash merged next
            else if own ≠ {} && next.rest.isEmpty then
              (properties.merge? own).map (fun merged => (.blank merged, next))
            else if own ≠ {} && (next.atMark '-' || next.atMark '?') then none
            else if next.at ['|', '>'] then
              match properties.merge? own with
              | none => none
              | some merged => readBlockScalar floor merged next
            else
              match readKeyOrAtom fuel floor own next with
              | none => none
              | some (node, after) =>
                  let later := after.skip false
                  if later.atMark ':' && later.line = c.line then
                    if c.fresh && c.keyReaches later then
                      match readBlockNode fuel (c.column + 1) true
                          { later.pass 1 with fresh := false } with
                      | none => none
                      | some (value, after) =>
                          (readBlockEntries fuel c.column after [(node, value)]).map
                            (fun found => (.mapping properties found.1, found.2))
                    else none
                  else (node.addProperties? properties).map (fun node => (node, later))

/-- Read a node on a line behind its properties; before a colon it may be left out. -/
def readKeyOrAtom : Nat → Nat → Properties → Cursor → Option (Node × Cursor)
  | 0, _, _, _ => none
  | fuel + 1, floor, properties, c =>
      if properties ≠ {} && c.atMark ':' then some (.blank properties, c)
      else readAtom fuel false floor properties c

/-- Read the items of a block sequence whose dashes stand in a column, behind those already
read.  A sequence in the column of the mapping around it (`own` is false) ends where no dash
follows. -/
def readBlockItems :
    Nat → (column : Nat) → (own : Bool) → Cursor → List Node → Option (List Node × Cursor)
  | 0, _, _, _, _ => none
  | fuel + 1, column, own, c, items =>
      let c := c.skip false
      if !c.atEnd && c.column = column && c.fresh && c.atMark '-' then
        match readBlockNode fuel (column + 1) false { c.pass 1 with fresh := true } with
        | none => none
        | some (item, after) => readBlockItems fuel column own after (item :: items)
      else if !own || c.atEnd || c.column < column then some (items.reverse, c)
      else none

/-- Read the entries of a block mapping whose keys stand in a column, behind those already
read. -/
def readBlockEntries :
    Nat → (column : Nat) → Cursor → List (Node × Node) → Option (List (Node × Node) × Cursor)
  | 0, _, _, _ => none
  | fuel + 1, column, c, entries =>
      let c := c.skip false
      if c.atEnd || c.column < column then some (entries.reverse, c)
      else if column < c.column || !c.fresh || c.atMark '-' then none
      else if c.atMark '?' then
        match readBlockNode fuel (column + 1) true { c.pass 1 with fresh := true } with
        | none => none
        | some (key, after) =>
            let after := after.skip false
            if !after.atEnd && after.column = column && after.fresh && after.atMark ':' then
              match readBlockNode fuel (column + 1) true { after.pass 1 with fresh := true } with
              | none => none
              | some (value, after) => readBlockEntries fuel column after ((key, value) :: entries)
            else readBlockEntries fuel column after ((key, .blank) :: entries)
      else
        match readProperties false 3 {} c with
        | none => none
        | some (own, next) =>
            if next.line ≠ c.line then none
            else
              match readKeyOrAtom fuel (column + 1) own next with
              | none => none
              | some (key, after) =>
                  let later := after.skip false
                  if later.atMark ':' && c.keyReaches later then
                    match readBlockNode fuel (column + 1) true
                        { later.pass 1 with fresh := false } with
                    | none => none
                    | some (value, after) =>
                        readBlockEntries fuel column after ((key, value) :: entries)
                  else none

end

/-! ## Documents -/

/-- Whether nothing but marks of a finished document is left of a text. -/
def endsText : Nat → Cursor → Bool
  | 0, _ => false
  | fuel + 1, c =>
      let c := c.skip false
      if c.rest.isEmpty then true
      else if c.atDocumentMark && c.at ['.'] then
        endsText fuel { c.pass 3 with fresh := false }
      else false

/-- Read a text that holds at most one document. -/
def Document.read? (text : String) : Option Document :=
  let chars := text.toList
  if !chars.all isAllowed then none
  else
    let fuel := 8 * (chars.length + 2)
    let start := Cursor.skip { rest := chars } false
    match readDirectives? fuel {} start with
    | none => none
    | some (directives, start) =>
        let directed := directives.versioned || !directives.handles.isEmpty
        let marked := start.atDocumentMark && start.at ['-']
        if start.rest.isEmpty && !directed then some { root := none }
        else if !marked && (directed || start.atDocumentMark) then none
        else
          let start := { start with handles := directives.handles ++ start.handles }
          let start := if marked then { start.pass 3 with fresh := false } else start
          match readBlockNode fuel 0 false start with
          | none => none
          | some (root, after) => if endsText fuel after then some { root := some root } else none

end Yaml
end ExportVolumes
