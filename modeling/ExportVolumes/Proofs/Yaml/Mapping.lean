import ExportVolumes.Proofs.Yaml.Value

namespace ExportVolumes
namespace Yaml

/-!
Printed collections are read back.

The items of a list and the entries of a mapping are read one after the other, each from the first
character of its line (`Cursor.Opens`) up to the first character of the next one, so both readers
come down to an induction over what was printed.
-/

namespace Cursor

theorem atDocumentMark_of_letter {c : Cursor} {first : Char} {rest : List Char}
    (ahead : c.rest = first :: rest) (letter : first.isAlpha = true) : c.atDocumentMark = false := by
  have notDash := isAlpha_ne letter '-' (by decide)
  have notDot := isAlpha_ne letter '.' (by decide)
  simp [atDocumentMark, ahead, notDash, notDot]

theorem atEnd_of_letter {c : Cursor} {first : Char} {rest : List Char} (ahead : c.rest = first :: rest)
    (letter : first.isAlpha = true) : c.atEnd = false := by
  have notPercent := isAlpha_ne letter '%' (by decide)
  simp [atEnd, ahead, atDocumentMark_of_letter ahead letter, notPercent]

theorem atEnd_of_dash {c : Cursor} {rest : List Char} (ahead : c.rest = '-' :: ' ' :: rest) :
    c.atEnd = false := by
  simp [atEnd, atDocumentMark, ahead]

theorem atMark_dash {c : Cursor} {rest : List Char} (ahead : c.rest = '-' :: ' ' :: rest) :
    c.atMark '-' = true := by
  simp [atMark, ahead, breaksOff, isBlank]

/-- What follows a list is no further item of it. -/
theorem Opens.not_atMark_dash {c : Cursor} {floor : Nat} {text : List Char} (opens : c.Opens text)
    (follows : Follows false floor text) : c.atMark '-' = false := by
  rcases follows with rfl | ⟨column, rest, -, rfl, key | ⟨none, -⟩⟩
  · have ended : c.rest = [] := opens.rest
    simp [atMark, ended]
  · cases rest with
    | nil => cases key
    | cons first others =>
        have notSpace := isAlpha_ne key ' ' (by decide)
        have here : c.rest = first :: others :=
          opens.rest.trans (lineBody_indentation (by simpa using notSpace))
        simp [atMark, here, isAlpha_ne key '-' (by decide)]
  · cases none

end Cursor

/-! ## Items -/

/-- The lines of a list. -/
def itemLines (column : Nat) (texts : List String) : List Char :=
  texts.flatMap (fun text => indentation column ++ '-' :: ' ' :: printText (column + 2) text)

theorem Follows.itemLines {column : Nat} {tail : List Char} (follows : Follows true (column + 1) tail)
    (texts : List String) : Follows true (column + 1) (itemLines column texts ++ tail) := by
  cases texts with
  | nil => exact follows
  | cons text others =>
      rw [Yaml.itemLines, List.flatMap_cons, List.append_assoc, List.append_assoc]
      exact .item (Nat.lt_succ_self column) rfl

theorem Cursor.Opens.itemLines {c : Cursor} {column : Nat} {text : String} {others : List String}
    {tail : List Char} (opens : c.Opens (itemLines column (text :: others) ++ tail)) :
    c.rest = '-' :: ' ' ::
        (printText (column + 2) text ++ (Yaml.itemLines column others ++ tail)) ∧
      c.column = column := by
  have split : Yaml.itemLines column (text :: others) ++ tail =
      indentation column ++ '-' :: ' ' :: (printText (column + 2) text ++
        (Yaml.itemLines column others ++ tail)) := by
    simp [Yaml.itemLines]
  rw [split] at opens
  constructor
  · rw [opens.rest, lineBody_indentation (by simp)]
  · rw [opens.column, lineColumn_indentation (by simp)]

/-- The reader of a list takes in its items, and stops at what follows. -/
theorem readBlockItems_eq {column : Nat} {tail : List Char} (follows : Follows false (column + 1) tail)
    (texts : List String) {fuel : Nat} (enough : texts.length + 5 ≤ fuel) {c : Cursor}
    (opens : c.Opens (itemLines column texts ++ tail)) (items : List Node) :
    ∃ after, readBlockItems fuel column false c items =
        some (items.reverse ++ texts.map (fun text => .scalar {} (styleOf text) text), after) ∧
      after.Opens tail := by
  induction texts generalizing fuel c items with
  | nil =>
      rcases Nat.exists_eq_add_of_le' enough with ⟨spare, rfl⟩
      refine ⟨c, ?_, opens⟩
      have noItem := opens.not_atMark_dash follows
      rw [show itemLines column [] ++ tail = tail from rfl] at opens
      simp [readBlockItems, opens.skip follows, noItem]
  | cons text others ih =>
      rcases Nat.exists_eq_add_of_le' enough with ⟨spare, rfl⟩
      have order : spare + ((text :: others).length + 5) = spare + others.length + 5 + 1 := by
        rw [List.length_cons]
        omega
      have next : Follows true (column + 1) (itemLines column others ++ tail) :=
        follows.withItems.itemLines others
      have all : Follows true (column + 1) (itemLines column (text :: others) ++ tail) :=
        follows.withItems.itemLines (text :: others)
      rcases opens.itemLines with ⟨here, inColumn⟩
      have passed := Cursor.pass_one here
      have reads := readsBack_text true false (Nat.succ_pos column) text
      rcases reads _ next (spare + others.length + 5) (by omega) { c.pass 1 with fresh := true }
        (congrArg Cursor.rest passed) (Nat.le_of_eq (by rw [passed, inColumn]))
        with ⟨after, read, left⟩
      have spared : others.length + 5 ≤ spare + others.length + 5 := by omega
      rcases ih spared left (.scalar {} (styleOf text) text :: items) with ⟨last, goesOn, stopped⟩
      refine ⟨last, ?_, stopped⟩
      rw [order, readBlockItems, opens.skip all]
      simp only [Cursor.atEnd_of_dash here, Cursor.atMark_dash here, opens.fresh, inColumn, read,
        Bool.not_false, decide_true, Bool.and_self, if_true]
      simpa using goesOn

/-- A list whose dashes stand in the column of its key is read back. -/
theorem readsBack_items {column : Nat} {texts : List String} (inhabited : texts ≠ []) :
    ReadsBack false (column + 1) (texts.length + 7) true ('\n' :: itemLines column texts)
      (.sequence {} (texts.map (fun text => .scalar {} (styleOf text) text))) := by
  intro tail follows fuel enough c ahead right
  rcases Nat.exists_eq_add_of_le' enough with ⟨spare, rfl⟩
  have order : spare + (texts.length + 7) = spare + (texts.length + 5) + 1 + 1 := by omega
  rw [List.cons_append] at ahead
  have opens := Cursor.skip_lineEnd ahead (follows.withItems.itemLines texts)
  rw [order, readBlockNode]
  generalize c.skip false = next at opens ⊢
  rcases readBlockItems_eq follows texts (Nat.le_add_left _ spare) opens []
    with ⟨after, read, left⟩
  refine ⟨after, ?_, left⟩
  generalize spare + (texts.length + 5) = more at read ⊢
  rcases List.exists_cons_of_ne_nil inhabited with ⟨text, others, rfl⟩
  rcases opens.itemLines with ⟨here, inColumn⟩
  simp [readBlockContent, Cursor.atEnd_of_dash here, Cursor.atMark_dash here, Cursor.at, here,
    opens.fresh, inColumn, read]

/-- The empty list is read back. -/
theorem readsBack_noItems {floor : Nat} (inside : 0 < floor) :
    ReadsBack false floor 5 true " []\n".toList (.sequence {} []) := by
  show ReadsBack false floor (2 + 3) true (' ' :: '[' :: [']', '\n']) _
  refine readsBack_atom rfl (fun tail => ⟨⟨by decide, by decide, by decide, by decide⟩, by decide,
    by decide, fun dash => by simp at dash⟩) inside rfl ?_
  intro tail follows fuel enough c ahead right
  rcases Nat.exists_eq_add_of_le' enough with ⟨spare, rfl⟩
  have opened := Cursor.pass_one (show c.rest = '[' :: ']' :: '\n' :: tail from ahead)
  have here : (c.pass 1).rest = ']' :: '\n' :: tail := by rw [opened]
  have closes := Cursor.skip_stops here ⟨by decide, by decide, by decide, by decide⟩ true
  have inside : (c.pass 1).atDocumentMark = false :=
    Cursor.atDocumentMark_of_column (by rw [opened]; exact Nat.succ_pos _)
  have closed := Cursor.pass_one here
  have bracket : c.rest = '[' :: ']' :: '\n' :: tail := ahead
  refine ⟨{ (c.pass 1).pass 1 with fresh := false }, ?_, Cursor.skip_lineEnd ?_ follows⟩
  · simp [readAtom, bracket, readFlowItems, Cursor.skipInside, closes, here, inside, Cursor.at]
  · rw [closed]

/-! ## Entries -/

/-- An entry of a printed mapping: its key, what is printed behind the colon, and the node that this
stands for. -/
structure PrintedEntry where
  key : List Char
  value : List Char
  node : Node

namespace PrintedEntry

/-- The lines of an entry. -/
def lines (column : Nat) (entry : PrintedEntry) : List Char :=
  indentation column ++ entry.key ++ ':' :: entry.value

/-- The entry as it is read. -/
def pair (entry : PrintedEntry) : Node × Node :=
  (.scalar {} .plain (String.ofList entry.key), entry.node)

/-- An entry of a mapping in a column that is read back. -/
structure IsRead (column need : Nat) (entry : PrintedEntry) : Prop where
  inhabited : entry.key ≠ []
  letters : ∀ c ∈ entry.key, c.isAlpha = true
  short : octetCount entry.key ≤ 1024
  spaced : entry.value.head?.any (fun c => isBlank c || isBreak c) = true
  allowed : ∀ c ∈ entry.value, isAllowed c = true
  value : ReadsBack false (column + 1) need true entry.value entry.node

end PrintedEntry

theorem breaksOff_append {value : List Char}
    (spaced : value.head?.any (fun c => isBlank c || isBreak c) = true) (tail : List Char) :
    breaksOff (value ++ tail) = true := by
  cases value with
  | nil => cases spaced
  | cons c rest => exact spaced

/-- The key of an entry is read up to the colon behind it, and its value from there. -/
theorem PrintedEntry.IsRead.reads {column need : Nat} {entry : PrintedEntry}
    (isRead : entry.IsRead column need) {tail : List Char} (follows : Follows false (column + 1) tail)
    {c : Cursor} (ahead : c.rest = entry.key ++ ':' :: (entry.value ++ tail))
    (inColumn : c.column = column) (floor : Nat) :
    ∃ colon first rest, c.rest = first :: rest ∧ first.isAlpha = true ∧
      (∀ fuel, readAtom (fuel + 1) false floor {} c =
        some (.scalar {} .plain (String.ofList entry.key), colon)) ∧
      colon.skip false = colon ∧ colon.atMark ':' = true ∧ colon.line = c.line ∧
      c.keyReaches colon = true ∧
      (∀ fuel, need ≤ fuel → ∃ after,
        readBlockNode fuel (column + 1) true { colon.pass 1 with fresh := false } =
          some (entry.node, after) ∧ after.Opens tail) := by
  rcases List.exists_cons_of_ne_nil isRead.inhabited with ⟨first, others, key⟩
  have letter : first.isAlpha = true := isRead.letters first (by rw [key]; exact List.mem_cons_self)
  have here : c.rest = first :: (others ++ ':' :: (entry.value ++ tail)) := by
    rw [ahead, key, List.cons_append]
  have ends := breaksOff_append isRead.spaced tail
  have passed := Cursor.passTo_append entry.key (':' :: (entry.value ++ tail)) ahead
  have read : plain false floor c = _ := plain_key isRead.inhabited isRead.letters ends ahead
    (Cursor.atDocumentMark_of_letter here letter)
  generalize standing : ({ c.passTo (':' :: (entry.value ++ tail)) with fresh := false } : Cursor) =
    colon at read
  rw [passed] at standing
  have atColon : colon.rest = ':' :: (entry.value ++ tail) := by rw [← standing]
  have behind := Cursor.pass_one atColon
  refine ⟨colon, first, _, here, letter, fun fuel => ?_, ?_, ?_, ?_, ?_, fun fuel enough => ?_⟩
  · rw [readAtom_plain (.of_isAlpha letter _) here, read]
    rfl
  · exact Cursor.skip_stops atColon ⟨by decide, by decide, by decide, by decide⟩ false
  · simp [Cursor.atMark, atColon, ends]
  · rw [← standing]
  · have short := isRead.short
    simp [Cursor.keyReaches, ← standing, short]
  · refine isRead.value tail follows fuel enough { colon.pass 1 with fresh := false } ?_ ?_
    · rw [behind]
    · rw [behind, ← standing, ← inColumn]
      exact Nat.succ_le_succ (Nat.le_add_right _ _)

/-- The lines of several entries. -/
def entryLines (column : Nat) (entries : List PrintedEntry) : List Char :=
  entries.flatMap (PrintedEntry.lines column)

theorem entryLines_cons (column : Nat) (entry : PrintedEntry) (others : List PrintedEntry)
    (tail : List Char) :
    entryLines column (entry :: others) ++ tail =
      indentation column ++
        (entry.key ++ ':' :: (entry.value ++ (entryLines column others ++ tail))) := by
  simp [entryLines, PrintedEntry.lines]

theorem PrintedEntry.IsRead.opens {column need : Nat} {entry : PrintedEntry}
    (isRead : entry.IsRead column need) {rest : List Char} :
    ∃ first others, entry.key ++ ':' :: rest = first :: others ∧ first.isAlpha = true := by
  rcases List.exists_cons_of_ne_nil isRead.inhabited with ⟨first, others, key⟩
  refine ⟨first, others ++ ':' :: rest, by rw [key, List.cons_append], ?_⟩
  exact isRead.letters first (by rw [key]; exact List.mem_cons_self)

theorem Follows.entryLines {column need : Nat} {tail : List Char}
    (follows : Follows false column tail) {entries : List PrintedEntry}
    (areRead : ∀ entry ∈ entries, entry.IsRead column need) :
    Follows false (column + 1) (entryLines column entries ++ tail) := by
  cases entries with
  | nil => exact follows.mono (Nat.le_succ column)
  | cons entry others =>
      rw [entryLines_cons]
      rcases (areRead entry List.mem_cons_self).opens with ⟨first, rest, split, letter⟩
      exact .key (Nat.lt_succ_self column) (by rw [split]; exact letter)

theorem Cursor.Opens.entryLines {column need : Nat} {entry : PrintedEntry}
    (isRead : entry.IsRead column need) {others : List PrintedEntry} {tail : List Char} {c : Cursor}
    (opens : c.Opens (entryLines column (entry :: others) ++ tail)) :
    c.rest = entry.key ++ ':' :: (entry.value ++ (Yaml.entryLines column others ++ tail)) ∧
      c.column = column := by
  rw [entryLines_cons] at opens
  rcases isRead.opens with ⟨first, rest, split, letter⟩
  have stops : (entry.key ++
      ':' :: (entry.value ++ (Yaml.entryLines column others ++ tail))).head? ≠ some ' ' := by
    rw [split]
    simpa using isAlpha_ne letter ' ' (by decide)
  constructor
  · rw [opens.rest, lineBody_indentation stops]
  · rw [opens.column, lineColumn_indentation stops]

/-- The reader of a mapping takes in the entries that are left, and stops at what follows. -/
theorem readBlockEntries_eq {column need : Nat} {tail : List Char} (follows : Follows false column tail)
    {entries : List PrintedEntry} (areRead : ∀ entry ∈ entries, entry.IsRead column need) {fuel : Nat}
    (enough : entries.length + need + 3 ≤ fuel) {c : Cursor}
    (opens : c.Opens (entryLines column entries ++ tail)) (before : List (Node × Node)) :
    ∃ after, readBlockEntries fuel column c before =
        some (before.reverse ++ entries.map PrintedEntry.pair, after) ∧ after.Opens tail := by
  induction entries generalizing fuel c before with
  | nil =>
      rcases Nat.exists_eq_add_of_le' enough with ⟨spare, rfl⟩
      rw [show entryLines column [] ++ tail = tail from rfl] at opens
      refine ⟨c, ?_, opens⟩
      have ends : (c.atEnd || decide (c.column < column)) = true := by
        rcases follows.lineBody_cases with rfl | ⟨left, -⟩
        · have ended : c.rest = [] := opens.rest
          simp [Cursor.atEnd, ended]
        · simp [opens.column, left]
      rw [Nat.add_succ, readBlockEntries]
      simp only [opens.skip follows, ends, if_true]
      simp
  | cons entry others ih =>
      rcases Nat.exists_eq_add_of_le' enough with ⟨spare, rfl⟩
      have order : spare + ((entry :: others).length + need + 3) =
          spare + others.length + need + 1 + 1 + 1 + 1 := by
        rw [List.length_cons]
        omega
      have here := areRead entry List.mem_cons_self
      have later := fun e member => areRead e (List.mem_cons_of_mem entry member)
      rcases opens.entryLines here with ⟨atKey, inColumn⟩
      rcases here.reads (follows.entryLines later) atKey inColumn (column + 1)
        with ⟨colon, first, rest, starts, letter, key, stays, atColon, line, reaches, value⟩
      rcases value (spare + others.length + need + 1 + 1 + 1) (by omega) with ⟨after, read, left⟩
      have spared : others.length + need + 3 ≤ spare + others.length + need + 1 + 1 + 1 := by omega
      rcases ih later spared left (entry.pair :: before) with ⟨last, goesOn, stopped⟩
      have opensAtom := (OpensPlain.of_isAlpha letter rest).opensAtom
      refine ⟨last, ?_, stopped⟩
      rw [order, readBlockEntries, opens.skip (follows.entryLines areRead)]
      simp only [Cursor.atEnd_of_letter starts letter, inColumn, Nat.lt_irrefl, decide_false,
        Bool.or_false, Bool.false_eq_true, if_false, opens.fresh, Bool.not_true,
        (opensAtom.not_atMark starts).1, (opensAtom.not_atMark starts).2,
        opensAtom.readProperties starts, ne_eq, not_true_eq_false, readKeyOrAtom_plain, key, stays,
        atColon, reaches, Bool.and_self, if_true, read]
      simpa [PrintedEntry.pair] using goesOn

/-- A mapping is read back from the first character of its first key. -/
theorem readBlockContent_entries {column need floor : Nat} {dash : Bool} {tail : List Char}
    (follows : Follows false column tail) {entries : List PrintedEntry} (inhabited : entries ≠ [])
    (areRead : ∀ entry ∈ entries, entry.IsRead column need) (right : floor ≤ column) {fuel : Nat}
    (enough : entries.length + need + 3 ≤ fuel) {c : Cursor}
    (opens : c.Opens (entryLines column entries ++ tail)) :
    ∃ after, readBlockContent fuel floor dash {} c =
        some (.mapping {} (entries.map PrintedEntry.pair), after) ∧ after.Opens tail := by
  rcases List.exists_cons_of_ne_nil inhabited with ⟨entry, others, rfl⟩
  rcases Nat.exists_eq_add_of_le' enough with ⟨spare, rfl⟩
  have order : spare + ((entry :: others).length + need + 3) =
      spare + others.length + need + 1 + 1 + 2 := by
    rw [List.length_cons]
    omega
  have here := areRead entry List.mem_cons_self
  have later := fun e member => areRead e (List.mem_cons_of_mem entry member)
  rcases opens.entryLines here with ⟨atKey, inColumn⟩
  rcases here.reads (follows.entryLines later) atKey inColumn floor
    with ⟨colon, first, rest, starts, letter, key, stays, atColon, line, reaches, value⟩
  rcases value (spare + others.length + need + 1 + 1 + 1) (by omega) with ⟨after, read, left⟩
  have spared : others.length + need + 3 ≤ spare + others.length + need + 1 + 1 + 1 := by omega
  rcases readBlockEntries_eq follows later spared left [entry.pair] with ⟨last, goesOn, stopped⟩
  have opensAtom := (OpensPlain.of_isAlpha letter rest).opensAtom
  refine ⟨last, ?_, stopped⟩
  subst inColumn
  have notEnd := Cursor.atEnd_of_letter starts letter
  rw [order, readBlockContent_key opensAtom starts notEnd right (key _) stays opens.fresh atColon
    line reaches read]
  rw [PrintedEntry.pair] at goesOn
  rw [goesOn]
  rfl

/-- A mapping whose keys stand right of the key that it belongs to is read back. -/
theorem readsBack_entries {column need : Nat} {entries : List PrintedEntry} (inhabited : entries ≠ [])
    (areRead : ∀ entry ∈ entries, entry.IsRead (column + 2) need) :
    ReadsBack false (column + 1) (entries.length + need + 4) true
      ('\n' :: entryLines (column + 2) entries) (.mapping {} (entries.map PrintedEntry.pair)) := by
  intro tail follows fuel enough c ahead right
  rcases Nat.exists_eq_add_of_le' enough with ⟨spare, rfl⟩
  have order : spare + (entries.length + need + 4) = spare + (entries.length + need + 3) + 1 := by
    omega
  have outside : Follows false (column + 2) tail := follows.mono (Nat.le_succ _)
  have opens := Cursor.skip_lineEnd (by simpa using ahead) (outside.entryLines areRead)
  rw [order, readBlockNode]
  exact readBlockContent_entries outside inhabited areRead (Nat.le_succ _) (Nat.le_add_left _ spare)
    opens

end Yaml
end ExportVolumes
