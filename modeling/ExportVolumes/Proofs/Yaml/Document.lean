import ExportVolumes.Proofs.Yaml.Mapping

namespace ExportVolumes
namespace Yaml

/-!
Printed documents are read back.

A document that is a mapping is read back when its entries are (`Document.read?_entryLines`).  The
constructors of `PrintedEntry` match the functions that print entries, and each comes with the
proof that what it prints is read back.
-/

/-! ## Characters of what is printed -/

theorem isAllowed_of_isPrintable {c : Char} (printable : isPrintable c = true) :
    isAllowed c = true := by
  by_cases feed : c = '\n'
  · rw [feed]
    rfl
  · simp only [isPrintable, isAllowed, feed, Bool.or_eq_true, Bool.and_eq_true,
      decide_eq_true_eq, false_or] at printable ⊢
    omega

theorem isAllowed_of_isAlpha {c : Char} (letter : c.isAlpha = true) : isAllowed c = true := by
  have code : 0x20 ≤ c.toNat ∧ c.toNat ≤ 0x7E := by
    rcases (Bool.or_eq_true c.isUpper c.isLower).mp letter with upper | lower
    · have range : 'A'.val ≤ c.val ∧ c.val ≤ 'Z'.val := of_decide_eq_true upper
      exact ⟨Nat.le_trans (by decide) range.1, Nat.le_trans range.2 (by decide)⟩
    · have range := (Bool.and_eq_true _ _).mp lower
      have low : 'a'.val ≤ c.val := of_decide_eq_true range.1
      have high : c.val ≤ 'z'.val := of_decide_eq_true range.2
      exact ⟨Nat.le_trans (by decide) low, Nat.le_trans high (by decide)⟩
  simp [isAllowed, code]

theorem all_indentation (indent : Nat) : (indentation indent).all isAllowed = true := by
  simp [indentation, isAllowed]

theorem all_printable {text : List Char} (printable : ∀ c ∈ text, isPrintable c = true) :
    text.all isAllowed = true :=
  List.all_eq_true.mpr (fun c member => isAllowed_of_isPrintable (printable c member))

theorem all_singleQuotedBody {indent : Nat} {broken : Bool} {text : List Char}
    (allowed : text.all isAllowed = true) :
    (singleQuotedBody indent broken text).all isAllowed = true := by
  have spaces : ∀ broken : Bool, (if broken then indentation indent else []).all isAllowed = true := by
    intro broken
    cases broken
    · rfl
    · exact all_indentation indent
  have feed : isAllowed '\n' = true := rfl
  have quote : isAllowed '\'' = true := rfl
  induction text generalizing broken with
  | nil => exact spaces broken
  | cons c rest ih =>
      rw [List.all_cons, Bool.and_eq_true] at allowed
      rw [singleQuotedBody]
      split
      · split <;> simp [feed, allowed.1, ih allowed.2]
      · split
        · simp [allowed.1, ih allowed.2]
        · rw [List.all_append, List.all_append, spaces, ih allowed.2]
          split <;> simp [quote, allowed.1]

theorem all_literalBody {indent : Nat} {broken : Bool} {text : List Char}
    (allowed : text.all isAllowed = true) : (literalBody indent broken text).all isAllowed = true := by
  induction text generalizing broken with
  | nil => rfl
  | cons c rest ih =>
      rw [List.all_cons, Bool.and_eq_true] at allowed
      rw [literalBody]
      split
      · simp [allowed.1, ih allowed.2]
      · cases broken
        · simp [allowed.1, ih allowed.2]
        · simp [all_indentation, allowed.1, ih allowed.2]

theorem all_literalHints (text : List Char) : (literalHints text).all isAllowed = true := by
  unfold literalHints
  cases text.head?.any isSpaceOrBreak
  all_goals
    cases text.reverse with
    | nil => rfl
    | cons last front =>
        cases front with
        | nil =>
            dsimp only
            cases isBreak last <;> rfl
        | cons before others =>
            dsimp only
            cases isBreak last <;> cases isBreak before <;> rfl

theorem isAllowed_hexDigit : ∀ value < 16, isAllowed (hexDigit value) = true := by
  decide

theorem all_hexDigits (width value : Nat) : (hexDigits width value).all isAllowed = true := by
  induction width generalizing value with
  | zero => rfl
  | succ width ih =>
      have digit := isAllowed_hexDigit (value % 16) (Nat.mod_lt value (by decide))
      simp [hexDigits, ih, digit]

theorem isAllowed_escapeLetter {c letter : Char} (short : escapeLetter? c = some letter) :
    isAllowed letter = true := by
  unfold escapeLetter? at short
  split at short <;> cases short <;> rfl

theorem all_escaped (c : Char) : (escaped c).all isAllowed = true := by
  have slash : isAllowed '\\' = true := rfl
  unfold escaped
  split
  · rename_i letter short
    simp [slash, isAllowed_escapeLetter short]
  · repeat' split
    all_goals simp [slash, all_hexDigits]
    all_goals rfl

theorem all_doubleQuotedBody (text : List Char) : (doubleQuotedBody text).all isAllowed = true := by
  induction text with
  | nil => rfl
  | cons c rest ih =>
      have split : doubleQuotedBody (c :: rest) = doubleQuotedChar c ++ doubleQuotedBody rest := rfl
      rw [split, List.all_append, ih, Bool.and_true, doubleQuotedChar]
      split
      · exact all_escaped c
      · rename_i plain
        simp only [Bool.or_eq_true, Bool.not_eq_true', not_or, Bool.not_eq_false] at plain
        simp [isAllowed_of_isPrintable plain.1.1.1]

/-- All that is printed for a text may stand in a document. -/
theorem all_printText (indent : Nat) (text : String) :
    (printText indent text).all isAllowed = true := by
  unfold printText
  rcases styleOf_cases text with ⟨style, inhabited, allowed⟩ | ⟨style, isText, allowed⟩ |
    ⟨style, noFeed, allowed⟩ | style
  · have characters := all_printable (isPrintable_of_allowsLiteral allowed)
    have ended : (if text.toList.getLast?.any isBreak then [] else ['\n']).all isAllowed = true := by
      split <;> rfl
    rw [style, printIn, List.all_append, ended, List.all_append, List.all_cons, List.all_cons,
      all_literalHints, all_literalBody characters]
    rfl
  · have characters := all_printable (fun c member => (isPrintable_of_allowsPlain allowed c member).2)
    rw [style, printIn, List.all_append, characters]
    rfl
  · have line := SingleLine.of_allowsSingleQuotes allowed noFeed
    have characters := all_printable (fun c member => (line.printable c member).1)
    rw [style, printIn, List.cons_append, List.all_cons, List.all_append,
      all_singleQuotedBody characters]
    rfl
  · rw [style, printIn, List.cons_append, List.all_cons, List.all_append, all_doubleQuotedBody]
    rfl

/-! ## Printed entries -/

namespace PrintedEntry

/-- An entry with a text, in a mapping in a column. -/
def ofText (column : Nat) (key text : String) : PrintedEntry where
  key := key.toList
  value := ' ' :: printText (column + 2) text
  node := .scalar {} (styleOf text) text

/-- An entry that may be left out. -/
def ofOption (column : Nat) (key : String) (text : Option String) : List PrintedEntry :=
  (text.map (ofText column key)).toList

/-- An entry with a truth value. -/
def ofFlag (key : String) (flag : Bool) : PrintedEntry where
  key := key.toList
  value := ' ' :: (if flag then "true\n" else "false\n").toList
  node := .scalar {} .plain (if flag then "true" else "false")

/-- An entry with a list of texts. -/
def ofTexts (column : Nat) (key : String) (texts : List String) : PrintedEntry where
  key := key.toList
  value := if texts.isEmpty then " []\n".toList else '\n' :: itemLines column texts
  node := .sequence {} (texts.map (fun text => .scalar {} (styleOf text) text))

/-- An entry with a mapping. -/
def ofEntries (column : Nat) (key : String) (entries : List PrintedEntry) : PrintedEntry where
  key := key.toList
  value := '\n' :: entryLines (column + 2) entries
  node := .mapping {} (entries.map pair)

theorem lines_ofText (column : Nat) (key text : String) :
    (ofText column key text).lines column = textEntry column key text :=
  rfl

theorem lines_ofOption (column : Nat) (key : String) (text : Option String) :
    entryLines column (ofOption column key text) = optionalEntry column key text := by
  cases text with
  | none => rfl
  | some text => simp [ofOption, entryLines, optionalEntry, lines_ofText]

theorem lines_ofFlag (column : Nat) (key : String) (flag : Bool) :
    (ofFlag key flag).lines column = flagEntry column key flag :=
  rfl

theorem lines_ofTexts (column : Nat) (key : String) (texts : List String) :
    (ofTexts column key texts).lines column = listEntry column key texts := by
  unfold lines ofTexts listEntry
  cases texts with
  | nil => rfl
  | cons text others => rfl

theorem lines_ofEntries (column : Nat) (key : String) (entries : List PrintedEntry)
    (printed : Nat → List Char) (same : entryLines (column + 2) entries = printed (column + 2)) :
    (ofEntries column key entries).lines column = mappingEntry column key printed := by
  unfold lines ofEntries mappingEntry
  rw [same]

/-- A name that keys may have. -/
structure IsKey (key : String) : Prop where
  inhabited : key.toList ≠ []
  letters : ∀ c ∈ key.toList, c.isAlpha = true
  short : octetCount key.toList ≤ 1024

theorem isKey_of_all {key : String} (are : key.toList ≠ [] ∧ key.toList.all Char.isAlpha = true ∧
    octetCount key.toList ≤ 1024) : IsKey key :=
  ⟨are.1, List.all_eq_true.mp are.2.1, are.2.2⟩

theorem isRead_ofText {column : Nat} {key : String} (isKey : IsKey key) (text : String) :
    (ofText column key text).IsRead column 4 where
  inhabited := isKey.inhabited
  letters := isKey.letters
  short := isKey.short
  spaced := rfl
  allowed := by
    intro c member
    rcases List.mem_cons.mp member with rfl | inside
    · rfl
    · exact List.all_eq_true.mp (all_printText _ _) c inside
  value := readsBack_text false true (Nat.succ_pos column) text

theorem isRead_ofFlag {column : Nat} {key : String} (isKey : IsKey key) (flag : Bool) :
    (ofFlag key flag).IsRead column 4 where
  inhabited := isKey.inhabited
  letters := isKey.letters
  short := isKey.short
  spaced := rfl
  allowed := by
    have word : (ofFlag key flag).value.all isAllowed = true := by
      cases flag <;> rfl
    exact List.all_eq_true.mp word
  value := by
    have word : ∀ text : String, text.toList ≠ [] → allowsPlain text.toList = true →
        ReadsBack false (column + 1) 4 true (' ' :: (text.toList ++ ['\n'])) (.scalar {} .plain text) := by
      intro text inhabited allowed
      have reads := readsBack_plain false true (Nat.succ_pos column) inhabited allowed
      rwa [String.ofList_toList] at reads
    cases flag with
    | false => exact word "false" (by decide) (by decide)
    | true => exact word "true" (by decide) (by decide)

theorem all_itemLines (column : Nat) (texts : List String) :
    (itemLines column texts).all isAllowed = true := by
  have dash : isAllowed '-' = true := rfl
  have space : isAllowed ' ' = true := rfl
  simp [itemLines, List.all_flatMap, all_indentation, all_printText, dash, space]

theorem isRead_ofTexts {column : Nat} {key : String} (isKey : IsKey key) (texts : List String) :
    (ofTexts column key texts).IsRead column (texts.length + 7) where
  inhabited := isKey.inhabited
  letters := isKey.letters
  short := isKey.short
  spaced := by cases texts <;> rfl
  allowed := by
    cases texts with
    | nil =>
        have brackets : (ofTexts column key []).value.all isAllowed = true := rfl
        exact List.all_eq_true.mp brackets
    | cons text others =>
        intro c member
        rcases List.mem_cons.mp member with rfl | inside
        · rfl
        · exact List.all_eq_true.mp (all_itemLines column (text :: others)) c inside
  value := by
    cases texts with
    | nil => exact (readsBack_noItems (Nat.succ_pos column)).mono (by decide)
    | cons text others => exact readsBack_items (List.cons_ne_nil text others)

theorem all_entryLines {column need : Nat} {entries : List PrintedEntry}
    (areRead : ∀ entry ∈ entries, entry.IsRead column need) :
    (entryLines column entries).all isAllowed = true := by
  have colon : isAllowed ':' = true := rfl
  rw [entryLines, List.all_flatMap, List.all_eq_true]
  intro entry member
  have isRead := areRead entry member
  have key : entry.key.all isAllowed = true :=
    List.all_eq_true.mpr (fun c inside => isAllowed_of_isAlpha (isRead.letters c inside))
  have value : entry.value.all isAllowed = true := List.all_eq_true.mpr isRead.allowed
  simp [lines, all_indentation, key, colon, value]

theorem isRead_ofEntries {column need : Nat} {key : String} (isKey : IsKey key)
    {entries : List PrintedEntry} (inhabited : entries ≠ [])
    (areRead : ∀ entry ∈ entries, entry.IsRead (column + 2) need) :
    (ofEntries column key entries).IsRead column (entries.length + need + 4) where
  inhabited := isKey.inhabited
  letters := isKey.letters
  short := isKey.short
  spaced := rfl
  allowed := by
    intro c member
    rcases List.mem_cons.mp member with rfl | inside
    · rfl
    · exact List.all_eq_true.mp (all_entryLines areRead) c inside
  value := readsBack_entries inhabited areRead

theorem IsRead.mono {column need more : Nat} {entry : PrintedEntry}
    (isRead : entry.IsRead column need) (le : need ≤ more) : entry.IsRead column more :=
  { isRead with value := isRead.value.mono le }

end PrintedEntry

/-! ## Documents -/

/-- A document of printed entries is read back. -/
theorem Document.read?_entryLines {need : Nat} {entries : List PrintedEntry} (inhabited : entries ≠ [])
    (areRead : ∀ entry ∈ entries, entry.IsRead 0 need)
    (enough : entries.length + need + 4 ≤ 8 * ((entryLines 0 entries).length + 2)) :
    Document.read? (String.ofList (entryLines 0 entries)) =
      some { root := some (.mapping {} (entries.map PrintedEntry.pair)) } := by
  rcases List.exists_cons_of_ne_nil inhabited with ⟨entry, others, rfl⟩
  have here := areRead entry List.mem_cons_self
  rcases here.opens with ⟨first, rest, split, letter⟩
  have text : entryLines 0 (entry :: others) = first :: rest := by
    have lines := entryLines_cons 0 entry others []
    rw [List.append_nil, List.append_nil, split] at lines
    exact lines
  have stops : StopsSkip first := .of_isAlpha letter
  have characters := PrintedEntry.all_entryLines areRead
  have notMark : ({ rest := first :: rest } : Cursor).atDocumentMark = false :=
    Cursor.atDocumentMark_of_letter rfl letter
  have notDirective := isAlpha_ne letter '%' (by decide)
  have skipped : Cursor.skip { rest := first :: rest } false = { rest := first :: rest } :=
    Cursor.skip_stops rfl stops false
  have opens : ({ rest := first :: rest } : Cursor).Opens (entryLines 0 (entry :: others) ++ []) := by
    have head : (first :: rest).head? ≠ some ' ' := by simpa using isAlpha_ne letter ' ' (by decide)
    rw [List.append_nil, text]
    have body : lineBody (indentation 0 ++ first :: rest) = first :: rest := lineBody_indentation head
    have column : lineColumn (indentation 0 ++ first :: rest) = 0 := lineColumn_indentation head
    exact ⟨body.symm, column.symm, rfl⟩
  rcases Nat.exists_eq_add_of_le' enough with ⟨spare, fuel⟩
  rcases readBlockContent_entries .nil (List.cons_ne_nil entry others) areRead (Nat.le_refl 0)
    (Nat.le_add_left _ spare) opens with ⟨after, read, left⟩
  rw [text] at characters fuel
  -- The fuel of all that is read at the top is that of the entries and one more.
  rw [show spare + ((entry :: others).length + need + 4) =
    spare + ((entry :: others).length + need + 3) + 1 from rfl] at fuel
  generalize spare + ((entry :: others).length + need + 3) = inner at read fuel
  have directives : readDirectives? (inner + 1) {} { rest := first :: rest } =
      some ({}, { rest := first :: rest }) := by
    simp [readDirectives?, notDirective]
  have node : readBlockNode (inner + 1) 0 false { rest := first :: rest } =
      some (.mapping {} ((entry :: others).map PrintedEntry.pair), after) := by
    rw [readBlockNode, skipped]
    exact read
  have finished : endsText (inner + 1) after = true := by
    have ended : after.rest = [] := left.rest
    simp [endsText, Cursor.skip_of_nil ended, ended]
  unfold Document.read?
  rw [String.toList_ofList, text]
  simp only [characters, fuel, skipped, directives]
  simp [notMark, node, finished]

end Yaml
end ExportVolumes
