import ExportVolumes.Proofs.Yaml.Literal
import ExportVolumes.Proofs.Yaml.Plain
import ExportVolumes.Proofs.Yaml.Quoted

namespace ExportVolumes
namespace Yaml

/-!
The values of printed entries are read back.

`ReadsBack` says of a printed value, from behind the colon or the dash before it, that it is read
as a node wherever it stands and whatever follows it.  Scalars are brought down to what reads them
on their line (`readBlockContent_atom`), and lists to their items.
-/

/-! ## Nodes on a line -/

/-- A character and what follows it, as the beginning of a node that no property, no block and no
collection in block style begins with. -/
structure OpensAtom (first : Char) (rest : List Char) : Prop where
  stops : StopsSkip first
  notProperty : first ≠ '&' ∧ first ≠ '!'
  notBlock : first ≠ '|' ∧ first ≠ '>'
  notEntry : first = '-' ∨ first = '?' → breaksOff rest = false

theorem OpensPlain.opensAtom {first : Char} {rest : List Char} (opens : OpensPlain first rest) :
    OpensAtom first rest := by
  have apart : ∀ mark ∈ markCharacters, first ≠ mark := by
    rintro mark member rfl
    exact opens.notMark member
  exact ⟨opens.stops, ⟨apart '&' (by decide), apart '!' (by decide)⟩,
    ⟨apart '|' (by decide), apart '>' (by decide)⟩,
    fun dash => opens.goesOn (dash.elim Or.inl (fun question => Or.inr (Or.inl question)))⟩

section Atoms

variable {first : Char} {rest : List Char} {c : Cursor}

theorem OpensAtom.readProperties (opens : OpensAtom first rest) (ahead : c.rest = first :: rest) :
    readProperties false 3 {} c = some ({}, c) := by
  unfold Yaml.readProperties
  split
  · rename_i same
    exact absurd (List.cons.inj (ahead.symm.trans same)).1 opens.notProperty.1
  · rename_i same
    exact absurd (List.cons.inj (ahead.symm.trans same)).1 opens.notProperty.2
  · rfl

theorem OpensAtom.not_atMark (opens : OpensAtom first rest) (ahead : c.rest = first :: rest) :
    c.atMark '-' = false ∧ c.atMark '?' = false := by
  have notEntry := opens.notEntry
  unfold Cursor.atMark
  rw [ahead]
  constructor
  · by_cases dash : first = '-'
    · simp [dash, notEntry (Or.inl dash)]
    · simp [dash]
  · by_cases question : first = '?'
    · simp [question, notEntry (Or.inr question)]
    · simp [question]

theorem OpensAtom.not_at_block (opens : OpensAtom first rest) (ahead : c.rest = first :: rest) :
    c.at ['|', '>'] = false := by
  simp [Cursor.at, ahead, opens.notBlock.1, opens.notBlock.2]

theorem Cursor.atEnd_of_column (ahead : c.rest = first :: rest) (inside : 0 < c.column) :
    c.atEnd = false := by
  simp [atEnd, ahead, atDocumentMark_of_column inside, Nat.ne_of_gt inside]

theorem readKeyOrAtom_plain (fuel floor : Nat) (c : Cursor) :
    readKeyOrAtom (fuel + 1) floor {} c = readAtom fuel false floor {} c := by
  simp [readKeyOrAtom]

/-- A node that stands right of the collection around it is neither over nor an item of that
collection. -/
theorem Cursor.inside_of_le {floor : Nat} (notEnd : c.atEnd = false) (right : floor ≤ c.column) :
    (c.atEnd || decide (c.column + 1 < floor)) = false ∧ c.column + 1 ≠ floor := by
  constructor
  · rw [notEnd, Bool.false_or]
    exact decide_eq_false (by omega)
  · omega

section Content

variable {fuel floor : Nat} {dash : Bool} {node : Node} {after later : Cursor}
  (opens : OpensAtom first rest) (ahead : c.rest = first :: rest) (notEnd : c.atEnd = false)
  (right : floor ≤ c.column) (read : readAtom fuel false floor {} c = some (node, after))
  (skipped : after.skip false = later)

include opens ahead notEnd right read skipped

/-- Right of the column of the collection around it, what is not a collection in block style is read
up to what follows, if that is no colon. -/
theorem readBlockContent_atom (unmarked : later.atMark ':' = false) :
    readBlockContent (fuel + 2) floor dash {} c =
      (node.addProperties? {}).map (fun node => (node, later)) := by
  rcases Cursor.inside_of_le notEnd right with ⟨going, deeper⟩
  simp [readBlockContent, going, deeper, opens.not_at_block ahead, opens.not_atMark ahead,
    opens.readProperties ahead, readKeyOrAtom_plain, read, skipped, unmarked]

/-- If a colon follows on the line, it is the first key of a mapping. -/
theorem readBlockContent_key {value : Node} {next : Cursor} (fresh : c.fresh = true)
    (marked : later.atMark ':' = true) (inLine : later.line = c.line)
    (reaches : c.keyReaches later = true)
    (valued : readBlockNode (fuel + 1) (c.column + 1) true { later.pass 1 with fresh := false } =
      some (value, next)) :
    readBlockContent (fuel + 2) floor dash {} c =
      (readBlockEntries (fuel + 1) c.column next [(node, value)]).map
        (fun found => (.mapping {} found.1, found.2)) := by
  rcases Cursor.inside_of_le notEnd right with ⟨going, deeper⟩
  simp [readBlockContent, going, deeper, opens.not_at_block ahead, opens.not_atMark ahead,
    opens.readProperties ahead, readKeyOrAtom_plain, read, skipped, fresh, marked, inLine, reaches,
    valued]

end Content

end Atoms

/-! ## Values -/

/-- What follows a value is no colon. -/
theorem Cursor.Opens.not_atMark {c : Cursor} {items : Bool} {floor : Nat} {text : List Char}
    (opens : c.Opens text) (follows : Follows items floor text) : c.atMark ':' = false := by
  unfold atMark
  rw [opens.rest]
  rcases follows.lineBody_cases with rfl | ⟨-, first, others, body, -, notColon⟩
  · rfl
  · simp [body, notColon]

/-- A printed value is read as a node from behind the colon or the dash before it, with `need` to
spare, whatever follows left of `floor`. -/
def ReadsBack (items : Bool) (floor need : Nat) (dash : Bool) (written : List Char) (node : Node) :
    Prop :=
  ∀ tail, Follows items floor tail → ∀ fuel, need ≤ fuel → ∀ c : Cursor, c.rest = written ++ tail →
    floor ≤ c.column → ∃ after, readBlockNode fuel floor dash c = some (node, after) ∧ after.Opens tail

/-- A value behind a space that is read on its line. -/
theorem readsBack_atom {items : Bool} {floor need : Nat} {dash : Bool} {written : List Char}
    {node : Node} {first : Char} {rest : List Char} (split : written = first :: rest)
    (opens : ∀ tail, OpensAtom first (rest ++ tail)) (inside : 0 < floor)
    (bare : node.addProperties? {} = some node)
    (reads : ∀ tail, Follows items floor tail → ∀ fuel, need ≤ fuel → ∀ c : Cursor,
      c.rest = written ++ tail → floor ≤ c.column →
      ∃ after, readAtom fuel false floor {} c = some (node, after) ∧ (after.skip false).Opens tail) :
    ReadsBack items floor (need + 3) dash (' ' :: written) node := by
  subst split
  intro tail follows fuel enough c ahead right
  rcases Nat.exists_eq_add_of_le enough with ⟨spare, rfl⟩
  have order : need + 3 + spare = need + spare + 2 + 1 := by omega
  have skipped := Cursor.skip_space (show c.rest = ' ' :: first :: (rest ++ tail) from ahead)
    (opens tail).stops
  rw [order, readBlockNode]
  generalize c.skip false = next at skipped ⊢
  have inLine : floor ≤ next.column := by
    rw [skipped]
    exact Nat.le_succ_of_le right
  have atFirst : next.rest = first :: (rest ++ tail) := by rw [skipped]
  rcases reads tail follows (need + spare) (Nat.le_add_right need spare) next atFirst inLine
    with ⟨after, read, left⟩
  refine ⟨after.skip false, ?_, left⟩
  have notEnd := Cursor.atEnd_of_column atFirst (Nat.lt_of_lt_of_le inside inLine)
  rw [readBlockContent_atom (opens tail) atFirst notEnd inLine read rfl (left.not_atMark follows),
    bare]
  rfl

theorem OpensPlain.append_lineEnd {first : Char} {rest : List Char} (opens : OpensPlain first rest)
    (tail : List Char) : OpensPlain first (rest ++ '\n' :: tail) where
  stops := opens.stops
  notMark := opens.notMark
  goesOn := by
    rw [breaksOff_append_lineEnd]
    exact opens.goesOn

theorem readAtom_plain {fuel floor : Nat} {first : Char} {rest : List Char}
    (opens : OpensPlain first rest) {c : Cursor} (ahead : c.rest = first :: rest) :
    readAtom (fuel + 1) false floor {} c =
      (plain false floor c).map
        (fun found => (.scalar {} .plain (String.ofList found.1), found.2)) := by
  have apart : ∀ mark ∈ markCharacters, first ≠ mark := by
    rintro mark member rfl
    exact opens.notMark member
  have shown : ∀ mark others, c.rest = mark :: others → mark ∈ markCharacters → False := by
    intro mark others same member
    exact apart mark member (List.cons.inj (ahead.symm.trans same)).1
  unfold readAtom
  split
  iterate 5
    · exact (shown _ _ ‹_› (by decide)).elim
  · rw [ahead, opens.startsPlain, if_pos rfl]

theorem readsBack_plain (items dash : Bool) {floor : Nat} (inside : 0 < floor)
    {text : List Char} (inhabited : text ≠ []) (allowed : allowsPlain text = true) :
    ReadsBack items floor 4 dash (' ' :: (text ++ ['\n'])) (.scalar {} .plain (String.ofList text)) := by
  rcases List.exists_cons_of_ne_nil inhabited with ⟨first, rest, rfl⟩
  have opens := (of_allowsPlain allowed).2
  show ReadsBack items floor (1 + 3) dash _ _
  refine readsBack_atom List.cons_append (fun tail => ?_) inside rfl ?_
  · rw [List.append_assoc]
    exact (opens.append_lineEnd tail).opensAtom
  · intro tail follows fuel enough c ahead right
    rcases Nat.exists_eq_add_of_le' enough with ⟨spare, rfl⟩
    rw [List.append_assoc] at ahead
    rcases plain_text inside follows allowed ahead right with ⟨after, read, left⟩
    refine ⟨after, ?_, ?_⟩
    · rw [readAtom_plain (opens.append_lineEnd tail) ahead, read]
      rfl
    · rwa [left.skip follows]

theorem opensAtom_quoteMark (double : Bool) (rest : List Char) :
    OpensAtom (quoteMark double) rest where
  stops := by
    cases double
    · exact ⟨by decide, by decide, by decide, by decide⟩
    · exact ⟨by decide, by decide, by decide, by decide⟩
  notProperty := by cases double <;> decide
  notBlock := by cases double <;> decide
  notEntry := by
    intro dash
    cases double <;> simp [quoteMark] at dash

theorem readsBack_quoted (items dash : Bool) {floor : Nat} (inside : 0 < floor)
    {double : Bool} {text written : List Char} (is : Written double text written) :
    ReadsBack items floor 4 dash (' ' :: quoteMark double :: (written ++ [quoteMark double, '\n']))
      (.scalar {} (if double then .doubleQuoted else .singleQuoted) (String.ofList text)) := by
  show ReadsBack items floor (1 + 3) dash _ _
  refine readsBack_atom rfl (fun tail => ?_) inside rfl ?_
  · exact opensAtom_quoteMark double _
  · intro tail follows fuel enough c ahead right
    rcases Nat.exists_eq_add_of_le' enough with ⟨spare, rfl⟩
    have opened := Cursor.pass_one (show c.rest = quoteMark double ::
      (written ++ [quoteMark double, '\n'] ++ tail) from ahead)
    rcases quoted_text is (c := c.pass 1) (by rw [opened, List.append_assoc]; rfl)
      (by rw [opened]; exact Nat.succ_pos _) with ⟨after, read, left⟩
    refine ⟨after, ?_, Cursor.skip_lineEnd left follows⟩
    cases double with
    | false =>
        have here : c.rest = '\'' :: (written ++ [quoteMark false, '\n'] ++ tail) := ahead
        simp [readAtom, here, read]
    | true =>
        have here : c.rest = '"' :: (written ++ [quoteMark true, '\n'] ++ tail) := ahead
        simp [readAtom, here, read]

theorem readsBack_literal (items dash : Bool) {floor : Nat} (inside : 0 < floor)
    {text : List Char} (inhabited : text ≠ []) (allowed : allowsLiteral text = true) :
    ReadsBack items floor 2 dash
      (' ' :: '|' :: (literalHints text ++
        '\n' :: (literalBody (floor + 1) true text ++ lineEndOf text)))
      (.scalar {} .literal (String.ofList text)) := by
  intro tail follows fuel enough c ahead right
  rcases Nat.exists_eq_add_of_le' enough with ⟨spare, rfl⟩
  have skipped := Cursor.skip_space (show c.rest = ' ' :: '|' :: (literalHints text ++
    '\n' :: (literalBody (floor + 1) true text ++ lineEndOf text) ++ tail) from ahead)
    ⟨by decide, by decide, by decide, by decide⟩
  rw [readBlockNode]
  generalize c.skip false = next at skipped ⊢
  have inLine : floor ≤ next.column := by
    rw [skipped]
    exact Nat.le_succ_of_le right
  have atMark : next.rest = '|' :: (literalHints text ++
      '\n' :: (literalBody (floor + 1) true text ++ lineEndOf text) ++ tail) := by rw [skipped]
  have passed := Cursor.pass_one atMark
  rcases block_text inside follows allowed inhabited (c := next.pass 1)
    (by rw [passed, List.append_assoc, List.cons_append]) with ⟨after, read, left⟩
  refine ⟨after, ?_, left⟩
  have notEnd := Cursor.atEnd_of_column atMark (Nat.lt_of_lt_of_le inside inLine)
  have inner : ¬ next.column + 1 < floor := by omega
  simp [readBlockContent, notEnd, inner, Cursor.at, atMark, readBlockScalar, read]

theorem ReadsBack.mono {items : Bool} {floor need more : Nat} {dash : Bool} {written : List Char}
    {node : Node} (reads : ReadsBack items floor need dash written node) (le : need ≤ more) :
    ReadsBack items floor more dash written node :=
  fun tail follows fuel enough => reads tail follows fuel (Nat.le_trans le enough)

/-- What the choice of a style makes sure of. -/
theorem styleOf_cases (text : String) :
    (styleOf text = .literal ∧ text.toList ≠ [] ∧ allowsLiteral text.toList = true) ∨
      (styleOf text = .plain ∧ readsAsText text = true ∧ allowsPlain text.toList = true) ∨
      (styleOf text = .singleQuoted ∧ '\n' ∉ text.toList ∧ allowsSingleQuotes text.toList = true) ∨
      styleOf text = .doubleQuoted := by
  unfold styleOf
  dsimp only
  split
  · rename_i feed
    split
    · refine Or.inl ⟨rfl, fun nothing => ?_, ‹_›⟩
      rw [nothing] at feed
      cases feed
    · exact Or.inr (Or.inr (Or.inr rfl))
  · rename_i noFeed
    split
    · rename_i plain
      rw [Bool.and_eq_true] at plain
      exact Or.inr (Or.inl ⟨rfl, plain⟩)
    · split
      · exact Or.inr (Or.inr (Or.inl ⟨rfl, by simpa using noFeed, ‹_›⟩))
      · exact Or.inr (Or.inr (Or.inr rfl))

theorem toList_ne_nil_of_readsAsText {text : String} (reads : readsAsText text = true) :
    text.toList ≠ [] := by
  intro nothing
  rw [String.toList_eq_nil_iff.mp nothing] at reads
  exact absurd reads (by decide)

/-- Every text is printed so that it is read back as a scalar in the style it is printed in. -/
theorem readsBack_text (items dash : Bool) {floor : Nat} (inside : 0 < floor)
    (text : String) :
    ReadsBack items floor 4 dash (' ' :: printText (floor + 1) text)
      (.scalar {} (styleOf text) text) := by
  have whole : String.ofList text.toList = text := String.ofList_toList
  unfold printText
  rcases styleOf_cases text with ⟨style, inhabited, allowed⟩ | ⟨style, isText, allowed⟩ |
    ⟨style, noFeed, allowed⟩ | style
  · have reads := readsBack_literal items dash inside inhabited allowed
    rw [whole] at reads
    rw [style]
    simpa [printIn, lineEndOf] using reads.mono (by decide)
  · have reads := readsBack_plain items dash inside
      (toList_ne_nil_of_readsAsText isText) allowed
    rw [whole] at reads
    rw [style]
    exact reads
  · have reads := readsBack_quoted items dash inside
      (written_single (Nat.succ_pos floor) (.of_allowsSingleQuotes allowed noFeed))
    rw [whole] at reads
    rw [style]
    exact reads
  · have reads := readsBack_quoted items dash inside
      (written_double text.toList)
    rw [whole] at reads
    rw [style]
    exact reads

end Yaml
end ExportVolumes
