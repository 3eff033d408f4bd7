import ExportVolumes.Yaml.Printer
import ExportVolumes.Yaml.Reader

namespace ExportVolumes
namespace Yaml

/-!
Where one printed line ends and the next one begins.

What follows a value of a printed mapping lies left of the lines of the value: nothing, the
dash of an item or the key of an entry (`Follows`).  Every reader of a value therefore stops in
the same place, at the first character of that line, and `Cursor.Opens` says that a cursor is
there.
-/

/-! ## Characters -/

/-- A character that skipping stops at. -/
structure StopsSkip (c : Char) : Prop where
  notBreak : isBreak c = false
  notBlank : isBlank c = false
  notComment : c ≠ '#'
  notOrderMark : c ≠ orderMark

theorem isBlank_false {c : Char} (notBlank : isBlank c = false) : c ≠ ' ' ∧ c ≠ '\t' := by
  simpa [isBlank] using notBlank

theorem isAlpha_ne {c : Char} (letter : c.isAlpha = true) (other : Char)
    (mark : other.isAlpha = false) : c ≠ other := by
  rintro rfl
  exact absurd letter (by simp [mark])

theorem isBreak_of_isAlpha {c : Char} (letter : c.isAlpha = true) : isBreak c = false := by
  have apart := isAlpha_ne letter
  simp [isBreak, apart '\n' (by decide), apart '\r' (by decide), apart '\x85' (by decide),
    apart '\u2028' (by decide), apart '\u2029' (by decide)]

theorem isBlank_of_isAlpha {c : Char} (letter : c.isAlpha = true) : isBlank c = false := by
  have apart := isAlpha_ne letter
  simp [isBlank, apart ' ' (by decide), apart '\t' (by decide)]

theorem isPrintable_ne {c : Char} (printable : isPrintable c = true) (other : Char)
    (hidden : isPrintable other = false) : c ≠ other := by
  rintro rfl
  rw [hidden] at printable
  cases printable

theorem StopsSkip.of_isAlpha {c : Char} (letter : c.isAlpha = true) : StopsSkip c where
  notBreak := isBreak_of_isAlpha letter
  notBlank := isBlank_of_isAlpha letter
  notComment := isAlpha_ne letter '#' (by decide)
  notOrderMark := isAlpha_ne letter orderMark (by decide)

/-- The longest run of a kind of characters at the front of a text, and what is left behind it. -/
theorem exists_run (kind : Char → Bool) (text : List Char) :
    ∃ run rest, text = run ++ rest ∧ (∀ c ∈ run, kind c = true) ∧
      (∀ c ∈ rest.head?, kind c = false) := by
  refine ⟨text.takeWhile kind, text.dropWhile kind, List.takeWhile_append_dropWhile.symm,
    fun c member => List.all_eq_true.mp List.all_takeWhile c member, fun c first => ?_⟩
  have stops := List.head?_dropWhile_not kind text
  rw [Option.mem_def.mp first] at stops
  simpa using stops

/-! ## What follows a value -/

/-- Whether a text goes on with the key of an entry. -/
def startsKey : List Char → Bool
  | c :: _ => c.isAlpha
  | [] => false

/-- Whether a text goes on with the dash of an item. -/
def startsItem : List Char → Bool
  | '-' :: ' ' :: _ => true
  | _ => false

/-- A text that begins with a key or, where `items` allows it, with an item, in a column left of
`floor`; or no text at all. -/
def Follows (items : Bool) (floor : Nat) (text : List Char) : Prop :=
  text = [] ∨ ∃ column rest, column < floor ∧ text = indentation column ++ rest ∧
    (startsKey rest = true ∨ (items = true ∧ startsItem rest = true))

namespace Follows

variable {items : Bool} {floor : Nat} {text : List Char}

theorem nil : Follows items floor [] :=
  Or.inl rfl

theorem key {column : Nat} {rest : List Char} (left : column < floor)
    (starts : startsKey rest = true) : Follows items floor (indentation column ++ rest) :=
  Or.inr ⟨column, rest, left, rfl, Or.inl starts⟩

theorem item {column : Nat} {rest : List Char} (left : column < floor)
    (starts : startsItem rest = true) : Follows true floor (indentation column ++ rest) :=
  Or.inr ⟨column, rest, left, rfl, Or.inr ⟨rfl, starts⟩⟩

theorem mono {wider : Nat} (follows : Follows items floor text) (le : floor ≤ wider) :
    Follows items wider text := by
  rcases follows with rfl | ⟨column, rest, left, rfl, starts⟩
  · exact nil
  · exact Or.inr ⟨column, rest, Nat.lt_of_lt_of_le left le, rfl, starts⟩

theorem withItems (follows : Follows items floor text) : Follows true floor text := by
  rcases follows with rfl | ⟨column, rest, left, rfl, key | ⟨_, item⟩⟩
  · exact nil
  · exact .key left key
  · exact .item left item

end Follows

/-- The column of the first character of a line that is no space. -/
def lineColumn (line : List Char) : Nat :=
  (line.takeWhile (· = ' ')).length

/-- A line without its indentation. -/
def lineBody (line : List Char) : List Char :=
  line.dropWhile (· = ' ')

theorem takeWhile_indentation {column : Nat} {rest : List Char} (stops : rest.head? ≠ some ' ') :
    (indentation column ++ rest).takeWhile (· = ' ') = indentation column := by
  rw [List.takeWhile_append_of_pos (by simp [indentation])]
  cases rest with
  | nil => simp
  | cons c others => simp [show c ≠ ' ' by simpa using stops]

theorem lineColumn_indentation {column : Nat} {rest : List Char} (stops : rest.head? ≠ some ' ') :
    lineColumn (indentation column ++ rest) = column := by
  rw [lineColumn, takeWhile_indentation stops, indentation, List.length_replicate]

theorem lineBody_indentation {column : Nat} {rest : List Char} (stops : rest.head? ≠ some ' ') :
    lineBody (indentation column ++ rest) = rest := by
  rw [lineBody, List.dropWhile_append_of_pos (by simp [indentation])]
  cases rest with
  | nil => rfl
  | cons c others => simp [show c ≠ ' ' by simpa using stops]

theorem indentation_append_lineBody (line : List Char) :
    indentation (lineColumn line) ++ lineBody line = line := by
  have spaces : indentation (lineColumn line) = line.takeWhile (· = ' ') := by
    refine (List.eq_replicate_iff.mpr ⟨rfl, fun c member => ?_⟩).symm
    simpa using List.all_eq_true.mp List.all_takeWhile c member
  rw [spaces, lineBody, List.takeWhile_append_dropWhile]

theorem head_lineBody_ne (line : List Char) : (lineBody line).head? ≠ some ' ' := by
  intro space
  have stops := List.head?_dropWhile_not (fun c : Char => decide (c = ' ')) line
  rw [show line.dropWhile (fun c => decide (c = ' ')) = lineBody line from rfl, space] at stops
  simp at stops

/-- What follows a value is read from a character that skipping stops at, which is no colon. -/
theorem Follows.lineBody_cases {items : Bool} {floor : Nat} {text : List Char}
    (follows : Follows items floor text) :
    text = [] ∨ lineColumn text < floor ∧
      ∃ first rest, lineBody text = first :: rest ∧ StopsSkip first ∧ first ≠ ':' := by
  rcases follows with rfl | ⟨column, rest, left, rfl, key | ⟨-, item⟩⟩
  · exact Or.inl rfl
  · cases rest with
    | nil => cases key
    | cons first others =>
        have stops : StopsSkip first := .of_isAlpha key
        have head : (first :: others).head? ≠ some ' ' := by simpa using (isBlank_false stops.notBlank).1
        rw [lineBody_indentation head, lineColumn_indentation head]
        exact Or.inr ⟨left, first, others, rfl, stops, isAlpha_ne key ':' (by decide)⟩
  · unfold startsItem at item
    split at item
    · rename_i others
      rw [lineBody_indentation (by simp), lineColumn_indentation (by simp)]
      exact Or.inr ⟨left, '-', ' ' :: others, rfl, ⟨by decide, by decide, by decide, by decide⟩,
        by decide⟩
    · cases item

theorem Follows.lineColumn_lt {items : Bool} {floor : Nat} {text : List Char}
    (follows : Follows items floor text) (inside : 0 < floor) : lineColumn text < floor := by
  rcases follows.lineBody_cases with rfl | ⟨left, _⟩
  · exact inside
  · exact left

namespace Cursor

/-- A cursor stands at the first character of a line behind its indentation, where a collection
in block style may begin. -/
structure Opens (c : Cursor) (line : List Char) : Prop where
  rest : c.rest = lineBody line
  column : c.column = lineColumn line
  fresh : c.fresh = true

/-! ## Skipping -/

theorem skip_of_nil {c : Cursor} (rest : c.rest = []) (flow : Bool) : c.skip flow = c := by
  cases c
  subst rest
  rfl

theorem skipFrom_stops (flow : Bool) {first : Char} (stops : StopsSkip first) (rest : List Char)
    (c : Cursor) : skipFrom flow false (first :: rest) c = { c with rest := first :: rest } := by
  rcases isBlank_false stops.notBlank with ⟨notSpace, notTab⟩
  simp [skipFrom, stops.notBreak, notSpace, notTab, stops.notComment, stops.notOrderMark]

theorem skip_stops {c : Cursor} {first : Char} {rest : List Char} (ahead : c.rest = first :: rest)
    (stops : StopsSkip first) (flow : Bool) : c.skip flow = c := by
  rw [skip, ahead, skipFrom_stops flow stops, ← ahead]

/-- Skipping goes over the spaces that it begins with. -/
theorem skipFrom_indentation (flow : Bool) (count : Nat) (rest : List Char) (c : Cursor) :
    skipFrom flow false (indentation count ++ rest) c =
      skipFrom flow false rest { c with index := c.index + count, column := c.column + count } := by
  induction count generalizing c with
  | zero => rfl
  | succ count ih =>
      have split : indentation (count + 1) ++ rest = ' ' :: (indentation count ++ rest) := rfl
      have space : skipFrom flow false (' ' :: (indentation count ++ rest)) c =
          skipFrom flow false (indentation count ++ rest)
            { c with index := c.index + 1, column := c.column + 1 } := by
        simp [skipFrom, isBreak]
        rfl
      rw [split, space, ih]
      simp only [Nat.add_assoc, Nat.add_comm 1 count]

/-- Skipping from the end of a line leads to the first character of what follows. -/
theorem skip_lineEnd {c : Cursor} {items : Bool} {floor : Nat} {text : List Char}
    (rest : c.rest = '\n' :: text) (follows : Follows items floor text) :
    (c.skip false).Opens text := by
  have next : c.skip false = skipFrom false false text
      { c with index := c.index + '\n'.utf8Size, line := c.line + 1, column := 0, fresh := true } := by
    rw [skip]
    simp [rest, skipFrom, isBreak]
  rcases follows.lineBody_cases with rfl | ⟨_, first, others, body, stops, _⟩
  · rw [next]
    exact ⟨rfl, rfl, rfl⟩
  · rw [next, ← indentation_append_lineBody text, skipFrom_indentation, body,
      skipFrom_stops false stops, ← body, indentation_append_lineBody]
    exact ⟨rfl, Nat.zero_add _, rfl⟩

theorem Opens.skip {c : Cursor} {items : Bool} {floor : Nat} {text : List Char}
    (opens : c.Opens text) (follows : Follows items floor text) : c.skip false = c := by
  rcases follows.lineBody_cases with rfl | ⟨_, first, others, body, stops, _⟩
  · exact skip_of_nil opens.rest false
  · exact skip_stops (opens.rest.trans body) stops false

/-- Skipping goes over a single space before a value. -/
theorem skip_space {c : Cursor} {first : Char} {rest : List Char}
    (ahead : c.rest = ' ' :: first :: rest) (stops : StopsSkip first) :
    c.skip false =
      { c with rest := first :: rest, index := c.index + 1, column := c.column + 1 } := by
  have space := skipFrom_indentation false 1 (first :: rest) c
  rw [skipFrom_stops false stops] at space
  rw [skip, ahead]
  exact space

/-! ## Passing on within a line -/

theorem passTo_append {c : Cursor} (run after : List Char) (ahead : c.rest = run ++ after) :
    c.passTo after =
      { c with
        rest := after, index := c.index + octetCount run, column := c.column + run.length } := by
  have passed : c.rest.length - after.length = run.length := by
    rw [ahead, List.length_append, Nat.add_sub_cancel]
  have taken : c.rest.take run.length = run := by
    rw [ahead, List.take_left]
  rw [passTo, passed, taken]

theorem pass_one {c : Cursor} {first : Char} {rest : List Char} (ahead : c.rest = first :: rest) :
    c.pass 1 =
      { c with rest := rest, index := c.index + first.utf8Size, column := c.column + 1 } := by
  have one := passTo_append [first] rest ahead
  rw [pass, ahead, List.drop_one, List.tail_cons, one]
  simp [octetCount]

theorem atDocumentMark_of_column {c : Cursor} (inside : 0 < c.column) : c.atDocumentMark = false := by
  simp [atDocumentMark, Nat.ne_of_gt inside]

end Cursor

/-! ## Gaps between words -/

namespace Gap

theorem readFrom_stops (floor : Nat) (gap : Gap) {first : Char} (notBlank : isBlank first = false)
    (notBreak : isBreak first = false) (rest : List Char) (c : Cursor) :
    readFrom floor gap (first :: rest) c = some (gap, { c with rest := first :: rest }) := by
  simp [readFrom, notBlank, notBreak]

/-- Spaces are part of a gap as long as there is no break in it. -/
theorem readFrom_spaces (floor count : Nat) (gap : Gap) (unbroken : gap.broken = false)
    (rest : List Char) (c : Cursor) :
    readFrom floor gap (indentation count ++ rest) c =
      readFrom floor { gap with blanks := gap.blanks ++ indentation count } rest
        { c with index := c.index + count, column := c.column + count } := by
  induction count generalizing gap c with
  | zero => simp [indentation]
  | succ count ih =>
      have split : indentation (count + 1) = ' ' :: indentation count := rfl
      rw [split, List.cons_append, readFrom, if_pos (by decide), unbroken]
      simp only [Bool.false_and, Bool.false_eq_true, if_false]
      rw [ih _ rfl]
      simp only [List.append_assoc, List.singleton_append, Nat.add_assoc, Nat.add_comm 1 count]

/-- Behind a break, spaces are passed over. -/
theorem readFrom_indentation (floor count : Nat) (gap : Gap) (broken : gap.broken = true)
    (rest : List Char) (c : Cursor) :
    readFrom floor gap (indentation count ++ rest) c =
      readFrom floor gap rest { c with index := c.index + count, column := c.column + count } := by
  induction count generalizing c with
  | zero => rfl
  | succ count ih =>
      have split : indentation (count + 1) = ' ' :: indentation count := rfl
      rw [split, List.cons_append, readFrom, if_pos (by decide)]
      simp only [broken, Char.reduceEq, decide_false, Bool.and_false, Bool.false_and,
        Bool.false_eq_true, if_false, if_true]
      rw [ih]
      simp only [Nat.add_assoc, Nat.add_comm 1 count]

/-- A gap at the end of a value ends in the first character of what follows. -/
theorem readFrom_lineEnd {items : Bool} {floor : Nat} {text : List Char}
    (follows : Follows items floor text) (c : Cursor) :
    ∃ after, readFrom floor {} ('\n' :: text) c =
        some ({ broken := true, first := some '\n' }, after) ∧
      after.rest = lineBody text ∧ after.column = lineColumn text := by
  have next : readFrom floor {} ('\n' :: text) c =
      readFrom floor { broken := true, first := some '\n' } text
        { c with index := c.index + '\n'.utf8Size, line := c.line + 1, column := 0 } := by
    simp [readFrom, isBlank, isBreak, addBreak, breakText]
  rw [next]
  rcases follows.lineBody_cases with rfl | ⟨_, first, others, body, stops, _⟩
  · exact ⟨_, rfl, rfl, rfl⟩
  · have stopped := readFrom_indentation floor (lineColumn text)
      { broken := true, first := some '\n' } rfl (lineBody text)
      { c with index := c.index + '\n'.utf8Size, line := c.line + 1, column := 0 }
    rw [indentation_append_lineBody, body,
      readFrom_stops floor _ stops.notBlank stops.notBreak] at stopped
    exact ⟨_, stopped, body.symm, Nat.zero_add _⟩

end Gap
end Yaml
end ExportVolumes
