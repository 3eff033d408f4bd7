import ExportVolumes.Proofs.Yaml.Line

namespace ExportVolumes
namespace Yaml

/-!
Quoted scalars are read back.

`Written` takes a text in quotes apart the way the reader goes over it: into words, each of which
stands for a run of characters, and gaps between them.  Reading is one induction over it for both
kinds of quotes (`quotedFrom_eq`); what is left to show of a kind is how its words and gaps are
written.
-/

/-! ## Words and gaps -/

/-- The quote around a scalar. -/
def quoteMark (double : Bool) : Char :=
  if double then '"' else '\''

/-- What a word in quotes ends before: a space, a break, or the quote that closes the scalar at the
end of its line. -/
inductive EndsWord (double : Bool) : List Char → Prop
  | gap {c : Char} {rest : List Char} (blank : (isBlank c || isBreak c) = true) :
      EndsWord double (c :: rest)
  | close (tail : List Char) : EndsWord double (quoteMark double :: '\n' :: tail)

/-- A text that the reader takes for a word and that stands for `run`. -/
def ReadsWord (double : Bool) (word run : List Char) : Prop :=
  ∀ after, EndsWord double after →
    (if double then doubleRun 0 0 (word ++ after)
      else some ((singleRun (word ++ after)).1, (singleRun (word ++ after)).2, false)) =
      some (run, after, false)

/-- A text that the reader takes for a gap inside of a line, or up to a later line, and that stands
for `blank`. -/
def ReadsGap (gap blank : List Char) : Prop :=
  ∀ first rest, isBlank first = false → isBreak first = false → ∀ c : Cursor,
    ∃ read after, Gap.readFrom 0 {} (gap ++ first :: rest) c = some (read, after) ∧
      read.text = blank ∧ after.rest = first :: rest ∧ 0 < after.column

/-- A text and how it is written in quotes. -/
inductive Written (double : Bool) : (text written : List Char) → Prop
  | last {run word : List Char} (reads : ReadsWord double word run) : Written double run word
  | more {run word blank gap text written : List Char} (reads : ReadsWord double word run)
      (spaced : ReadsGap gap blank)
      (breaks : ∃ first rest, gap = first :: rest ∧ (isBlank first || isBreak first) = true)
      (starts : ∀ first ∈ written.head?, isBlank first = false ∧ isBreak first = false)
      (later : Written double text written) :
      Written double (run ++ blank ++ text) (word ++ gap ++ written)

theorem quoteMark_stops (double : Bool) :
    isBlank (quoteMark double) = false ∧ isBreak (quoteMark double) = false := by
  cases double <;> decide

/-- One step of the reader of a quoted scalar takes in a word, and ends or goes over the gap behind
it. -/
theorem quotedFrom_word {double : Bool} {fuel : Nat} {c : Cursor} {run : List Char} {first : Char}
    {rest : List Char} (inside : 0 < c.column)
    (word : (if double then doubleRun 0 0 c.rest
      else some ((singleRun c.rest).1, (singleRun c.rest).2, false)) =
      some (run, first :: rest, false)) (before : List Char) :
    quotedFrom double (fuel + 1) c before =
      if first = quoteMark double then
        some (before ++ run, { (c.passTo (first :: rest)).pass 1 with fresh := false })
      else
        match Gap.readFrom 0 {} (first :: rest) (c.passTo (first :: rest)) with
        | none => none
        | some (gap, c) => quotedFrom double fuel c (before ++ run ++ gap.text) := by
  rw [quotedFrom, if_neg (by simp [Cursor.atDocumentMark_of_column inside])]
  simp only [word, Bool.false_eq_true, if_false]
  rfl

/-- The reader of a quoted scalar gives the text and stops behind the closing quote. -/
theorem quotedFrom_eq {double : Bool} {text written : List Char} (is : Written double text written)
    {tail : List Char} {fuel : Nat} (enough : written.length < fuel) {c : Cursor}
    (ahead : c.rest = written ++ quoteMark double :: '\n' :: tail) (inside : 0 < c.column)
    (before : List Char) :
    ∃ after, quotedFrom double fuel c before = some (before ++ text, after) ∧
      after.rest = '\n' :: tail := by
  induction is generalizing fuel c before with
  | last reads =>
      cases fuel with
      | zero => exact absurd enough (Nat.not_lt_zero _)
      | succ fuel =>
          have word := reads _ (.close tail)
          rw [← ahead] at word
          exact ⟨_, (quotedFrom_word inside word before).trans (if_pos rfl), rfl⟩
  | @more run word blank gap text written reads spaced breaks starts later ih =>
      cases fuel with
      | zero => exact absurd enough (Nat.not_lt_zero _)
      | succ fuel =>
          rcases breaks with ⟨first, rest, rfl, breaks⟩
          have word := reads (first :: rest ++ (written ++ quoteMark double :: '\n' :: tail))
            (.gap breaks)
          rw [← List.append_assoc, ← List.append_assoc, ← ahead] at word
          -- What stands behind the gap is the next word or the closing quote.
          have next : ∃ d others, written ++ quoteMark double :: '\n' :: tail = d :: others ∧
              isBlank d = false ∧ isBreak d = false := by
            cases written with
            | nil => exact ⟨_, _, rfl, quoteMark_stops double⟩
            | cons d others => exact ⟨d, _, rfl, starts d rfl⟩
          rcases next with ⟨d, others, next, notBlank, notBreak⟩
          rcases spaced d others notBlank notBreak
            (c.passTo (first :: rest ++ (written ++ quoteMark double :: '\n' :: tail)))
            with ⟨read, behind, gathered, rfl, resumes, right⟩
          rw [← next] at gathered resumes
          have unquoted : first ≠ quoteMark double := by
            rintro rfl
            simp [quoteMark_stops double] at breaks
          have shorter : written.length < fuel := by
            simp only [List.length_append, List.length_cons] at enough
            omega
          rcases ih shorter resumes right (before ++ run ++ read.text) with ⟨after, goesOn, ended⟩
          refine ⟨after, ?_, ended⟩
          rw [List.cons_append] at word gathered
          rw [quotedFrom_word inside word, if_neg unquoted, gathered, ← List.append_assoc,
            ← List.append_assoc]
          exact goesOn

/-! ## Gaps -/

/-- A break that is not a line feed and stands for itself. -/
def isSeparator (c : Char) : Bool :=
  c = '\u2028' || c = '\u2029'

theorem isSeparator_cases {c : Char} (separator : isSeparator c = true) :
    c = '\u2028' ∨ c = '\u2029' := by
  simpa [isSeparator] using separator

theorem isSeparator_of_printable {c : Char} (printable : isPrintable c = true)
    (newline : isBreak c = true) (notFeed : c ≠ '\n') : isSeparator c = true := by
  simp only [isBreak, Bool.or_eq_true, decide_eq_true_eq] at newline
  rcases newline with (((feed | carriage) | nextLine) | line) | paragraph
  · exact absurd feed notFeed
  · exact absurd carriage (isPrintable_ne printable '\r' (by decide))
  · exact absurd nextLine (isPrintable_ne printable '\x85' (by decide))
  · simp [isSeparator, line]
  · simp [isSeparator, paragraph]

theorem readsGap_spaces (count : Nat) :
    ReadsGap (indentation (count + 1)) (indentation (count + 1)) := by
  intro first rest notBlank notBreak c
  refine ⟨_, _, (Gap.readFrom_spaces 0 (count + 1) {} rfl (first :: rest) c).trans
    (Gap.readFrom_stops 0 _ notBlank notBreak rest _), ?_, rfl, ?_⟩
  · simp [Gap.text]
  · exact Nat.lt_of_lt_of_le (Nat.succ_pos count) (Nat.le_add_left _ _)

/-- Behind a break, the separators that follow are taken in. -/
theorem Gap.readFrom_separators (floor : Nat) {breaks : List Char}
    (separators : ∀ c ∈ breaks, isSeparator c = true) (gap : Gap) (broken : gap.broken = true)
    (rest : List Char) (c : Cursor) :
    ∃ after, Gap.readFrom floor gap (breaks ++ rest) c =
      Gap.readFrom floor { gap with later := gap.later ++ breaks } rest after := by
  induction breaks generalizing gap c with
  | nil => exact ⟨c, by simp⟩
  | cons first others ih =>
      rcases ih (fun d member => separators d (List.mem_cons_of_mem _ member))
        { gap with later := gap.later ++ [first] } broken
        { c with index := c.index + first.utf8Size, line := c.line + 1, column := 0 }
        with ⟨after, goesOn⟩
      refine ⟨after, ?_⟩
      rw [List.append_assoc, List.singleton_append] at goesOn
      rw [← goesOn]
      rcases isSeparator_cases (separators first List.mem_cons_self) with rfl | rfl <;>
        simp [Gap.readFrom, isBlank, isBreak, Gap.addBreak, broken, breakText]

theorem readsGap_separators {indent : Nat} (indented : 0 < indent) {first : Char}
    {breaks : List Char} (separators : ∀ c ∈ first :: breaks, isSeparator c = true) :
    ReadsGap (first :: breaks ++ indentation indent) (first :: breaks) := by
  intro next rest notBlank notBreak c
  rcases Gap.readFrom_separators 0 (fun d member => separators d (List.mem_cons_of_mem _ member))
    { broken := true, first := some first } rfl (indentation indent ++ next :: rest)
    { c with index := c.index + first.utf8Size, line := c.line + 1, column := 0 }
    with ⟨after, goesOn⟩
  rw [Gap.readFrom_indentation 0 indent _ rfl, Gap.readFrom_stops 0 _ notBlank notBreak] at goesOn
  have entered : Gap.readFrom 0 {} (first :: breaks ++ indentation indent ++ next :: rest) c =
      Gap.readFrom 0 { broken := true, first := some first }
        (breaks ++ (indentation indent ++ next :: rest))
        { c with index := c.index + first.utf8Size, line := c.line + 1, column := 0 } := by
    rw [List.append_assoc, List.cons_append]
    rcases isSeparator_cases (separators first List.mem_cons_self) with rfl | rfl <;>
      simp [Gap.readFrom, isBlank, isBreak, Gap.addBreak, breakText]
  refine ⟨_, _, entered.trans goesOn, ?_, rfl, Nat.lt_of_lt_of_le indented (Nat.le_add_left _ _)⟩
  rcases isSeparator_cases (separators first List.mem_cons_self) with rfl | rfl <;> simp [Gap.text]

/-! ## Spaces beside breaks -/

theorem hasAdjacent_append_right {first second : Char → Bool} (front : List Char)
    {rest : List Char} (apart : hasAdjacent first second (front ++ rest) = false) :
    hasAdjacent first second rest = false := by
  induction front with
  | nil => exact apart
  | cons c others ih =>
      apply ih
      rw [List.cons_append] at apart
      cases text : others ++ rest with
      | nil => rfl
      | cons d later =>
          rw [text, hasAdjacent, Bool.or_eq_false_iff] at apart
          exact apart.2

/-- What stands right behind a run of the one kind of characters is none of the other. -/
theorem hasAdjacent_behind {first second : Char → Bool} {run : List Char} (inhabited : run ≠ [])
    (all : ∀ c ∈ run, first c = true) {d : Char} {rest : List Char}
    (apart : hasAdjacent first second (run ++ d :: rest) = false) : second d = false := by
  induction run with
  | nil => exact absurd rfl inhabited
  | cons c others ih =>
      cases others with
      | nil =>
          rw [List.singleton_append, hasAdjacent, Bool.or_eq_false_iff,
            all c List.mem_cons_self, Bool.true_and] at apart
          exact apart.1
      | cons e later =>
          exact ih (List.cons_ne_nil e later) (fun x member => all x (List.mem_cons_of_mem c member))
            (hasAdjacent_append_right [c] apart)

/-! ## Single quotes -/

/-- A text that single quotes suit and that has no line feed in it. -/
structure SingleLine (text : List Char) : Prop where
  printable : ∀ c ∈ text, isPrintable c = true ∧ c ≠ '\n'
  spaceBreak : hasAdjacent (· = ' ') isBreak text = false
  breakSpace : hasAdjacent isBreak (· = ' ') text = false

theorem SingleLine.of_allowsSingleQuotes {text : List Char} (allowed : allowsSingleQuotes text = true)
    (noFeed : '\n' ∉ text) : SingleLine text := by
  simp only [allowsSingleQuotes, Bool.not_eq_true', Bool.or_eq_false_iff] at allowed
  refine ⟨fun c member => ⟨?_, ?_⟩, allowed.1.2, allowed.2⟩
  · simpa using List.any_eq_false.mp allowed.1.1 c member
  · rintro rfl
    exact noFeed member

theorem SingleLine.append_right {front rest : List Char} (line : SingleLine (front ++ rest)) :
    SingleLine rest where
  printable := fun c member => line.printable c (List.mem_append_right front member)
  spaceBreak := hasAdjacent_append_right front line.spaceBreak
  breakSpace := hasAdjacent_append_right front line.breakSpace

/-- A character of a word in single quotes. -/
def singleQuotedChar (c : Char) : List Char :=
  if c = '\'' then ['\'', '\''] else [c]

section SingleQuotedBody

variable {indent : Nat}

theorem singleQuotedBody_word {run : List Char} (word : ∀ c ∈ run, isSpaceOrBreak c = false)
    (rest : List Char) :
    singleQuotedBody indent false (run ++ rest) =
      run.flatMap singleQuotedChar ++ singleQuotedBody indent false rest := by
  induction run with
  | nil => rfl
  | cons c others ih =>
      have here := word c List.mem_cons_self
      rw [isSpaceOrBreak, Bool.or_eq_false_iff, decide_eq_false_iff_not] at here
      rw [List.cons_append, singleQuotedBody, here.2, if_neg here.1,
        ih (fun d member => word d (List.mem_cons_of_mem c member))]
      simp [singleQuotedChar]

theorem singleQuotedBody_spaces (count : Nat) (rest : List Char) :
    singleQuotedBody indent false (indentation count ++ rest) =
      indentation count ++ singleQuotedBody indent false rest := by
  induction count with
  | zero => rfl
  | succ count ih =>
      have split : indentation (count + 1) = ' ' :: indentation count := rfl
      rw [split, List.cons_append, singleQuotedBody, if_neg (by decide), if_pos rfl, ih,
        List.cons_append]

theorem singleQuotedBody_separators {breaks : List Char} (inhabited : breaks ≠ [])
    (separators : ∀ c ∈ breaks, isSeparator c = true) (broken : Bool) (rest : List Char) :
    singleQuotedBody indent broken (breaks ++ rest) =
      breaks ++ singleQuotedBody indent true rest := by
  induction breaks generalizing broken with
  | nil => exact absurd rfl inhabited
  | cons first others ih =>
      have step : singleQuotedBody indent broken (first :: (others ++ rest)) =
          first :: singleQuotedBody indent true (others ++ rest) := by
        rcases isSeparator_cases (separators first List.mem_cons_self) with rfl | rfl <;>
          simp [singleQuotedBody, isBreak]
      rw [List.cons_append, step, List.cons_append]
      cases others with
      | nil => rfl
      | cons second later =>
          rw [ih (List.cons_ne_nil _ _) (fun d member => separators d (List.mem_cons_of_mem _ member))]

theorem singleQuotedBody_behind_break {rest : List Char}
    (starts : ∀ c ∈ rest.head?, isSpaceOrBreak c = false) :
    singleQuotedBody indent true rest = indentation indent ++ singleQuotedBody indent false rest := by
  cases rest with
  | nil => simp [singleQuotedBody]
  | cons c others =>
      have here := starts c rfl
      rw [isSpaceOrBreak, Bool.or_eq_false_iff, decide_eq_false_iff_not] at here
      simp [singleQuotedBody, here.1, here.2]

end SingleQuotedBody

theorem singleRun_ends {after : List Char} (ends : EndsWord false after) :
    singleRun after = ([], after) := by
  cases ends with
  | @gap c rest blank =>
      have notQuote : c ≠ '\'' := by
        rintro rfl
        cases blank
      rw [Bool.or_eq_true] at blank
      unfold singleRun
      split
      · rename_i same
        exact absurd (List.cons.inj same).1 notQuote
      · rename_i same
        cases same
        rcases blank with blank | newline
        · simp [blank]
        · simp [newline]
      · rename_i nothing
        cases nothing
  | close tail => simp [quoteMark, singleRun]

theorem readsWord_single {run : List Char}
    (word : ∀ c ∈ run, isBlank c = false ∧ isBreak c = false) :
    ReadsWord false (run.flatMap singleQuotedChar) run := by
  intro after ends
  have read : singleRun (run.flatMap singleQuotedChar ++ after) = (run, after) := by
    induction run with
    | nil => exact singleRun_ends ends
    | cons c others ih =>
        have here := word c List.mem_cons_self
        have later := ih (fun d member => word d (List.mem_cons_of_mem c member))
        rw [List.flatMap_cons, List.append_assoc]
        by_cases quote : c = '\''
        · simp [singleQuotedChar, quote, singleRun, later]
        · simp [singleQuotedChar, quote, singleRun, here.1, here.2, later]
  simp [read]

theorem head_singleQuotedBody {indent : Nat} {text : List Char}
    (starts : ∀ c ∈ text.head?, isBlank c = false ∧ isBreak c = false) :
    ∀ c ∈ (singleQuotedBody indent false text).head?, isBlank c = false ∧ isBreak c = false := by
  cases text with
  | nil => simp [singleQuotedBody]
  | cons c rest =>
      have here := starts c rfl
      have word : ∀ d ∈ [c], isSpaceOrBreak d = false := by
        simp [isSpaceOrBreak, (isBlank_false here.1).1, here.2]
      rw [← List.singleton_append, singleQuotedBody_word word, List.flatMap_singleton]
      by_cases quote : c = '\''
      · simp [singleQuotedChar, quote, isBlank, isBreak]
      · simpa [singleQuotedChar, quote] using here

/-- Behind a word stands a gap, of spaces or of breaks, and then a word again. -/
theorem exists_gap {indent : Nat} (indented : 0 < indent) {first : Char} {rest : List Char}
    (line : SingleLine (first :: rest)) (opens : isSpaceOrBreak first = true) :
    ∃ blank gap others, first :: rest = blank ++ others ∧ blank ≠ [] ∧
      (∀ c ∈ others.head?, isSpaceOrBreak c = false) ∧ ReadsGap gap blank ∧
      (∃ d later, gap = d :: later ∧ (isBlank d || isBreak d) = true) ∧
      singleQuotedBody indent false (first :: rest) =
        gap ++ singleQuotedBody indent false others := by
  rw [isSpaceOrBreak, Bool.or_eq_true, decide_eq_true_eq] at opens
  rcases opens with rfl | newline
  · rcases exists_run (· = ' ') rest with ⟨blanks, others, rfl, spaces, stops⟩
    have blanks_eq : ' ' :: blanks = indentation (blanks.length + 1) :=
      List.eq_replicate_iff.mpr ⟨rfl, by simpa using spaces⟩
    rw [← List.cons_append, blanks_eq] at line ⊢
    refine ⟨_, _, others, rfl, List.cons_ne_nil _ _, fun c head => ?_, readsGap_spaces _,
      ⟨' ', _, rfl, rfl⟩, singleQuotedBody_spaces _ _⟩
    rcases List.head?_eq_some_iff.mp head with ⟨later, rfl⟩
    have noBreak := hasAdjacent_behind (List.cons_ne_nil _ _) (by simp) line.spaceBreak
    have noSpace : c ≠ ' ' := by simpa using stops c rfl
    simp [isSpaceOrBreak, noSpace, noBreak]
  · rcases exists_run isBreak rest with ⟨breaks, others, rfl, broken, stops⟩
    have separators : ∀ c ∈ first :: breaks, isSeparator c = true := by
      intro c member
      have printable := line.printable c (List.mem_append_left others member)
      refine isSeparator_of_printable printable.1 ?_ printable.2
      rcases List.mem_cons.mp member with rfl | later
      · exact newline
      · exact broken c later
    have all : ∀ c ∈ first :: breaks, isBreak c = true := by simpa [newline] using broken
    rw [← List.cons_append] at line ⊢
    have starts : ∀ c ∈ others.head?, isSpaceOrBreak c = false := by
      intro c head
      have noBreak := stops c head
      rcases List.head?_eq_some_iff.mp head with ⟨later, rfl⟩
      have noSpace := hasAdjacent_behind (List.cons_ne_nil _ _) all line.breakSpace
      simpa [isSpaceOrBreak, noBreak] using noSpace
    refine ⟨first :: breaks, first :: breaks ++ indentation indent, others, rfl,
      List.cons_ne_nil _ _, starts, readsGap_separators indented separators,
      ⟨first, _, rfl, by simp [newline]⟩, ?_⟩
    rw [singleQuotedBody_separators (List.cons_ne_nil _ _) separators,
      singleQuotedBody_behind_break starts, List.append_assoc]

/-- A line that single quotes suit is written in words with gaps between them. -/
theorem written_single {indent : Nat} (indented : 0 < indent) {text : List Char}
    (line : SingleLine text) : Written false text (singleQuotedBody indent false text) := by
  induction length : text.length using Nat.strongRecOn generalizing text with
  | ind length ih =>
      subst length
      rcases exists_run (fun c => !isSpaceOrBreak c) text with ⟨run, behind, rfl, word, starts⟩
      have word : ∀ c ∈ run, isSpaceOrBreak c = false := by simpa using word
      have plain : ∀ c ∈ run ++ behind, isSpaceOrBreak c = false →
          isBlank c = false ∧ isBreak c = false := by
        intro c member neither
        rw [isSpaceOrBreak, Bool.or_eq_false_iff, decide_eq_false_iff_not] at neither
        have tab := isPrintable_ne (line.printable c member).1 '\t' (by decide)
        exact ⟨by simp [isBlank, neither.1, tab], neither.2⟩
      have reads := readsWord_single
        (fun c member => plain c (List.mem_append_left behind member) (word c member))
      rw [singleQuotedBody_word word]
      cases behind with
      | nil =>
          rw [List.append_nil, singleQuotedBody]
          simpa using Written.last reads
      | cons first rest =>
          have inner := line.append_right
          rcases exists_gap indented inner (by simpa using starts first rfl) with
            ⟨blank, gap, others, split, inhabited, goesOn, spaced, breaks, written⟩
          rw [split] at inner plain ih
          have shorter : others.length < (run ++ (blank ++ others)).length := by
            have := List.length_pos_iff.mpr inhabited
            simp only [List.length_append]
            omega
          have begins : ∀ c ∈ others.head?, isBlank c = false ∧ isBreak c = false := by
            intro c head
            have member := List.mem_of_mem_head? head
            exact plain c (by simp [member]) (goesOn c head)
          rw [written, split, ← List.append_assoc, ← List.append_assoc]
          exact .more reads spaced breaks (head_singleQuotedBody begins)
            (ih _ shorter inner.append_right rfl)

/-! ## Double quotes -/

theorem hexDigit?_hexDigit : ∀ value < 16, hexDigit? (hexDigit value) = some value := by
  decide

/-- Digits add to the code that is being read, as long as further digits are missing. -/
theorem doubleRun_hexDigits (count : Nat) {value : Nat} (fits : value < Nat.pow 16 count)
    (missing code : Nat) (rest : List Char) :
    doubleRun (count + (missing + 1)) code (hexDigits count value ++ rest) =
      doubleRun (missing + 1) (code * Nat.pow 16 count + value) rest := by
  induction count generalizing value missing rest with
  | zero =>
      have zero : value = 0 := Nat.lt_one_iff.mp fits
      simp [hexDigits, zero]
  | succ count ih =>
      have digit := hexDigit?_hexDigit (value % 16) (Nat.mod_lt value (by decide))
      have longer : Nat.pow 16 (count + 1) = Nat.pow 16 count * 16 := rfl
      have above : value / 16 < Nat.pow 16 count := by
        rw [longer] at fits
        omega
      have order : count + 1 + (missing + 1) = count + (missing + 1 + 1) := by omega
      have sum : (code * Nat.pow 16 count + value / 16) * 16 + value % 16 =
          code * Nat.pow 16 (count + 1) + value := by
        rw [longer, Nat.add_mul, Nat.mul_assoc]
        omega
      rw [order, hexDigits, List.append_assoc, ih above, List.singleton_append, doubleRun, digit]
      exact congrArg (fun code => doubleRun (missing + 1) code rest) sum

theorem doubleRun_code (width : Nat) {c : Char} (fits : c.toNat < Nat.pow 16 (width + 1))
    (rest : List Char) :
    doubleRun (width + 1) 0 (hexDigits (width + 1) c.toNat ++ rest) =
      (doubleRun 0 0 rest).map (fun found => (c :: found.1, found.2)) := by
  have digit := hexDigit?_hexDigit (c.toNat % 16) (Nat.mod_lt _ (by decide))
  have above : c.toNat / 16 < Nat.pow 16 width := by
    have longer : Nat.pow 16 (width + 1) = Nat.pow 16 width * 16 := rfl
    rw [longer] at fits
    omega
  have sum : c.toNat / 16 * 16 + c.toNat % 16 = c.toNat := by omega
  have most := doubleRun_hexDigits width above 0 0 (hexDigit (c.toNat % 16) :: rest)
  have valid : c.toNat.isValidChar := c.valid
  rw [hexDigits, List.append_assoc, List.singleton_append, most, doubleRun, digit]
  simp [sum, valid]

theorem escaped?_escapeLetter {c letter : Char} (short : escapeLetter? c = some letter) :
    isBreak letter = false ∧ codeWidth? letter = none ∧ escaped? letter = some c := by
  unfold escapeLetter? at short
  split at short <;> cases short <;> decide

/-- A character that is written behind a backslash is read back. -/
theorem doubleRun_escaped (c : Char) (rest : List Char) :
    doubleRun 0 0 (escaped c ++ rest) =
      (doubleRun 0 0 rest).map (fun found => (c :: found.1, found.2)) := by
  unfold escaped
  split
  · rename_i letter short
    rcases escaped?_escapeLetter short with ⟨noBreak, noCode, meant⟩
    simp [doubleRun, noBreak, noCode, meant]
  · have code : ∀ mark width, isBreak mark = false → codeWidth? mark = some (width + 1) →
        c.toNat < 16 ^ (width + 1) →
        doubleRun 0 0 ('\\' :: mark :: hexDigits (width + 1) c.toNat ++ rest) =
          (doubleRun 0 0 rest).map (fun found => (c :: found.1, found.2)) := by
      intro mark width noBreak wide fits
      rw [← doubleRun_code width fits rest]
      simp [doubleRun, noBreak, wide]
    split
    · exact code 'x' 1 (by decide) rfl ‹_›
    · split
      · exact code 'u' 3 (by decide) rfl ‹_›
      · have valid : c.toNat.isValidChar := c.valid
        have fits : c.toNat < 16 ^ 8 := by
          rcases valid with low | ⟨-, high⟩ <;> omega
        exact code 'U' 7 (by decide) rfl fits

/-- A character inside of double quotes. -/
def doubleQuotedChar (c : Char) : List Char :=
  if !isPrintable c || isBreak c || c = '"' || c = '\\' then escaped c else [c]

theorem doubleQuotedChar_cases {c : Char} (notSpace : c ≠ ' ') :
    doubleQuotedChar c = escaped c ∨
      doubleQuotedChar c = [c] ∧ c ≠ '"' ∧ c ≠ '\\' ∧ isBlank c = false ∧ isBreak c = false := by
  unfold doubleQuotedChar
  split
  · exact Or.inl rfl
  · rename_i plain
    simp only [Bool.or_eq_true, Bool.not_eq_true', decide_eq_true_eq, not_or, Bool.not_eq_false,
      Bool.not_eq_true] at plain
    rcases plain with ⟨⟨⟨printable, noBreak⟩, notQuote⟩, notSlash⟩
    have noBlank : isBlank c = false := by
      simp [isBlank, notSpace, isPrintable_ne printable '\t' (by decide)]
    exact Or.inr ⟨rfl, notQuote, notSlash, noBlank, noBreak⟩

theorem doubleRun_doubleQuotedChar {c : Char} (notSpace : c ≠ ' ') (rest : List Char) :
    doubleRun 0 0 (doubleQuotedChar c ++ rest) =
      (doubleRun 0 0 rest).map (fun found => (c :: found.1, found.2)) := by
  rcases doubleQuotedChar_cases notSpace with same | ⟨same, notQuote, notSlash, noBlank, noBreak⟩
  · rw [same, doubleRun_escaped]
  · simp [same, doubleRun, notQuote, notSlash, noBlank, noBreak]

theorem doubleRun_ends {after : List Char} (ends : EndsWord true after) :
    doubleRun 0 0 after = some ([], after, false) := by
  cases ends with
  | @gap c rest blank =>
      have notSlash : c ≠ '\\' := by
        rintro rfl
        cases blank
      rw [Bool.or_eq_true] at blank
      rcases blank with blank | newline
      · simp [doubleRun, notSlash, blank]
      · simp [doubleRun, notSlash, newline]
  | close tail => simp [quoteMark, doubleRun]

theorem readsWord_double {run : List Char} (word : ' ' ∉ run) :
    ReadsWord true (doubleQuotedBody run) run := by
  intro after ends
  have read : doubleRun 0 0 (doubleQuotedBody run ++ after) = some (run, after, false) := by
    induction run with
    | nil => exact doubleRun_ends ends
    | cons c others ih =>
        rw [List.mem_cons, not_or] at word
        have split : doubleQuotedBody (c :: others) ++ after =
            doubleQuotedChar c ++ (doubleQuotedBody others ++ after) := by
          rw [← List.append_assoc]
          rfl
        rw [split, doubleRun_doubleQuotedChar (Ne.symm word.1), ih word.2]
        rfl
  simp [read]

theorem head_escaped (c : Char) : (escaped c).head? = some '\\' := by
  unfold escaped
  repeat' split
  all_goals rfl

theorem head_doubleQuotedBody {text : List Char} (starts : text.head? ≠ some ' ') :
    ∀ c ∈ (doubleQuotedBody text).head?, isBlank c = false ∧ isBreak c = false := by
  cases text with
  | nil => simp [doubleQuotedBody]
  | cons c rest =>
      have split : doubleQuotedBody (c :: rest) = doubleQuotedChar c ++ doubleQuotedBody rest := rfl
      have notSpace : c ≠ ' ' := by simpa using starts
      rw [split, List.head?_append]
      rcases doubleQuotedChar_cases notSpace with same | ⟨same, -, -, noBlank, noBreak⟩
      · simp [same, head_escaped, isBlank, isBreak]
      · simp [same, noBlank, noBreak]

theorem doubleQuotedBody_append (front rest : List Char) :
    doubleQuotedBody (front ++ rest) = doubleQuotedBody front ++ doubleQuotedBody rest :=
  List.flatMap_append

theorem doubleQuotedBody_spaces (count : Nat) :
    doubleQuotedBody (indentation count) = indentation count := by
  induction count with
  | zero => rfl
  | succ count ih =>
      have split : indentation (count + 1) = [' '] ++ indentation count := rfl
      rw [split, doubleQuotedBody_append, ih]
      rfl

/-- Whatever a text is, it is written in double quotes in words with spaces between them. -/
theorem written_double (text : List Char) : Written true text (doubleQuotedBody text) := by
  induction length : text.length using Nat.strongRecOn generalizing text with
  | ind length ih =>
      subst length
      rcases exists_run (· ≠ ' ') text with ⟨run, behind, rfl, word, gap⟩
      have reads : ReadsWord true (doubleQuotedBody run) run :=
        readsWord_double (fun member => by simpa using word ' ' member)
      cases behind with
      | nil =>
          rw [List.append_nil]
          exact .last reads
      | cons first rest =>
          have opens : first = ' ' := by simpa using gap first rfl
          rcases exists_run (· = ' ') rest with ⟨blanks, others, rfl, spaces, stops⟩
          have blanks_eq : first :: blanks = indentation (blanks.length + 1) :=
            List.eq_replicate_iff.mpr ⟨rfl, by simpa [opens] using spaces⟩
          have starts : others.head? ≠ some ' ' := fun head => by simpa using stops ' ' head
          have shorter : others.length < (run ++ first :: (blanks ++ others)).length := by
            simp only [List.length_append, List.length_cons]
            omega
          have later := ih _ shorter others rfl
          rw [← List.cons_append, blanks_eq, ← List.append_assoc, doubleQuotedBody_append,
            doubleQuotedBody_append, doubleQuotedBody_spaces]
          exact .more reads (readsGap_spaces _) ⟨' ', _, rfl, rfl⟩ (head_doubleQuotedBody starts)
            later

/-! ## Whole scalars -/

/-- A text in quotes is read back from behind its opening quote, up to the end of its line. -/
theorem quoted_text {double : Bool} {text written tail : List Char}
    (is : Written double text written) {c : Cursor}
    (ahead : c.rest = written ++ quoteMark double :: '\n' :: tail) (inside : 0 < c.column) :
    ∃ after, quoted double c = some (text, after) ∧ after.rest = '\n' :: tail := by
  have enough : written.length < c.rest.length + 1 := by
    rw [ahead, List.length_append]
    omega
  exact quotedFrom_eq is enough ahead inside []

end Yaml
end ExportVolumes
