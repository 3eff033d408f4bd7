import ExportVolumes.Proofs.Yaml.Line

namespace ExportVolumes
namespace Yaml

/-!
Plain scalars are read back.

A plain scalar is read word by word.  What is left of it behind a blank satisfies `ReadsOn`
again, and with it the reader goes on to the end of the line (`plainFrom_eq`), where what
follows lies too far left to belong to the scalar.  The key of an entry is a single word
(`plain_key`).
-/

/-- A text that a plain scalar may go on with behind a blank, up to its end. -/
structure ReadsOn (text : List Char) : Prop where
  unbroken : ∀ c ∈ text, isBreak c = false ∧ c ≠ '\t'
  ends : text.getLast? ≠ some ' '
  unmarked : hasInnerMark true text = false

theorem breaksOff_append_lineEnd (text tail : List Char) :
    breaksOff (text ++ '\n' :: tail) = breaksOff text := by
  cases text with
  | nil => rfl
  | cons c rest => rfl

/-- What is left behind a blank has no mark in it either. -/
theorem hasInnerMark_behind_blank {afterBlank : Bool} {front rest : List Char}
    (unmarked : hasInnerMark afterBlank (front ++ ' ' :: rest) = false) :
    hasInnerMark true rest = false := by
  induction front generalizing afterBlank with
  | nil =>
      rw [List.nil_append, hasInnerMark, Bool.or_eq_false_iff] at unmarked
      exact unmarked.2
  | cons c others ih =>
      rw [List.cons_append, hasInnerMark, Bool.or_eq_false_iff] at unmarked
      exact ih unmarked.2

/-- A run of a plain scalar goes up to the next space. -/
theorem plainRun_eq {afterBlank : Bool} {text : List Char} (tail : List Char)
    (unbroken : ∀ c ∈ text, isBreak c = false ∧ c ≠ '\t')
    (unmarked : hasInnerMark afterBlank text = false) :
    plainRun false (text ++ '\n' :: tail) =
      some (text.takeWhile (· ≠ ' '), text.dropWhile (· ≠ ' ') ++ '\n' :: tail) := by
  induction text generalizing afterBlank with
  | nil => rfl
  | cons c rest ih =>
      have here := unbroken c List.mem_cons_self
      rw [hasInnerMark, Bool.or_eq_false_iff, Bool.or_eq_false_iff] at unmarked
      rcases unmarked with ⟨⟨colon, -⟩, later⟩
      rw [List.cons_append, plainRun]
      by_cases space : c = ' '
      · subst space
        simp [isBlank]
      · have notBlank : isBlank c = false := by simp [isBlank, space, here.2]
        rw [← breaksOff_append_lineEnd rest tail] at colon
        have run := ih (fun d member => unbroken d (List.mem_cons_of_mem c member)) later
        simp only [notBlank, here.1, Bool.or_false, Bool.false_and, Bool.false_eq_true, if_false,
          colon, run, Option.map_some]
        simp [space]

namespace ReadsOn

theorem head_ne_comment {text : List Char} (reads : ReadsOn text) : text.head? ≠ some '#' := by
  cases text with
  | nil => simp
  | cons c rest =>
      have unmarked := reads.unmarked
      rw [hasInnerMark, Bool.or_eq_false_iff, Bool.or_eq_false_iff] at unmarked
      simpa using unmarked.1.2

/-- Behind the spaces that follow its first word, a text reads on. -/
theorem behind {text : List Char} (reads : ReadsOn text) (front rest : List Char)
    (split : text = front ++ ' ' :: rest) : ReadsOn rest where
  unbroken := fun c member => reads.unbroken c (by simp [split, member])
  ends := by
    intro last
    apply reads.ends
    rcases List.getLast?_eq_some_iff.mp last with ⟨others, rfl⟩
    rw [split, ← List.cons_append, ← List.append_assoc, List.getLast?_concat]
  unmarked := hasInnerMark_behind_blank (split ▸ reads.unmarked)

end ReadsOn

/-- A plain scalar begins with a word; behind it there are spaces and another word, if there is
anything. -/
theorem ReadsOn.exists_word {text : List Char} (reads : ReadsOn text) {first : Char}
    {rest : List Char} (opens : text = first :: rest) (begins : first ≠ ' ') :
    ∃ run behind, text = run ++ behind ∧ run ≠ [] ∧
      (∀ tail, plainRun false (text ++ '\n' :: tail) = some (run, behind ++ '\n' :: tail)) ∧
      (behind = [] ∨ ∃ count next others, next ≠ ' ' ∧
        behind = indentation (count + 1) ++ next :: others) := by
  refine ⟨text.takeWhile (· ≠ ' '), text.dropWhile (· ≠ ' '),
    List.takeWhile_append_dropWhile.symm, by simp [opens, begins],
    fun tail => plainRun_eq tail reads.unbroken reads.unmarked, ?_⟩
  have whole := List.takeWhile_append_dropWhile (p := (· ≠ ' ')) (l := text)
  cases behind : text.dropWhile (· ≠ ' ') with
  | nil => exact Or.inl rfl
  | cons blank others =>
      have space : blank = ' ' := by
        have stops := List.head?_dropWhile_not (fun c : Char => decide (c ≠ ' ')) text
        rw [behind] at stops
        simpa using stops
      have split := indentation_append_lineBody (blank :: others)
      have count : lineColumn (blank :: others) = lineColumn others + 1 := by
        simp [lineColumn, space]
      have head := head_lineBody_ne (blank :: others)
      rw [count] at split
      cases body : lineBody (blank :: others) with
      | nil =>
          -- Spaces only: then the text ends in one.
          rw [body, List.append_nil, indentation, List.replicate_succ'] at split
          rw [behind, ← split, ← List.append_assoc] at whole
          exact absurd (by rw [← whole, List.getLast?_concat]) reads.ends
      | cons next others =>
          rw [body] at split head
          exact Or.inr ⟨_, next, others, by simpa using head, split.symm⟩

/-- One step of the reader of a plain scalar takes in a word and the gap behind it. -/
theorem plainFrom_word {flow : Bool} {floor fuel : Nat} {c : Cursor} {run after : List Char}
    (noMark : c.atDocumentMark = false) (noComment : c.rest.head? ≠ some '#')
    (word : plainRun flow c.rest = some (run, after)) (inhabited : run ≠ [])
    (before : List Char) (gap : Gap) :
    plainFrom flow floor (fuel + 1) c before gap =
      let text := before ++ gap.text ++ run
      let c := { c.passTo after with fresh := false }
      if after.head?.any (fun next => isBlank next || isBreak next) then
        match Gap.readFrom floor {} after c with
        | none => none
        | some (gap, c) =>
            if !flow && c.column < floor then some (text, { c with fresh := gap.broken })
            else plainFrom flow floor fuel c text gap
      else some (text, c) := by
  cases run with
  | nil => exact absurd rfl inhabited
  | cons first others =>
      rw [plainFrom, noMark, word, if_neg (by simpa using noComment)]
      rfl

/-- The reader of a plain scalar goes on to the end of its line, and stops at what follows. -/
theorem plainFrom_eq {items : Bool} {floor : Nat} {tail : List Char} (inside : 0 < floor)
    (follows : Follows items floor tail) {text : List Char} (reads : ReadsOn text)
    {first : Char} {rest : List Char} (opens : text = first :: rest) (begins : first ≠ ' ')
    {fuel : Nat} (enough : text.length < fuel) {c : Cursor} (ahead : c.rest = text ++ '\n' :: tail)
    (right : floor ≤ c.column) (before : List Char) (gap : Gap) :
    ∃ after, plainFrom false floor fuel c before gap =
        some (before ++ gap.text ++ text, after) ∧ after.Opens tail := by
  induction fuel generalizing text c before gap first rest with
  | zero => exact absurd enough (Nat.not_lt_zero _)
  | succ fuel ih =>
      rcases reads.exists_word opens begins with ⟨run, behind, split, inhabited, word, further⟩
      have noMark := Cursor.atDocumentMark_of_column (Nat.lt_of_lt_of_le inside right)
      have noComment : c.rest.head? ≠ some '#' := by
        have head := reads.head_ne_comment
        rw [opens] at head
        simpa [ahead, opens] using head
      have passed := Cursor.passTo_append run (behind ++ '\n' :: tail)
        (show c.rest = run ++ (behind ++ '\n' :: tail) by rw [ahead, split, List.append_assoc])
      rw [plainFrom_word noMark noComment (ahead ▸ word tail) inhabited, passed]
      rcases further with rfl | ⟨count, next, others, ne, rfl⟩
      · -- The last word: the gap behind it leads to what follows.
        rw [List.append_nil] at split
        rcases Gap.readFrom_lineEnd follows { c with
            rest := '\n' :: tail, index := c.index + octetCount run,
            column := c.column + run.length, fresh := false } with ⟨after, ended, body, column⟩
        have left : after.column < floor := column ▸ follows.lineColumn_lt inside
        refine ⟨{ after with fresh := true }, ?_, body, column, rfl⟩
        simp [isBreak, ended, left, split]
      · -- Another word: the spaces before it are kept, and the reader goes on with it.
        have behind : ReadsOn (next :: others) :=
          reads.behind (run ++ indentation count) _
            (by simp [split, indentation, List.replicate_succ'])
        have plain := behind.unbroken next List.mem_cons_self
        have notBlank : isBlank next = false := by simp [isBlank, ne, plain.2]
        have shorter : (next :: others).length < fuel := by
          simp only [split, List.length_append, indentation, List.length_replicate] at enough
          omega
        have gathered := Gap.readFrom_spaces floor (count + 1) {} rfl (next :: others ++ '\n' :: tail)
          { c with
            rest := indentation (count + 1) ++ next :: others ++ '\n' :: tail
            index := c.index + octetCount run, column := c.column + run.length, fresh := false }
        rw [List.cons_append, Gap.readFrom_stops floor _ notBlank plain.1, ← List.cons_append,
          ← List.append_assoc] at gathered
        have blank : (indentation (count + 1) ++ next :: others ++ '\n' :: tail).head?.any
            (fun next => isBlank next || isBreak next) = true := rfl
        have stays : ¬ c.column + run.length + (count + 1) < floor := by omega
        simp only [blank, if_true, gathered, stays, decide_false, Bool.and_false,
          Bool.false_eq_true, if_false]
        have text : before ++ gap.text ++ text = before ++ gap.text ++ run ++
            Gap.text { blanks := [] ++ indentation (count + 1) } ++ next :: others := by
          simp [split, Gap.text]
        rw [text]
        exact ih behind rfl ne shorter rfl (Nat.le_of_not_lt stays) _ _

/-! ## What a plain scalar begins with -/

/-- The characters that no plain scalar begins with, whatever follows them. -/
def markCharacters : List Char :=
  "#,[]\x7b\x7d&*!|>'\"%@\x60".toList

/-- A character and what follows it, as the beginning of a plain scalar. -/
structure OpensPlain (first : Char) (rest : List Char) : Prop where
  stops : StopsSkip first
  notMark : first ∉ markCharacters
  goesOn : first = '-' ∨ first = '?' ∨ first = ':' → breaksOff rest = false

theorem OpensPlain.startsPlain {first : Char} {rest : List Char} (opens : OpensPlain first rest) :
    startsPlain false (first :: rest) = true := by
  have goesOn := opens.goesOn
  simp only [Yaml.startsPlain, opens.stops.notBlank, opens.stops.notBreak, Bool.or_self,
    Bool.false_eq_true, if_false, Bool.not_false, Bool.true_and]
  by_cases dash : first = '-' ∨ first = '?' ∨ first = ':'
  · rw [goesOn dash]
    rcases dash with rfl | rfl | rfl <;> decide
  · have marked : "-?:,[]\x7b\x7d#&*!|>'\"%@\x60".toList.all (fun c =>
        decide ((c = '-' ∨ c = '?' ∨ c = ':') ∨ c ∈ markCharacters)) = true := by decide
    have indicators : ∀ c ∈ "-?:,[]\x7b\x7d#&*!|>'\"%@\x60".toList,
        (c = '-' ∨ c = '?' ∨ c = ':') ∨ c ∈ markCharacters :=
      fun c member => of_decide_eq_true (List.all_eq_true.mp marked c member)
    have unmarked : isIndicator first = false := by
      rw [isIndicator, ← Bool.not_eq_true, List.contains_iff_mem]
      exact fun member => (indicators first member).elim dash opens.notMark
    simp [unmarked]

theorem OpensPlain.of_isAlpha {first : Char} (letter : first.isAlpha = true) (rest : List Char) :
    OpensPlain first rest where
  stops := .of_isAlpha letter
  notMark := by
    intro member
    have marks : markCharacters.all (fun mark => !mark.isAlpha) = true := by decide
    have mark := List.all_eq_true.mp marks first member
    rw [letter] at mark
    cases mark
  goesOn := by
    rintro (rfl | rfl | rfl) <;> exact absurd letter (by decide)

theorem of_startsLikeMark {first : Char} {rest : List Char}
    (unmarked : startsLikeMark (first :: rest) = false) :
    first ∉ markCharacters ∧ (first = '-' ∨ first = '?' → breaksOff rest = false) := by
  unfold startsLikeMark at unmarked
  split at unmarked
  · cases unmarked
  · cases unmarked
  · rename_i same
    cases same
    rw [Bool.or_eq_false_iff, ← Bool.not_eq_true, List.contains_iff_mem] at unmarked
    refine ⟨unmarked.1, fun dash => ?_⟩
    rcases dash with rfl | rfl
    · exact unmarked.2
    · exact unmarked.2
  · rename_i nothing
    cases nothing

theorem isPrintable_of_allowsPlain {text : List Char} (allowed : allowsPlain text = true) :
    ∀ c ∈ text, isBreak c = false ∧ isPrintable c = true := by
  simp only [allowsPlain, Bool.not_eq_true', Bool.or_eq_false_iff] at allowed
  intro c member
  simpa using List.any_eq_false.mp allowed.1.1.2 c member

/-- What is written plain can be read plain. -/
theorem of_allowsPlain {first : Char} {rest : List Char}
    (allowed : allowsPlain (first :: rest) = true) :
    ReadsOn (first :: rest) ∧ OpensPlain first rest := by
  have plain := isPrintable_of_allowsPlain allowed
  simp only [allowsPlain, Bool.not_eq_true', Bool.or_eq_false_iff] at allowed
  rcases allowed with ⟨⟨⟨⟨head, last⟩, -⟩, unmarked⟩, inner⟩
  have start := plain first List.mem_cons_self
  have space : first ≠ ' ' := by
    rintro rfl
    cases head
  have inner' := inner
  rw [hasInnerMark, Bool.or_eq_false_iff, Bool.or_eq_false_iff] at inner'
  rcases of_startsLikeMark unmarked with ⟨notMark, dash⟩
  refine ⟨⟨fun c member => ?_, fun ends => ?_, inner⟩, ⟨⟨start.1, ?_, ?_, ?_⟩, notMark, ?_⟩⟩
  · exact ⟨(plain c member).1, isPrintable_ne (plain c member).2 '\t' (by decide)⟩
  · rw [ends] at last
    cases last
  · simp [isBlank, space, isPrintable_ne start.2 '\t' (by decide)]
  · exact fun same => notMark (same ▸ by decide)
  · exact isPrintable_ne start.2 orderMark (by decide)
  · rintro (minus | question | colon)
    · exact dash (Or.inl minus)
    · exact dash (Or.inr question)
    · simpa [colon] using inner'.1.1

/-! ## Whole scalars -/

/-- A text that is written plain is read back, up to what follows its line. -/
theorem plain_text {items : Bool} {floor : Nat} {tail : List Char} (inside : 0 < floor)
    (follows : Follows items floor tail) {first : Char} {rest : List Char}
    (allowed : allowsPlain (first :: rest) = true) {c : Cursor}
    (ahead : c.rest = first :: rest ++ '\n' :: tail) (right : floor ≤ c.column) :
    ∃ after, plain false floor c = some (first :: rest, after) ∧ after.Opens tail := by
  rcases of_allowsPlain allowed with ⟨reads, opens⟩
  have enough : (first :: rest).length < c.rest.length + 1 := by
    rw [ahead, List.length_append]
    omega
  exact plainFrom_eq inside follows reads rfl (isBlank_false opens.stops.notBlank).1 enough ahead
    right [] {}

/-- A word before a colon is read up to the colon. -/
theorem plain_key {floor : Nat} {key rest : List Char} (inhabited : key ≠ [])
    (letters : ∀ c ∈ key, c.isAlpha = true) (ends : breaksOff rest = true) {c : Cursor}
    (ahead : c.rest = key ++ ':' :: rest) (noMark : c.atDocumentMark = false) :
    plain false floor c = some (key, { c.passTo (':' :: rest) with fresh := false }) := by
  have run : ∀ word : List Char, (∀ c ∈ word, c.isAlpha = true) →
      plainRun false (word ++ ':' :: rest) = some (word, ':' :: rest) := by
    intro word letters
    induction word with
    | nil => simp [plainRun, isBlank, isBreak, ends]
    | cons first others ih =>
        have letter := letters first List.mem_cons_self
        have later := ih (fun c member => letters c (List.mem_cons_of_mem _ member))
        simp [plainRun, isBlank_of_isAlpha letter, isBreak_of_isAlpha letter,
          isAlpha_ne letter ':' (by decide), later]
  have noComment : c.rest.head? ≠ some '#' := by
    cases key with
    | nil => exact absurd rfl inhabited
    | cons first others =>
        simpa [ahead] using isAlpha_ne (letters first List.mem_cons_self) '#' (by decide)
  rw [plain, plainFrom_word noMark noComment (ahead ▸ run key letters) inhabited]
  simp [isBlank, isBreak, Gap.text]

end Yaml
end ExportVolumes
