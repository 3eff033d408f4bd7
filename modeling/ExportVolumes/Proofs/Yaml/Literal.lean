import ExportVolumes.Proofs.Yaml.Line

namespace ExportVolumes
namespace Yaml

/-!
Literal blocks are read back.

With the break that ends its last line put in, a text is made of lines, each with the breaks that
follow it (`Lines`), and it is read by induction over them (`blockLines_eq`).  The breaks at the
end are then cut off again as the mark of the block tells (`chomped`).
-/

theorem breakText_eq {c : Char} (printable : isPrintable c = true) (newline : isBreak c = true) :
    breakText c = c := by
  simp only [isBreak, Bool.or_eq_true, decide_eq_true_eq] at newline
  rcases newline with (((rfl | rfl) | rfl) | rfl) | rfl
  all_goals first
    | rfl
    | cases printable

theorem Cursor.passBreak_printable {c : Cursor} {first : Char} {rest : List Char}
    (printable : isPrintable first = true) (ahead : c.rest = first :: rest) :
    c.passBreak =
      { c with rest, index := c.index + first.utf8Size, line := c.line + 1, column := 0 } := by
  have notReturn := isPrintable_ne printable '\r' (by decide)
  unfold passBreak
  rw [ahead]
  split
  · rename_i same
    exact absurd (List.cons.inj same).1 notReturn
  · rename_i same
    cases same
    rfl
  · rename_i nothing
    cases nothing

/-! ## Empty lines -/

section EmptyLines

variable (indent widest : Nat) (breaks : List Char)

theorem emptyLines_spaces {count : Nat} {c : Cursor} (left : indent = 0 ∨ c.column + count ≤ indent)
    (rest : List Char) :
    emptyLines indent widest breaks (indentation count ++ rest) c =
      emptyLines indent widest breaks rest
        { c with index := c.index + count, column := c.column + count } := by
  induction count generalizing c with
  | zero => rfl
  | succ count ih =>
      have split : indentation (count + 1) ++ rest = ' ' :: (indentation count ++ rest) := rfl
      have here : indent = 0 ∨ c.column < indent := by omega
      have later : indent = 0 ∨ c.column + 1 + count ≤ indent := by omega
      rw [split, emptyLines, if_pos (by simpa using here), ih later]
      simp only [Nat.add_assoc, Nat.add_comm 1 count]

theorem emptyLines_stops {first : Char} (notTab : first ≠ '\t') (notBreak : isBreak first = false)
    {c : Cursor} (indented : first = ' ' → indent ≠ 0 ∧ indent ≤ c.column) (rest : List Char) :
    emptyLines indent widest breaks (first :: rest) c =
      some (max widest c.column, breaks, { c with rest := first :: rest }) := by
  have stays : ¬ (first = ' ' ∧ (indent = 0 ∨ c.column < indent)) := by
    rintro ⟨space, left⟩
    have := indented space
    omega
  rw [emptyLines, if_neg (by simpa using stays), if_neg (by simp [notTab]), notBreak]
  rfl

theorem emptyLines_breaks {more : List Char}
    (are : ∀ c ∈ more, isPrintable c = true ∧ isBreak c = true) {c : Cursor} (start : c.column = 0)
    (rest : List Char) :
    ∃ after, after.column = 0 ∧ emptyLines indent widest breaks (more ++ rest) c =
      emptyLines indent widest (breaks ++ more) rest after := by
  induction more generalizing breaks c with
  | nil => exact ⟨c, start, by simp⟩
  | cons first others ih =>
      have here := are first List.mem_cons_self
      have notSpace : first ≠ ' ' := by
        rintro rfl
        exact absurd here.2 (by decide)
      have notTab := isPrintable_ne here.1 '\t' (by decide)
      have notReturn := isPrintable_ne here.1 '\r' (by decide)
      rcases ih (breaks ++ [first]) (fun d member => are d (List.mem_cons_of_mem _ member))
        (c := { c with index := c.index + first.utf8Size, line := c.line + 1, column := 0 }) rfl
        with ⟨after, column, goesOn⟩
      refine ⟨after, column, ?_⟩
      rw [List.append_assoc, List.singleton_append] at goesOn
      rw [← goesOn, List.cons_append, emptyLines]
      simp [notSpace, notTab, notReturn, here.2, start, breakText_eq here.1 here.2]

/-- Empty lines end before what follows a value. -/
theorem emptyLines_follows {items : Bool} {floor : Nat} {tail : List Char}
    (follows : Follows items floor tail) (le : floor ≤ indent) {c : Cursor} (start : c.column = 0) :
    ∃ width after, emptyLines indent widest breaks tail c = some (width, breaks, after) ∧
      after.rest = lineBody tail ∧ after.column = lineColumn tail := by
  rcases follows.lineBody_cases with rfl | ⟨left, first, others, body, stops, -⟩
  · exact ⟨_, _, rfl, rfl, start⟩
  · have inside : indent = 0 ∨ c.column + lineColumn tail ≤ indent := by omega
    have space := emptyLines_spaces indent widest breaks inside (lineBody tail)
    rw [indentation_append_lineBody, body,
      emptyLines_stops indent widest breaks (isBlank_false stops.notBlank).2 stops.notBreak
        (fun same => absurd same (isBlank_false stops.notBlank).1)] at space
    exact ⟨_, _, space, body.symm, by simp [start]⟩

end EmptyLines

/-! ## Lines -/

/-- A text of lines, each with the breaks that end it, and how it is printed behind the indentation
of its first line. -/
inductive Lines (indent : Nat) : (text printed : List Char) → Prop
  | last {line breaks : List Char} {first : Char} (inhabited : line ≠ [])
      (unbroken : ∀ c ∈ line, isBreak c = false)
      (are : ∀ c ∈ first :: breaks, isPrintable c = true ∧ isBreak c = true) :
      Lines indent (line ++ first :: breaks) (line ++ first :: breaks)
  | more {line breaks text printed : List Char} {first : Char} (inhabited : line ≠ [])
      (unbroken : ∀ c ∈ line, isBreak c = false)
      (are : ∀ c ∈ first :: breaks, isPrintable c = true ∧ isBreak c = true)
      (starts : ∃ c rest, printed = c :: rest ∧ isBreak c = false ∧ c ≠ '\t')
      (later : Lines indent text printed) :
      Lines indent (line ++ first :: breaks ++ text)
        (line ++ first :: breaks ++ (indentation indent ++ printed))

/-- What the reader of a block has read of a text: its lines up to the last one, and the breaks
behind that. -/
structure BlockText.Holds (block : BlockText) (text : List Char) : Prop where
  whole : block.text ++ (block.lineEnd ++ block.later) = text
  ends : block.text.getLast?.any isBreak = false
  breaks : ∀ c ∈ block.lineEnd ++ block.later, isBreak c = true
  single : block.lineEnd = [] ∧ block.text = [] ∨ ∃ c, block.lineEnd = [c]

/-- One step of the reader of a block takes in a line and the breaks that end it. -/
theorem blockLines_line {indent fuel : Nat} {c : Cursor} {line breaks rest : List Char}
    {first : Char} (unbroken : ∀ c ∈ line, isBreak c = false)
    (are : ∀ c ∈ first :: breaks, isPrintable c = true ∧ isBreak c = true)
    (ahead : c.rest = line ++ first :: breaks ++ rest) (column : c.column = indent)
    (block : BlockText) :
    ∃ after indented, after.column = 0 ∧ blockLines false indent (fuel + 1) c block =
      match emptyLines indent 0 breaks rest after with
      | none => none
      | some (_, later, c) =>
          blockLines false indent fuel c
            { text := block.text ++ (block.lineEnd ++ block.later) ++ line
              lineEnd := [first], later, indented } := by
  have here := are first List.mem_cons_self
  have upTo : c.rest.takeWhile (fun next => !isBreak next) = line := by
    rw [ahead, List.append_assoc, List.takeWhile_append_of_pos (by simpa using unbroken)]
    simp [here.2]
  have behind : c.rest.dropWhile (fun next => !isBreak next) = first :: (breaks ++ rest) := by
    rw [ahead, List.append_assoc, List.dropWhile_append_of_pos (by simpa using unbroken)]
    simp [here.2]
  have onward : ¬ (c.column ≠ indent || c.rest.isEmpty) = true := by
    simp [column, ahead]
  have step := Cursor.passBreak_printable (c := c.passTo (first :: (breaks ++ rest))) here.1 rfl
  rcases emptyLines_breaks indent 0 [] (fun d member => are d (List.mem_cons_of_mem _ member))
    (c := (c.passTo (first :: (breaks ++ rest))).passBreak) (by rw [step]) rest
    with ⟨after, start, emptied⟩
  refine ⟨after, c.rest.head?.any isBlank, start, ?_⟩
  rw [blockLines, if_neg onward]
  simp only [upTo, behind]
  rw [show (c.passTo (first :: (breaks ++ rest))).passBreak.rest = breaks ++ rest by rw [step],
    emptied, List.nil_append]
  cases emptyLines indent 0 breaks rest after with
  | none => rfl
  | some found =>
      simp [BlockText.between, Cursor.passTo, breakText_eq here.1 here.2]

theorem getLast_unbroken {line : List Char} (inhabited : line ≠ [])
    (unbroken : ∀ c ∈ line, isBreak c = false) (front : List Char) :
    (front ++ line).getLast?.any isBreak = false := by
  rw [List.getLast?_append, List.getLast?_eq_some_getLast inhabited]
  exact unbroken _ (List.getLast_mem inhabited)

/-- The reader of a block takes in all lines, and stops at what follows. -/
theorem blockLines_eq {indent : Nat} {text printed : List Char} (lines : Lines indent text printed)
    {items : Bool} {floor : Nat} {tail : List Char} (follows : Follows items floor tail)
    (inside : 0 < floor) (left : floor ≤ indent) {fuel : Nat} (enough : printed.length < fuel)
    {c : Cursor} (ahead : c.rest = printed ++ tail) (column : c.column = indent) (block : BlockText) :
    ∃ read after, blockLines false indent fuel c block = some (read, after) ∧
      read.Holds (block.text ++ (block.lineEnd ++ block.later) ++ text) ∧
      after.rest = lineBody tail ∧ after.column = lineColumn tail := by
  induction lines generalizing fuel c block with
  | @last line breaks first inhabited unbroken are =>
      -- One step takes the line in, and the next one stops.
      have two : ∃ spare, fuel = spare + 2 := by
        have := List.length_pos_iff.mpr inhabited
        simp only [List.length_append, List.length_cons] at enough
        exact ⟨fuel - 2, by omega⟩
      rcases two with ⟨spare, rfl⟩
      rcases blockLines_line unbroken are ahead column block with ⟨next, indented, start, step⟩
      rcases emptyLines_follows indent 0 breaks follows left start
        with ⟨width, after, emptied, rest, stopped⟩
      have outside : after.column ≠ indent := by
        have := follows.lineColumn_lt inside
        omega
      rw [emptied] at step
      refine ⟨_, _, step.trans (if_pos (by simp [outside])), ⟨?_, ?_, ?_, ?_⟩, rest, stopped⟩
      · simp
      · exact getLast_unbroken inhabited unbroken _
      · simpa using fun d member => (are d member).2
      · exact Or.inr ⟨first, rfl⟩
  | @more line breaks text printed first inhabited unbroken are starts later ih =>
      cases fuel with
      | zero => exact absurd enough (Nat.not_lt_zero _)
      | succ fuel =>
          rcases starts with ⟨d, rest, rfl, notBreak, notTab⟩
          rw [List.append_assoc] at ahead
          rcases blockLines_line unbroken are ahead column block with ⟨next, indented, start, step⟩
          have inner : indent = 0 ∨ next.column + indent ≤ indent := by omega
          have space := emptyLines_spaces indent 0 breaks inner (d :: rest ++ tail)
          rw [List.cons_append, emptyLines_stops indent 0 breaks notTab notBreak
            (fun _ => ⟨by omega, Nat.le_add_left _ _⟩)] at space
          have shorter : (d :: rest).length < fuel := by
            simp only [List.length_append, List.length_cons] at enough ⊢
            omega
          rcases ih shorter (c := { next with
              rest := d :: rest ++ tail, index := next.index + indent,
              column := next.column + indent }) rfl (by simp [start])
            { text := block.text ++ (block.lineEnd ++ block.later) ++ line, lineEnd := [first],
              later := breaks, indented } with ⟨read, after, goesOn, holds, stopped⟩
          rw [List.append_assoc, List.cons_append, space] at step
          refine ⟨read, after, step.trans goesOn, ?_, stopped⟩
          simpa using holds

/-! ## Printing of lines -/

section LiteralBody

variable (indent : Nat)

theorem literalBody_line {line : List Char} (unbroken : ∀ c ∈ line, isBreak c = false)
    (rest : List Char) :
    literalBody indent false (line ++ rest) = line ++ literalBody indent false rest := by
  induction line with
  | nil => rfl
  | cons c others ih =>
      have later := ih (fun d member => unbroken d (List.mem_cons_of_mem c member))
      simp [literalBody, unbroken c List.mem_cons_self, later]

theorem literalBody_breaks {breaks : List Char} (are : ∀ c ∈ breaks, isBreak c = true)
    (rest : List Char) :
    literalBody indent true (breaks ++ rest) = breaks ++ literalBody indent true rest := by
  induction breaks with
  | nil => rfl
  | cons c others ih =>
      have later := ih (fun d member => are d (List.mem_cons_of_mem c member))
      simp [literalBody, are c List.mem_cons_self, later]

theorem literalBody_behind_break {c : Char} (notBreak : isBreak c = false) (rest : List Char) :
    literalBody indent true (c :: rest) =
      indentation indent ++ literalBody indent false (c :: rest) := by
  simp [literalBody, notBreak]

theorem literalBody_run {line breaks : List Char} {first : Char}
    (unbroken : ∀ c ∈ line, isBreak c = false) (are : ∀ c ∈ first :: breaks, isBreak c = true)
    (rest : List Char) :
    literalBody indent false (line ++ first :: breaks ++ rest) =
      line ++ first :: breaks ++ literalBody indent true rest := by
  have later := literalBody_breaks indent (fun d member => are d (List.mem_cons_of_mem first member))
    rest
  rw [List.append_assoc, literalBody_line indent unbroken, List.cons_append, literalBody,
    if_pos (are first List.mem_cons_self), later, List.append_assoc, List.cons_append]

theorem literalBody_lineEnd (broken : Bool) (text : List Char) :
    literalBody indent broken (text ++ ['\n']) = literalBody indent broken text ++ ['\n'] := by
  induction text generalizing broken with
  | nil => simp [literalBody, isBreak]
  | cons c rest ih =>
      rw [List.cons_append, literalBody, literalBody]
      split
      · rw [ih, List.cons_append]
      · rw [ih, List.append_assoc, List.cons_append]

end LiteralBody

/-- A text whose last line is ended is printed in lines. -/
theorem lines_literalBody {indent : Nat} {text : List Char}
    (printable : ∀ c ∈ text, isPrintable c = true)
    (starts : ∃ c rest, text = c :: rest ∧ isBreak c = false)
    (ends : text.getLast?.any isBreak = true) :
    Lines indent text (literalBody indent false text) := by
  induction length : text.length using Nat.strongRecOn generalizing text with
  | ind length ih =>
      subst length
      rcases exists_run (fun c => !isBreak c) text with ⟨line, behind, rfl, unbroken, stops⟩
      have unbroken : ∀ c ∈ line, isBreak c = false := by simpa using unbroken
      have inhabited : line ≠ [] := by
        rintro rfl
        rcases starts with ⟨c, rest, rfl, notBreak⟩
        simpa [notBreak] using stops c rfl
      cases behind with
      | nil =>
          have unended := getLast_unbroken inhabited unbroken []
          rw [List.nil_append] at unended
          rw [List.append_nil, unended] at ends
          cases ends
      | cons first rest =>
          rcases exists_run isBreak rest with ⟨breaks, others, rfl, broken, stops'⟩
          have opens : isBreak first = true := by simpa using stops first rfl
          have all : ∀ c ∈ first :: breaks, isBreak c = true := by simpa [opens] using broken
          rw [← List.cons_append, ← List.append_assoc] at printable ends ⊢
          have are : ∀ c ∈ first :: breaks, isPrintable c = true ∧ isBreak c = true := by
            intro c member
            exact ⟨printable c (List.mem_append_left _ (List.mem_append_right _ member)), all c member⟩
          rw [literalBody_run indent unbroken all]
          cases others with
          | nil =>
              simpa [literalBody] using Lines.last inhabited unbroken are
          | cons d later =>
              have notBreak := stops' d rfl
              have notTab := isPrintable_ne (printable d (by simp)) '\t' (by decide)
              have ends : (d :: later).getLast?.any isBreak = true := by
                simpa [List.getLast?_append, List.getLast?_cons] using ends
              have shorter : (d :: later).length <
                  (line ++ first :: (breaks ++ d :: later)).length := by
                simp only [List.length_append, List.length_cons]
                omega
              have lines := ih _ shorter
                (fun c member => printable c (List.mem_append_right _ member)) ⟨d, later, rfl, notBreak⟩
                ends rfl
              rw [literalBody_behind_break indent notBreak]
              refine .more inhabited unbroken are ⟨d, literalBody indent false later, ?_, notBreak,
                notTab⟩ lines
              simp [literalBody, notBreak]

/-! ## The mark of a block -/

/-- What the mark of a printed block tells about the breaks at its end. -/
def literalChomping (text : List Char) : Chomping :=
  match text.reverse with
  | [] => .strip
  | [last] => if isBreak last then .keep else .strip
  | last :: before :: _ =>
      if !isBreak last then .strip else if isBreak before then .keep else .clip

theorem blockHeader?_literalHints (text rest : List Char) :
    blockHeader? (literalHints text ++ '\n' :: rest) =
      some (literalChomping text, if text.head?.any isSpaceOrBreak then 2 else 0, '\n' :: rest) := by
  unfold literalHints literalChomping
  cases text.head?.any isSpaceOrBreak
  all_goals
    cases text.reverse with
    | nil => rfl
    | cons last front =>
        cases front with
        | nil =>
            dsimp only
            cases isBreak last <;> rfl
        | cons before others =>
            dsimp only
            cases isBreak last <;> cases isBreak before <;> rfl

/-- The break that is put behind the last line of a text, if the text does not end in one. -/
def lineEndOf (text : List Char) : List Char :=
  if text.getLast?.any isBreak then [] else ['\n']

theorem literalBody_ended (indent : Nat) (broken : Bool) (text : List Char) :
    literalBody indent broken text ++ lineEndOf text =
      literalBody indent broken (text ++ lineEndOf text) := by
  unfold lineEndOf
  split
  · rw [List.append_nil, List.append_nil]
  · rw [literalBody_lineEnd]

theorem getLast_ended (text : List Char) :
    (text ++ lineEndOf text).getLast?.any isBreak = true := by
  unfold lineEndOf
  split
  · rwa [List.append_nil]
  · rw [List.getLast?_concat]
    rfl

/-- Of a text that ends in a single break, what is read before the break is all but it. -/
theorem BlockText.Holds.of_single {block : BlockText} {front : List Char} {c d : Char}
    (holds : block.Holds (front ++ [c] ++ [d])) (notBreak : isBreak c = false)
    (newline : isBreak d = true) : block.text = front ++ [c] ∧ block.lineEnd = [d] := by
  have whole := holds.whole
  rcases List.eq_nil_or_concat (block.lineEnd ++ block.later) with none | ⟨breaks, last, some⟩
  · -- Nothing behind the text: then the text ends in the break.
    have ends := holds.ends
    rw [none, List.append_nil] at whole
    rw [whole, List.getLast?_concat, Option.any_some, newline] at ends
    cases ends
  · have areBreaks := holds.breaks
    rw [List.concat_eq_append] at some
    rw [some, ← List.append_assoc] at whole
    rcases List.append_inj' whole rfl with ⟨before, same⟩
    rcases List.eq_nil_or_concat breaks with rfl | ⟨others, second, rfl⟩
    · rw [List.append_nil] at before
      rw [List.nil_append] at some
      rcases holds.single with ⟨-, nothing⟩ | ⟨e, lineEnd⟩
      · rw [nothing] at before
        cases (List.append_eq_nil_iff.mp before.symm).2
      · rw [lineEnd] at some
        exact ⟨before, by rw [lineEnd, (List.cons.inj some).1, List.cons.inj same |>.1]⟩
    · rw [List.concat_eq_append, ← List.append_assoc] at before
      have alsoBreak := areBreaks second (by simp [some])
      rw [List.cons.inj (List.append_inj' before rfl).2 |>.1, notBreak] at alsoBreak
      cases alsoBreak

/-- What is left of a block when its mark has taken effect is the printed text. -/
theorem chomped {text : List Char} {block : BlockText} (holds : block.Holds (text ++ lineEndOf text))
    (inhabited : text ≠ []) :
    block.text ++
      (match literalChomping text with
        | .strip => []
        | .clip => block.lineEnd
        | .keep => block.lineEnd ++ block.later) = text := by
  rcases List.eq_nil_or_concat text with rfl | ⟨front, last, rfl⟩
  · exact absurd rfl inhabited
  rw [List.concat_eq_append] at holds ⊢
  rw [lineEndOf, List.getLast?_concat, Option.any_some] at holds
  cases newline : isBreak last with
  | false =>
      rw [newline] at holds
      have strip : literalChomping (front ++ [last]) = .strip := by
        cases reversed : front.reverse <;> simp [literalChomping, reversed, newline]
      simp [strip, (holds.of_single newline (by decide)).1]
  | true =>
      rw [newline, if_pos rfl, List.append_nil] at holds
      rcases List.eq_nil_or_concat front with rfl | ⟨others, before, rfl⟩
      · have keep : literalChomping ([] ++ [last]) = .keep := by simp [literalChomping, newline]
        rw [keep]
        exact holds.whole
      · rw [List.concat_eq_append] at holds ⊢
        cases notNewline : isBreak before with
        | false =>
            have clip : literalChomping (others ++ [before] ++ [last]) = .clip := by
              simp [literalChomping, newline, notNewline]
            rcases holds.of_single notNewline newline with ⟨read, lineEnd⟩
            simp only [clip, read, lineEnd]
        | true =>
            have keep : literalChomping (others ++ [before] ++ [last]) = .keep := by
              simp [literalChomping, newline, notNewline]
            rw [keep]
            exact holds.whole

/-! ## Whole blocks -/

/-- The reader of a block behind its mark, on the lines that are printed for a text. -/
theorem block_eq {floor : Nat} {text rest : List Char} {c : Cursor}
    (ahead : c.rest = literalHints text ++ '\n' :: rest) :
    ∃ start : Cursor, start.column = 0 ∧ start.rest = rest ∧
      block false floor c =
        let given := if text.head?.any isSpaceOrBreak then floor - 1 + 2 else 0
        match emptyLines given 0 [] rest start with
        | none => none
        | some (widest, later, c) =>
            match blockLines false (if given = 0 then max widest (max floor 1) else given)
              (c.rest.length + 1) c { later } with
            | none => none
            | some (block, c) =>
                some (block.text ++
                  (match literalChomping text with
                    | .strip => []
                    | .clip => block.lineEnd
                    | .keep => block.lineEnd ++ block.later), { c with fresh := true }) := by
  have step := Cursor.passBreak_printable (c := c.passTo ('\n' :: rest)) (by decide) rfl
  refine ⟨(c.passTo ('\n' :: rest)).passBreak, by rw [step], by rw [step], ?_⟩
  have dropped : dropComment? ('\n' :: rest) = some ('\n' :: rest) := by
    simp [dropComment?, isBlank, isBreak]
  unfold block
  rw [ahead, blockHeader?_literalHints]
  dsimp only
  rw [dropped]
  dsimp only
  rw [show (c.passTo ('\n' :: rest)).passBreak.rest = rest by rw [step]]
  cases text.head?.any isSpaceOrBreak
  · rfl
  · rfl

theorem isPrintable_of_allowsLiteral {text : List Char} (allowed : allowsLiteral text = true) :
    ∀ c ∈ text, isPrintable c = true := by
  simp only [allowsLiteral, Bool.not_eq_true', Bool.or_eq_false_iff] at allowed
  intro c member
  simpa using List.any_eq_false.mp allowed.1.1 c member

/-- Behind the mark of a block, the reader finds a block that holds a text, up to a tail. -/
def FindsBlock (floor given : Nat) (source text tail : List Char) (start : Cursor) : Prop :=
  ∃ width later opened block after,
    emptyLines given 0 [] source start = some (width, later, opened) ∧
    blockLines false (if given = 0 then max width (max floor 1) else given)
      (opened.rest.length + 1) opened { later } = some (block, after) ∧
    block.Holds text ∧ after.rest = lineBody tail ∧ after.column = lineColumn tail

section FindsBlock

variable {items : Bool} {floor given : Nat} {tail leading : List Char} {start : Cursor}
  (inside : 0 < floor) (follows : Follows items floor tail)
  (are : ∀ c ∈ leading, isPrintable c = true ∧ isBreak c = true) (column : start.column = 0)

include inside follows are column

/-- Where there are breaks only, the reader stops before the block has a line. -/
theorem findsBlock_breaks :
    FindsBlock floor (floor + 1) (literalBody (floor + 1) true leading ++ tail) leading tail
      start := by
  have broken : ∀ c ∈ leading, isBreak c = true := fun c member => (are c member).2
  rcases emptyLines_breaks (floor + 1) 0 [] are column tail with ⟨next, fromStart, goesOn⟩
  rcases emptyLines_follows (floor + 1) 0 leading follows (Nat.le_succ floor) fromStart
    with ⟨width, after, emptied, stopped⟩
  have outside : after.column ≠ floor + 1 := by
    have := follows.lineColumn_lt inside
    omega
  have body := literalBody_breaks (floor + 1) broken []
  rw [List.append_nil, literalBody, List.append_nil] at body
  refine ⟨width, leading, after, { later := leading }, after, ?_, ?_,
    ⟨rfl, rfl, broken, Or.inl ⟨rfl, rfl⟩⟩, stopped⟩
  · rw [body, goesOn]
    exact emptied
  · rw [if_neg (Nat.succ_ne_zero floor), blockLines, if_pos (by simp [outside])]

/-- Where there are lines, the first of them shows the indentation, unless it begins with a space;
then the mark gives it. -/
theorem findsBlock_lines {first : Char} {others : List Char}
    (printable : ∀ c ∈ first :: others, isPrintable c = true) (notBreak : isBreak first = false)
    (ends : (first :: others).getLast?.any isBreak = true)
    (indented : given = 0 ∨ given = floor + 1) (shown : first = ' ' → given ≠ 0) :
    FindsBlock floor given (literalBody (floor + 1) true (leading ++ first :: others) ++ tail)
      (leading ++ first :: others) tail start := by
  have broken : ∀ c ∈ leading, isBreak c = true := fun c member => (are c member).2
  have notTab := isPrintable_ne (printable first List.mem_cons_self) '\t' (by decide)
  have lines : Lines (floor + 1) (first :: others)
      (literalBody (floor + 1) false (first :: others)) :=
    lines_literalBody printable ⟨first, others, rfl, notBreak⟩ ends
  rcases emptyLines_breaks given 0 [] are column
    (indentation (floor + 1) ++ (literalBody (floor + 1) false (first :: others) ++ tail))
    with ⟨next, fromStart, goesOn⟩
  have inner : given = 0 ∨ next.column + (floor + 1) ≤ given := by omega
  have space := emptyLines_spaces given 0 leading inner
    (literalBody (floor + 1) false (first :: others) ++ tail)
  have body : literalBody (floor + 1) false (first :: others) ++ tail =
      first :: (literalBody (floor + 1) false others ++ tail) := by
    simp [literalBody, notBreak]
  rw [List.nil_append, space, body,
    emptyLines_stops given 0 leading notTab notBreak (fun same => ⟨shown same, by
      have := shown same
      show given ≤ next.column + (floor + 1)
      omega⟩), ← body] at goesOn
  generalize entry : ({ next with
    rest := literalBody (floor + 1) false (first :: others) ++ tail
    index := next.index + (floor + 1), column := next.column + (floor + 1) } : Cursor) = opened
    at goesOn
  have atLines : opened.rest = literalBody (floor + 1) false (first :: others) ++ tail := by
    rw [← entry]
  have inLine : opened.column = floor + 1 := by
    rw [← entry]
    exact (congrArg (· + (floor + 1)) fromStart).trans (Nat.zero_add _)
  have enough : (literalBody (floor + 1) false (first :: others)).length <
      opened.rest.length + 1 := by
    rw [atLines, List.length_append]
    omega
  rcases blockLines_eq lines follows inside (Nat.le_succ floor) enough atLines inLine
    { later := leading } with ⟨block, after, lines, holds, stopped⟩
  refine ⟨max 0 (next.column + (floor + 1)), leading, opened, block, after, ?_, ?_, holds, stopped⟩
  · rw [literalBody_breaks (floor + 1) broken, literalBody_behind_break (floor + 1) notBreak,
      List.append_assoc, List.append_assoc]
    exact goesOn
  · have width : (if given = 0 then
        max (max 0 (next.column + (floor + 1))) (max floor 1) else given) = floor + 1 := by
      split
      · omega
      · omega
    rw [width]
    exact lines

end FindsBlock

/-- A text that is written in a literal block is read back, up to what follows its last line. -/
theorem block_text {items : Bool} {floor : Nat} {tail : List Char} (inside : 0 < floor)
    (follows : Follows items floor tail) {text : List Char} (allowed : allowsLiteral text = true)
    (inhabited : text ≠ []) {c : Cursor}
    (ahead : c.rest = literalHints text ++ '\n' ::
      (literalBody (floor + 1) true text ++ lineEndOf text ++ tail)) :
    ∃ after, block false floor c = some (text, after) ∧ after.Opens tail := by
  rw [literalBody_ended] at ahead
  rcases block_eq ahead with ⟨start, column, rest, read⟩
  rcases exists_run isBreak (text ++ lineEndOf text) with ⟨leading, others, split, broken, stops⟩
  have printable : ∀ c ∈ leading ++ others, isPrintable c = true := by
    intro c member
    rw [← split, List.mem_append] at member
    rcases member with inner | atLineEnd
    · exact isPrintable_of_allowsLiteral allowed c inner
    · rw [lineEndOf] at atLineEnd
      split at atLineEnd
      · cases atLineEnd
      · rw [List.mem_singleton.mp atLineEnd]
        rfl
  have are : ∀ c ∈ leading, isPrintable c = true ∧ isBreak c = true := fun c member =>
    ⟨printable c (List.mem_append_left others member), broken c member⟩
  have head : text.head? = (leading ++ others).head? := by
    rcases List.exists_cons_of_ne_nil inhabited with ⟨c, rest, rfl⟩
    rw [← split]
    rfl
  generalize stated : (if text.head?.any isSpaceOrBreak then floor - 1 + 2 else 0) = given at read
  rw [head] at stated
  have found : FindsBlock floor given (literalBody (floor + 1) true (leading ++ others) ++ tail)
      (leading ++ others) tail start := by
    cases others with
    | nil =>
        rw [List.append_nil] at head stated ⊢
        have spaced : leading.head?.any isSpaceOrBreak = true := by
          rcases List.exists_cons_of_ne_nil inhabited with ⟨c, rest, rfl⟩
          rw [← head]
          have first : isBreak c = true :=
            broken c (List.mem_of_mem_head? (head ▸ rfl))
          simp [isSpaceOrBreak, first]
        rw [spaced, if_pos rfl] at stated
        rw [show given = floor + 1 by omega]
        exact findsBlock_breaks inside follows are column
    | cons first others =>
        refine findsBlock_lines inside follows are column
          (fun c member => printable c (List.mem_append_right leading member)) (stops first rfl)
          ?_ ?_ ?_
        · have last := getLast_ended text
          rw [split] at last
          simpa [List.getLast?_append, List.getLast?_cons] using last
        · rw [← stated]
          split
          · exact Or.inr (by omega)
          · exact Or.inl rfl
        · rintro rfl
          have spaced : (leading ++ ' ' :: others).head?.any isSpaceOrBreak = true := by
            cases leading with
            | nil => rfl
            | cons c rest => simp [isSpaceOrBreak, broken c List.mem_cons_self]
          rw [← stated, spaced, if_pos rfl]
          omega
  rcases found with ⟨width, later, opened, block, after, emptied, lines, holds, stopped⟩
  rw [← split] at emptied holds
  refine ⟨{ after with fresh := true }, ?_, stopped.1, stopped.2, rfl⟩
  rw [read]
  simp only [emptied, lines]
  rw [chomped holds inhabited]

end Yaml
end ExportVolumes
