namespace ExportVolumes

/-!
Text patterns with ordered choice.

A pattern is matched at one place of a text.  Of two alternatives the first that lets the
whole pattern match is taken, and a lazy run takes the fewest characters that let it match,
so that a pattern matches at a place in at most one way.
-/

/-- A text pattern.  A group of index `i` records what its pattern has matched. -/
inductive Pattern where
  | literal (chars : List Char)
  | lazyRun (admits : Char → Bool)
  | group (index : Nat) (inner : Pattern)
  | sequence (first second : Pattern)
  | choice (first second : Pattern)

namespace Pattern

/-- What the groups of a pattern have recorded, the latest first. -/
abbrev Captures := List (Nat × List Char)

/-- The text after a literal that opens it. -/
def dropLiteral? : List Char → List Char → Option (List Char)
  | [], text => some text
  | _ :: _, [] => none
  | expected :: others, c :: text => if expected = c then dropLiteral? others text else none

theorem dropLiteral?_append (literal rest : List Char) :
    dropLiteral? literal (literal ++ rest) = some rest := by
  induction literal with
  | nil => cases rest <;> rfl
  | cons c others ih => simp only [List.cons_append, dropLiteral?, if_true, ih]

theorem dropLiteral?_eq_some_iff {literal text after : List Char} :
    dropLiteral? literal text = some after ↔ text = literal ++ after := by
  constructor
  · intro found
    induction literal generalizing text with
    | nil => exact Option.some.inj found
    | cons expected literal ih =>
        cases text with
        | nil => cases found
        | cons c text =>
            simp only [dropLiteral?] at found
            split at found
            · rename_i same
              rw [same, ih found, List.cons_append]
            · cases found
  · rintro rfl
    exact dropLiteral?_append literal after

theorem dropLiteral?_eq_none_iff {literal text : List Char} :
    dropLiteral? literal text = none ↔ ¬literal <+: text := by
  rw [Option.eq_none_iff_forall_ne_some]
  constructor
  · rintro nowhere ⟨after, opens⟩
    exact nowhere after (dropLiteral?_eq_some_iff.mpr opens.symm)
  · rintro differs after found
    exact differs ⟨after, (dropLiteral?_eq_some_iff.mp found).symm⟩

/-- Let `rest` match after the fewest admitted characters. -/
def runLazily (admits : Char → Bool) (rest : List Char → Option α) : List Char → Option α
  | [] => rest []
  | c :: text =>
      match rest (c :: text) with
      | some result => some result
      | none => if admits c then runLazily admits rest text else none

/-- Match a pattern at the start of a text and go on with `rest` behind it, trying the ways
to match in order until `rest` succeeds. -/
def matchThen : Pattern → List Char → Captures → (List Char → Captures → Option α) → Option α
  | literal chars, text, captures, rest => (dropLiteral? chars text).bind (rest · captures)
  | lazyRun admits, text, captures, rest => runLazily admits (rest · captures) text
  | group index inner, text, captures, rest =>
      matchThen inner text captures fun after inside =>
        rest after ((index, text.take (text.length - after.length)) :: inside)
  | sequence first second, text, captures, rest =>
      matchThen first text captures fun after inside => matchThen second after inside rest
  | choice first second, text, captures, rest =>
      match matchThen first text captures rest with
      | some result => some result
      | none => matchThen second text captures rest

/-- The groups and the remaining text of a match at the start of a text. -/
def matchPrefix? (pattern : Pattern) (text : List Char) : Option (Captures × List Char) :=
  pattern.matchThen text [] fun after captures => some (captures, after)

/-- Replace each match, from left to right and never twice at one place, by `replacement`
of its groups.  A match is taken only where it leaves less text than there was. -/
def replaceAll (pattern : Pattern) (replacement : Captures → List Char) : List Char → List Char
  | [] => []
  | c :: text =>
      match pattern.matchPrefix? (c :: text) with
      | some (captures, after) =>
          if after.length < (c :: text).length then
            replacement captures ++ replaceAll pattern replacement after
          else
            c :: replaceAll pattern replacement text
      | none => c :: replaceAll pattern replacement text
  termination_by text => text.length
  decreasing_by
    · assumption
    · exact Nat.lt_succ_self _
    · exact Nat.lt_succ_self _

end Pattern
end ExportVolumes
