import ExportVolumes.Claim
import ExportVolumes.Template.Pattern

namespace ExportVolumes
namespace Template

/-!
Expansion of path patterns.

A pattern such as `${.PVC.labels.tier}/${.PVC.name}` names fields, labels and annotations
of a claim; a placeholder whose value is missing expands to nothing, and expanded values are
not looked at again.

There are two accounts of it.  `expand` follows the pattern of a placeholder, whose two
alternatives overlap.  `scan` reads from left to right and looks only for the first closing
brace of a line.
-/

/-- The text that opens a placeholder. -/
def opener : List Char := "$\x7b.PVC.".toList

/-- A character that stays on its line. -/
def onLine (c : Char) : Bool := c ≠ '\n'

/-- A placeholder: an opener, then `labels.` or `annotations.` and a key, or any text, up to a
closing brace on the line.  Group 1 is all of it, group 2 the word, group 3 the key. -/
def placeholder : Pattern :=
  .sequence (.literal opener) <|
  .sequence
    (.group 1 <|
      .choice
        (.sequence (.group 2 (.choice (.literal "labels".toList) (.literal "annotations".toList))) <|
          .sequence (.literal ['.']) (.group 3 (.lazyRun onLine)))
        (.lazyRun onLine))
    (.literal ['\x7d'])

/-- What a group has recorded, as text. -/
def captured? (captures : Pattern.Captures) (index : Nat) : Option String :=
  (captures.lookup index).map String.ofList

/-- The value of a placeholder from its groups. -/
def valueOf (metadata : ClaimMetadata) (captures : Pattern.Captures) : String :=
  let key := (captured? captures 3).getD ""
  let value :=
    if captured? captures 2 = some "labels" then metadata.labels.get? key
    else if captured? captures 2 = some "annotations" then metadata.annotations.get? key
    else metadata.field? ((captured? captures 1).getD "")
  value.getD ""

/-- Expand every placeholder of a pattern with the values of a claim. -/
def expand (pattern : String) (metadata : ClaimMetadata) : String :=
  String.ofList <|
    placeholder.replaceAll (fun captures => (valueOf metadata captures).toList) pattern.toList

/-! ## The scanner -/

/-- The text up to the first closing brace of the line, and the text behind it. -/
def body? : List Char → Option (List Char × List Char)
  | [] => none
  | c :: text =>
      if c = '\x7d' then some ([], text)
      else if c = '\n' then none
      else (body? text).map (fun found => (c :: found.1, found.2))

/-- The value that the text between opener and brace names. -/
def bodyValue (metadata : ClaimMetadata) (body : List Char) : String :=
  match Pattern.dropLiteral? "labels.".toList body with
  | some key => (metadata.labels.get? (String.ofList key)).getD ""
  | none =>
      match Pattern.dropLiteral? "annotations.".toList body with
      | some key => (metadata.annotations.get? (String.ofList key)).getD ""
      | none => (metadata.field? (String.ofList body)).getD ""

theorem body?_shorter {text body after : List Char} (found : body? text = some (body, after)) :
    after.length < text.length := by
  induction text generalizing body with
  | nil => simp [body?] at found
  | cons c text ih =>
      simp only [body?] at found
      split at found
      · simp only [Option.some.injEq, Prod.mk.injEq] at found
        simp [found.2]
      · split at found
        · simp at found
        · obtain ⟨inner, innerFound, same⟩ := Option.map_eq_some_iff.mp found
          obtain ⟨_, rfl⟩ := Prod.mk.inj same
          have shorter := ih innerFound
          simp only [List.length_cons]
          omega

theorem dropLiteral?_length_le {literal text after : List Char}
    (found : Pattern.dropLiteral? literal text = some after) : after.length ≤ text.length := by
  rw [Pattern.dropLiteral?_eq_some_iff.mp found, List.length_append]
  exact Nat.le_add_left _ _

/-- Read a pattern from left to right: where an opener is followed on its line by a closing
brace, put the value of the text between them; copy every other character. -/
def scanChars (metadata : ClaimMetadata) : List Char → List Char
  | [] => []
  | c :: text =>
      match _found : (Pattern.dropLiteral? opener (c :: text)).bind body? with
      | some (body, after) => (bodyValue metadata body).toList ++ scanChars metadata after
      | none => c :: scanChars metadata text
  termination_by text => text.length
  decreasing_by
    · obtain ⟨inside, opened, closed⟩ := Option.bind_eq_some_iff.mp _found
      have first := dropLiteral?_length_le opened
      have second := body?_shorter closed
      omega
    · simp

/-- The expansion of a pattern by scanning. -/
def scan (pattern : String) (metadata : ClaimMetadata) : String :=
  String.ofList (scanChars metadata pattern.toList)

end Template
end ExportVolumes
