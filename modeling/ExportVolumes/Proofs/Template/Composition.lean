import ExportVolumes.Proofs.Template.Scanning
import Mathlib.Data.List.Basic

namespace ExportVolumes
namespace Template

/-!
Expansion of a pattern in parts.

An opener has neither a closing brace nor a line break in it, and a placeholder ends at the first
closing brace behind its opener, on the same line.  So no placeholder reaches over a closing brace
that is behind its start, or over the end of a line (`opens_of_append`), and a pattern that is cut
there expands to what its parts expand to (`expand_parts`).
-/

/-- No placeholder can reach from one text into the next: the first is empty or ends with a closing
brace or a line break, or the second begins with a line break. -/
def Parts (front back : List Char) : Prop :=
  front = [] ∨ front.getLast? = some '\x7d' ∨ front.getLast? = some '\n' ∨
    back.head? = some '\n'

theorem Parts.behind {middle back : List Char} (front : List Char)
    (parts : Parts (front ++ middle) back) : Parts middle back := by
  by_cases bare : middle = []
  · exact .inl bare
  · rw [Parts, List.getLast?_append_of_ne_nil front bare] at parts
    exact parts.imp_left fun same => (List.append_eq_nil_iff.mp same).2

/-- A placeholder that opens a text can be taken up to its first closing brace. -/
theorem Opens.exists_first {text : List Char} (opens : Opens text) :
    ∃ body after, text = opener ++ body ++ '\x7d' :: after ∧ '\x7d' ∉ opener ++ body ∧
      '\n' ∉ opener ++ body := by
  have found : (Pattern.dropLiteral? opener text).bind body? ≠ none :=
    fun nowhere => not_opens_iff.mpr nowhere opens
  obtain ⟨⟨body, after⟩, closes⟩ := Option.ne_none_iff_exists'.mp found
  obtain ⟨inside, opened, closed⟩ := Option.bind_eq_some_iff.mp closes
  obtain ⟨rfl, first, onLine⟩ := body?_eq_some_iff.mp closed
  rw [Pattern.dropLiteral?_eq_some_iff.mp opened]
  refine ⟨body, after, (List.append_assoc _ _ _).symm, ?_, ?_⟩
  · exact List.not_mem_append (by decide) first
  · exact List.not_mem_append (by decide) onLine

/-- A placeholder that opens the first of two parts lies in it. -/
theorem opens_of_append {front back : List Char} (parts : Parts front back)
    (inhabited : front ≠ []) (opens : Opens (front ++ back)) : Opens front := by
  obtain ⟨body, after, whole, noBrace, noBreak⟩ := opens.exists_first
  by_cases short : front <+: opener ++ body
  · -- Then the cut is before the closing brace, where nothing can part the texts.
    obtain ⟨rest, same⟩ := short
    have onward : back = rest ++ '\x7d' :: after := by
      rw [← same, List.append_assoc] at whole
      exact List.append_cancel_left whole
    have ends : ∀ c, front.getLast? = some c → c ∈ opener ++ body := fun c last =>
      same ▸ List.mem_append_left rest (List.mem_of_getLast? last)
    rcases parts with bare | brace | broken | begins
    · exact absurd bare inhabited
    · exact absurd (ends _ brace) noBrace
    · exact absurd (ends _ broken) noBreak
    · rw [onward] at begins
      cases rest with
      | nil => exact absurd (Option.some.inj begins) (by decide)
      | cons c rest =>
          cases begins
          exact absurd (same ▸ List.mem_append_right front List.mem_cons_self) noBreak
  · rcases List.append_eq_append_iff.mp whole with ⟨rest, same, _⟩ | ⟨rest, rfl, onward⟩
    · exact absurd ⟨rest, same.symm⟩ short
    · cases rest with
      | nil => exact absurd (List.append_nil _ ▸ List.prefix_rfl) short
      | cons c rest =>
          cases onward
          rw [List.append_assoc]
          exact ⟨body, rest, rfl, fun inBody => noBreak (List.mem_append_right _ inBody)⟩

variable {metadata : ClaimMetadata}

/-- Two parts are scanned one after the other. -/
theorem Scanned.append {front back one two : List Char} (parts : Parts front back)
    (first : Scanned metadata front one) (second : Scanned metadata back two) :
    Scanned metadata (front ++ back) (one ++ two) := by
  induction first with
  | done => exact second
  | @placeholder body after result value onLine closing named onward ih =>
      have later : Parts after back := by
        refine Parts.behind (opener ++ (body ++ ['\x7d'])) ?_
        simpa using parts
      have scanned := Scanned.placeholder onLine closing named (ih later)
      simpa using scanned
  | copied plain onward ih =>
      refine .copied (fun opens => plain ?_) (ih (parts.behind [_]))
      exact opens_of_append parts (List.cons_ne_nil _ _) opens

theorem expand_append {front back : String} (parts : Parts front.toList back.toList) :
    expand (front ++ back) metadata = expand front metadata ++ expand back metadata := by
  have first : Scanned metadata front.toList (scanChars metadata front.toList) :=
    scanned_iff.mpr rfl
  have second : Scanned metadata back.toList (scanChars metadata back.toList) :=
    scanned_iff.mpr rfl
  have whole := scanned_iff.mp (first.append parts second)
  simp only [expand_eq_scan, scan, String.toList_append, whole, String.ofList_append]

/-- A text that ends where no placeholder goes on: it is empty, or ends with a closing brace or a
line break. -/
def Ends (text : String) : Prop :=
  text = "" ∨ (∃ rest, text = rest ++ "\x7d") ∨ ∃ rest, text = rest ++ "\n"

theorem Ends.parts {front : String} (ends : Ends front) (back : String) :
    Parts front.toList back.toList := by
  rcases ends with rfl | ⟨rest, rfl⟩ | ⟨rest, rfl⟩
  · exact .inl rfl
  · refine .inr (.inl ?_)
    rw [String.toList_append]
    exact List.getLast?_concat
  · refine .inr (.inr (.inl ?_))
    rw [String.toList_append]
    exact List.getLast?_concat

theorem expand_break : expand "\n" metadata = "\n" := by
  have plain : scanChars metadata ['\n'] = ['\n'] := by
    rw [scanChars_of_plain rfl, scanChars]
  rw [expand_eq_scan, scan]
  exact congrArg String.ofList plain

theorem expand_line (front back : String) :
    expand (front ++ "\n" ++ back) metadata =
      expand front metadata ++ "\n" ++ expand back metadata := by
  have ends : Ends (front ++ "\n") := .inr (.inr ⟨front, rfl⟩)
  rw [expand_append (ends.parts back), expand_append (.inr (.inr (.inr rfl))),
    expand_break]

/-- A pattern that is cut behind a closing brace, behind a line break or before one expands to what
its parts expand to. So what a placeholder gives depends on its line up to its closing brace only. -/
theorem expand_parts (metadata : ClaimMetadata) (front back : String) :
    (Ends front → expand (front ++ back) metadata =
        expand front metadata ++ expand back metadata) ∧
      expand (front ++ "\n" ++ back) metadata =
        expand front metadata ++ "\n" ++ expand back metadata ∧
      ∀ line, expand (front ++ "\n" ++ (line ++ "\x7d") ++ back) metadata =
        expand front metadata ++ "\n" ++ expand (line ++ "\x7d") metadata ++
          expand back metadata := by
  refine ⟨fun ends => expand_append (ends.parts back), expand_line front back, fun line => ?_⟩
  have ends : Ends (front ++ "\n" ++ (line ++ "\x7d")) :=
    .inr (.inl ⟨front ++ "\n" ++ line, String.append_assoc.symm⟩)
  rw [expand_append (ends.parts back), expand_line]

/-- An opener that is left open on one line is not closed on the next one, where a placeholder
expands as it does by itself. -/
theorem expand_parts_unclosed :
    let metadata : ClaimMetadata := { name := "data", namespaceName := "default" }
    Ends "a/$\x7b.PVC.\n" ∧
      expand ("a/$\x7b.PVC.\n" ++ "name\x7d-$\x7b.PVC.name\x7d") metadata =
        "a/$\x7b.PVC.\nname\x7d-data" := by
  intro metadata
  have ends : Ends "a/$\x7b.PVC.\n" := .inr (.inr ⟨"a/$\x7b.PVC.", rfl⟩)
  refine ⟨ends, ((expand_parts metadata _ _).1 ends).trans ?_⟩
  decide +kernel

end Template
end ExportVolumes
