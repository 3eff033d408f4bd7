import ExportVolumes.Proofs.Template.Preference
import ExportVolumes.Template.Expansion

namespace ExportVolumes
namespace Template

/-!
Expansion as a scan.

A pattern is read from left to right.  Where an opener is followed on its line by a closing brace,
the text between them names a value, which is put in its place and not read again
(`Template.Scanned`).  The pattern of a placeholder has two alternatives that overlap, and lazy runs
in both; that the first way to match it ends at the first closing brace of the line, and records
what the text before it names, is `matchPrefix?_placeholder`.  The main statement is
`expand_eq_iff`.
-/

/-! ## What a scan is -/

/-- What a text between opener and closing brace names. -/
inductive Names (metadata : ClaimMetadata) : List Char → String → Prop
  | labelled (key : List Char) : Names metadata ("labels.".toList ++ key)
      ((metadata.labels.get? (String.ofList key)).getD "")
  | annotated (key : List Char) : Names metadata ("annotations.".toList ++ key)
      ((metadata.annotations.get? (String.ofList key)).getD "")
  | name : Names metadata "name".toList metadata.name
  | namespaceName : Names metadata "namespace".toList metadata.namespaceName
  | nothing {body : List Char} (unlabelled : ¬"labels.".toList <+: body)
      (unannotated : ¬"annotations.".toList <+: body) (noName : body ≠ "name".toList)
      (noNamespace : body ≠ "namespace".toList) : Names metadata body ""

/-- A text opens with a placeholder: there is a closing brace behind an opener, on its line. -/
def Opens (text : List Char) : Prop :=
  ∃ body after, text = opener ++ (body ++ '\x7d' :: after) ∧ '\n' ∉ body

/-- A text with its placeholders expanded. -/
inductive Scanned (metadata : ClaimMetadata) : List Char → List Char → Prop
  | done : Scanned metadata [] []
  | placeholder {body after result : List Char} {value : String} (onLine : '\n' ∉ body)
      (first : '\x7d' ∉ body) (named : Names metadata body value)
      (onward : Scanned metadata after result) :
      Scanned metadata (opener ++ (body ++ '\x7d' :: after)) (value.toList ++ result)
  | copied {c : Char} {text result : List Char} (plain : ¬Opens (c :: text))
      (onward : Scanned metadata text result) : Scanned metadata (c :: text) (c :: result)

/-! ## Bodies -/

/-- A literal that neither closes a placeholder nor ends a line is read over. -/
theorem body?_append {literal : List Char} (noBrace : '\x7d' ∉ literal) (noBreak : '\n' ∉ literal)
    (text : List Char) :
    body? (literal ++ text) = (body? text).map fun found => (literal ++ found.1, found.2) := by
  induction literal with
  | nil => exact (congrFun Option.map_id (body? text)).symm
  | cons c literal ih =>
      rw [List.mem_cons, not_or] at noBrace noBreak
      rw [List.cons_append, body?, if_neg (Ne.symm noBrace.1), if_neg (Ne.symm noBreak.1),
        ih noBrace.2 noBreak.2, Option.map_map]
      rfl

/-- The body is what stands before the first closing brace, if this is on the line. -/
theorem body?_eq_some_iff {text body after : List Char} :
    body? text = some (body, after) ↔
      text = body ++ '\x7d' :: after ∧ '\x7d' ∉ body ∧ '\n' ∉ body := by
  constructor
  · intro found
    induction text generalizing body with
    | nil => cases found
    | cons c text ih =>
        rw [body?] at found
        split at found
        · rename_i closing
          cases found
          exact ⟨by rw [closing, List.nil_append], List.not_mem_nil, List.not_mem_nil⟩
        · rename_i inBody
          split at found
          · cases found
          · rename_i unbroken
            obtain ⟨inner, inside, same⟩ := Option.map_eq_some_iff.mp found
            cases same
            obtain ⟨whole, free, onLine⟩ := ih inside
            exact ⟨by rw [whole, List.cons_append],
              List.not_mem_cons_of_ne_of_not_mem (Ne.symm inBody) free,
              List.not_mem_cons_of_ne_of_not_mem (Ne.symm unbroken) onLine⟩
  · rintro ⟨rfl, free, onLine⟩
    rw [body?_append free onLine, body?, if_pos rfl, Option.map_some, List.append_nil]

/-- Of the closing braces on a line, one is the first. -/
theorem body?_ne_none {body after : List Char} (onLine : '\n' ∉ body) :
    body? (body ++ '\x7d' :: after) ≠ none := by
  induction body with
  | nil => simp [body?]
  | cons c body ih =>
      rw [List.mem_cons, not_or] at onLine
      rw [List.cons_append, body?, if_neg (Ne.symm onLine.1)]
      split
      · exact Option.some_ne_none _
      · exact fun nowhere => ih onLine.2 (Option.map_eq_none_iff.mp nowhere)

/-- Where no placeholder opens a text, the scanner finds none. -/
theorem not_opens_iff {text : List Char} :
    ¬Opens text ↔ (Pattern.dropLiteral? opener text).bind body? = none := by
  constructor
  · intro plain
    refine Option.bind_eq_none_iff.mpr fun inside opened => ?_
    refine Option.eq_none_iff_forall_ne_some.mpr fun ⟨body, after⟩ closed => ?_
    obtain ⟨rfl, _, onLine⟩ := body?_eq_some_iff.mp closed
    exact plain ⟨body, after, Pattern.dropLiteral?_eq_some_iff.mp opened, onLine⟩
  · rintro nowhere ⟨body, after, rfl, onLine⟩
    rw [Pattern.dropLiteral?_append, Option.bind_some] at nowhere
    exact body?_ne_none onLine nowhere

theorem field?_ofList_eq_none_iff (metadata : ClaimMetadata) {body : List Char} :
    metadata.field? (String.ofList body) = none ↔
      body ≠ "name".toList ∧ body ≠ "namespace".toList := by
  simp only [ClaimMetadata.field?, ← String.toList_inj, String.toList_ofList]
  split
  · rename_i name
    exact iff_of_false (Option.some_ne_none _) fun differs => differs.1 name
  · rename_i noName
    split
    · rename_i namespaceName
      exact iff_of_false (Option.some_ne_none _) fun differs => differs.2 namespaceName
    · rename_i noNamespace
      exact iff_of_true rfl ⟨noName, noNamespace⟩

/-- A text names the value that the scanner puts for it. -/
theorem names_iff {metadata : ClaimMetadata} {body : List Char} {value : String} :
    Names metadata body value ↔ bodyValue metadata body = value := by
  constructor
  · intro named
    cases named with
    | labelled key => rw [bodyValue, Pattern.dropLiteral?_append]
    | annotated key =>
        rw [bodyValue, Pattern.dropLiteral?_append]
        rfl
    | name => rfl
    | namespaceName => rfl
    | nothing unlabelled unannotated noName noNamespace =>
        rw [bodyValue, Pattern.dropLiteral?_eq_none_iff.mpr unlabelled,
          Pattern.dropLiteral?_eq_none_iff.mpr unannotated]
        have noField := (field?_ofList_eq_none_iff metadata).mpr ⟨noName, noNamespace⟩
        simp only [noField, Option.getD_none]
  · rintro rfl
    unfold bodyValue
    split
    · rename_i key found
      rw [Pattern.dropLiteral?_eq_some_iff.mp found]
      exact .labelled key
    · rename_i unlabelled
      split
      · rename_i key found
        rw [Pattern.dropLiteral?_eq_some_iff.mp found]
        exact .annotated key
      · rename_i unannotated
        by_cases name : body = "name".toList
        · rw [name]
          exact .name
        · by_cases namespaceName : body = "namespace".toList
          · rw [namespaceName]
            exact .namespaceName
          · rw [(field?_ofList_eq_none_iff metadata).mpr ⟨name, namespaceName⟩]
            exact .nothing (Pattern.dropLiteral?_eq_none_iff.mp unlabelled)
              (Pattern.dropLiteral?_eq_none_iff.mp unannotated) name namespaceName

/-! ## The scan -/

variable {metadata : ClaimMetadata}

theorem scanChars_of_found {text body after : List Char}
    (found : (Pattern.dropLiteral? opener text).bind body? = some (body, after)) :
    scanChars metadata text = (bodyValue metadata body).toList ++ scanChars metadata after := by
  cases text with
  | nil => cases found
  | cons c text =>
      rw [scanChars]
      split
      · rename_i again
        cases found.symm.trans again
        rfl
      · rename_i nowhere
        cases found.symm.trans nowhere

theorem scanChars_of_plain {c : Char} {text : List Char}
    (nowhere : (Pattern.dropLiteral? opener (c :: text)).bind body? = none) :
    scanChars metadata (c :: text) = c :: scanChars metadata text := by
  rw [scanChars]
  split
  · rename_i found
    cases nowhere.symm.trans found
  · rfl

theorem scanned_iff {text result : List Char} :
    Scanned metadata text result ↔ scanChars metadata text = result := by
  constructor
  · intro scanned
    induction scanned with
    | done => rw [scanChars]
    | @placeholder body after result value onLine first named onward ih =>
        have found : (Pattern.dropLiteral? opener (opener ++ (body ++ '\x7d' :: after))).bind
            body? = some (body, after) := by
          rw [Pattern.dropLiteral?_append, Option.bind_some]
          exact body?_eq_some_iff.mpr ⟨rfl, first, onLine⟩
        rw [scanChars_of_found found, names_iff.mp named, ih]
    | copied plain onward ih =>
        rw [scanChars_of_plain (not_opens_iff.mp plain), ih]
  · rintro rfl
    fun_induction scanChars metadata text with
    | case1 => exact .done
    | case2 c text body after found ih =>
        rcases Option.bind_eq_some_iff.mp found with ⟨inside, opened, closed⟩
        rcases body?_eq_some_iff.mp closed with ⟨rfl, first, onLine⟩
        rw [Pattern.dropLiteral?_eq_some_iff.mp opened]
        exact .placeholder onLine first (names_iff.mpr rfl) ih
    | case3 c text nowhere ih => exact .copied (not_opens_iff.mpr nowhere) ih

/-! ## Matching a placeholder -/

/-- A lazy run that has to be closed ends at the first closing brace of the line. -/
theorem runLazily_closing {α : Type} (result : List Char → List Char → α) (text : List Char) :
    Pattern.runLazily onLine (fun after =>
        (Pattern.dropLiteral? ['\x7d'] after).bind fun rest => some (result after rest)) text =
      (body? text).map fun found => result ('\x7d' :: found.2) found.2 := by
  induction text with
  | nil => rfl
  | cons c text ih =>
      rw [Pattern.runLazily, body?, Pattern.dropLiteral?]
      by_cases closing : c = '\x7d'
      · rw [if_pos closing, if_pos closing.symm, closing]
        rfl
      · rw [if_neg closing, if_neg (Ne.symm closing)]
        by_cases broken : c = '\n'
        · simp [broken, onLine]
        · simp only [Option.bind_none, onLine, ne_eq, broken, not_false_eq_true, decide_true,
            if_true, if_false, ih, Option.map_map]
          rfl

theorem take_before (front back : List Char) :
    (front ++ back).take ((front ++ back).length - back.length) = front := by
  rw [List.length_append, Nat.add_sub_cancel, List.take_left]

/-- What the groups record where the first alternative matches with `word`. -/
theorem runLazily_keyed {word : List Char} (noBrace : '\x7d' ∉ word) (noBreak : '\n' ∉ word)
    (inside : List Char) :
    ((Pattern.dropLiteral? word inside).bind fun behind =>
      (Pattern.dropLiteral? ['.'] behind).bind fun text =>
        Pattern.runLazily onLine (fun after =>
          (Pattern.dropLiteral? ['\x7d'] after).bind fun rest =>
            some ([(1, inside.take (inside.length - after.length)),
              (3, text.take (text.length - after.length)),
              (2, inside.take (inside.length - behind.length))], rest)) text) =
      (body? inside).bind fun found =>
        (Pattern.dropLiteral? (word ++ ['.']) found.1).map fun key =>
          ([(1, found.1), (3, key), (2, word)], found.2) := by
  by_cases opened : word ++ ['.'] <+: inside
  · obtain ⟨text, rfl⟩ := opened
    have dot : Pattern.dropLiteral? ['.'] (['.'] ++ text) = some text :=
      Pattern.dropLiteral?_append ['.'] text
    rw [body?_append (by simp [noBrace]) (by simp [noBreak]), List.append_assoc,
      Pattern.dropLiteral?_append, Option.bind_some, dot, Option.bind_some, runLazily_closing]
    cases closed : body? text with
    | none => rfl
    | some found =>
        obtain ⟨rfl, _, _⟩ := body?_eq_some_iff.mp closed
        have all := take_before (word ++ ['.'] ++ found.1) ('\x7d' :: found.2)
        have key := take_before found.1 ('\x7d' :: found.2)
        have start := take_before word (['.'] ++ (found.1 ++ '\x7d' :: found.2))
        have named := Pattern.dropLiteral?_append (word ++ ['.']) found.1
        simp only [List.append_assoc] at all start named
        simp only [Option.map_some, Option.bind_some, List.append_assoc, all, key, start, named]
  · rw [Option.bind_eq_none_iff.mpr, Option.bind_eq_none_iff.mpr]
    · rintro ⟨body, after⟩ closed
      obtain ⟨rfl, _, _⟩ := body?_eq_some_iff.mp closed
      have within := fun opens => opened (List.IsPrefix.trans opens (List.prefix_append body _))
      rw [Pattern.dropLiteral?_eq_none_iff.mpr within, Option.map_none]
    · intro behind first
      rw [Option.bind_eq_none_iff]
      intro text second
      refine absurd ⟨text, ?_⟩ opened
      rw [Pattern.dropLiteral?_eq_some_iff.mp first, Pattern.dropLiteral?_eq_some_iff.mp second,
        List.append_assoc]

/-- What the groups record where the second alternative matches. -/
theorem runLazily_unkeyed (inside : List Char) :
    Pattern.runLazily onLine (fun after =>
        (Pattern.dropLiteral? ['\x7d'] after).bind fun rest =>
          some ([(1, inside.take (inside.length - after.length))], rest)) inside =
      (body? inside).map fun found => ([(1, found.1)], found.2) := by
  rw [runLazily_closing]
  cases closed : body? inside with
  | none => rfl
  | some found =>
      obtain ⟨rfl, _, _⟩ := body?_eq_some_iff.mp closed
      rw [Option.map_some, take_before, Option.map_some]

/-- What the groups record of a placeholder, the latest first. -/
def bodyCaptures (body : List Char) : Pattern.Captures :=
  match Pattern.dropLiteral? "labels.".toList body with
  | some key => [(1, body), (3, key), (2, "labels".toList)]
  | none =>
      match Pattern.dropLiteral? "annotations.".toList body with
      | some key => [(1, body), (3, key), (2, "annotations".toList)]
      | none => [(1, body)]

/-- A placeholder matches where the scanner finds one, and its groups record the parts of the text
before the first closing brace.  The first alternative is the one taken whenever it can match: both
end at the same brace. -/
theorem matchPrefix?_placeholder (text : List Char) :
    placeholder.matchPrefix? text =
      ((Pattern.dropLiteral? opener text).bind body?).map fun found =>
        (bodyCaptures found.1, found.2) := by
  rw [Pattern.matchPrefix?, placeholder]
  simp only [Pattern.matchThen]
  cases Pattern.dropLiteral? opener text with
  | none => rfl
  | some inside =>
      rw [Option.bind_some, Option.bind_some, runLazily_keyed (by decide) (by decide),
        runLazily_keyed (by decide) (by decide), runLazily_unkeyed]
      cases body? inside with
      | none => rfl
      | some found =>
          have labels : "labels".toList ++ ['.'] = "labels.".toList := rfl
          have annotations : "annotations".toList ++ ['.'] = "annotations.".toList := rfl
          rw [Option.bind_some, Option.bind_some, Option.map_some, Option.map_some, labels,
            annotations, bodyCaptures]
          cases Pattern.dropLiteral? "labels.".toList found.1 with
          | some key => rfl
          | none =>
              cases Pattern.dropLiteral? "annotations.".toList found.1 with
              | some key => rfl
              | none => rfl

/-- The groups of a placeholder give the value that its text names. -/
theorem valueOf_bodyCaptures (metadata : ClaimMetadata) (body : List Char) :
    valueOf metadata (bodyCaptures body) = bodyValue metadata body := by
  rw [bodyCaptures, bodyValue]
  cases Pattern.dropLiteral? "labels.".toList body with
  | some key => rfl
  | none =>
      cases Pattern.dropLiteral? "annotations.".toList body with
      | some key => rfl
      | none => rfl

/-! ## Expansion -/

/-- Replacing placeholders is scanning for them. -/
theorem replaceAll_placeholder (metadata : ClaimMetadata) (text : List Char) :
    placeholder.replaceAll (fun captures => (valueOf metadata captures).toList) text =
      scanChars metadata text := by
  fun_induction scanChars metadata text with
  | case1 => rw [Pattern.replaceAll]
  | case2 c text body after found ih =>
      have first := matchPrefix?_placeholder (c :: text)
      rw [found, Option.map_some] at first
      obtain ⟨inside, opened, closed⟩ := Option.bind_eq_some_iff.mp found
      have shorter : after.length < (c :: text).length :=
        Nat.lt_of_lt_of_le (body?_shorter closed) (dropLiteral?_length_le opened)
      rw [Pattern.replaceAll, first]
      simp only [if_pos shorter, valueOf_bodyCaptures, ih]
  | case3 c text nowhere ih =>
      have unmatched := matchPrefix?_placeholder (c :: text)
      rw [nowhere, Option.map_none] at unmatched
      rw [Pattern.replaceAll, unmatched]
      simp only [ih]

/-- Expanding is scanning. -/
theorem expand_eq_scan (pattern : String) (metadata : ClaimMetadata) :
    expand pattern metadata = scan pattern metadata := by
  rw [expand, replaceAll_placeholder, scan]

theorem consumes_placeholder : placeholder.Consumes :=
  Pattern.consumes_sequence_literal (by decide) _

/-- Expansion is the replacement of placeholders, leftmost and preferred first, and it is the scan
for closing braces.  Either relation holds of exactly one text. -/
theorem expand_eq_iff (pattern : String) (metadata : ClaimMetadata) (result : String) :
    (placeholder.Replaced (fun captures => (valueOf metadata captures).toList) pattern.toList
        result.toList ↔ expand pattern metadata = result) ∧
      (Scanned metadata pattern.toList result.toList ↔ expand pattern metadata = result) := by
  constructor
  · rw [Pattern.replaced_iff consumes_placeholder, expand, ← String.toList_inj,
      String.toList_ofList]
  · rw [scanned_iff, expand_eq_scan, scan, ← String.toList_inj, String.toList_ofList]

/-- An opener inside a placeholder belongs to its body, and only the first closing brace closes it. -/
example : expand "a$\x7b.PVC.$\x7b.PVC.name\x7d\x7db"
    { name := "data", namespaceName := "default" } = "a\x7db" := by
  cbv

end Template
end ExportVolumes
