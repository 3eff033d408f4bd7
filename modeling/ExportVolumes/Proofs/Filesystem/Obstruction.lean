import ExportVolumes.Proofs.Filesystem.Rooted

namespace ExportVolumes

/-!
Files in the way of a directory.

A file at the place of a directory that is to be made, or at that of one above it, stops the making
before anything is made: the first attempt goes as far as the file, and finds that it is no
directory.  What is missing is made only after an attempt that finds something missing
(`Tree.createDirectories_blocked`).
-/

namespace Tree

variable {tree : Tree} {here base location : Location} {entry : Entry} {steps : List Component}

/-- What is tried under a cause other than a missing directory is tried once. -/
theorem makeAfter_of_error {makeParents : Tree → Except SystemError Unit × Tree} {route : Route}
    {mode : UInt32} {cause : SystemError}
    (failed : tree.makeDirectory here mode route = .error cause) (found : cause ≠ .notFound) :
    (makeAfter here mode route makeParents tree).2 = tree := by
  unfold makeAfter
  split
  · rename_i made
    cases failed.symm.trans made
  · rename_i missing
    cases failed.symm.trans missing
    exact absurd rfl found
  · split <;> rfl

/-- Above whatever is in a tree there is something at every place. -/
theorem Rooted.get?_above (rooted : tree.Rooted) {rest : Location}
    (there : tree.get? (base ++ rest) = some entry) : ∃ held, tree.get? base = some held := by
  by_cases bare : rest = []
  · rw [bare, List.append_nil] at there
    exact ⟨entry, there⟩
  · rcases rooted.hasDirectory_above bare (there ▸ Option.some_ne_none entry) with ⟨held, above, _⟩
    exact ⟨held, above⟩

section Blocked

variable (rooted : tree.Rooted)

include rooted

/-- Nothing is missing on the way to a file.  The induction is on the steps, of which the file may
be any or lie behind the last. -/
theorem walk_toward {rest beyond : List String} (there : tree.get? (base ++ rest) = some entry)
    (file : entry.isDirectory = false) (free : .parent ∉ steps)
    (toward : rest <+: steps.flatMap Component.names ++ beyond) :
    (∃ reached held, tree.walk base steps = .ok reached ∧ tree.get? reached = some held) ∨
      ∃ cause, cause ≠ .notFound ∧ tree.walk base steps = .error cause := by
  induction steps generalizing base rest with
  | nil =>
      rcases rooted.get?_above there with ⟨held, above⟩
      exact .inl ⟨base, held, rfl, above⟩
  | cons component others ih =>
      have onward : .parent ∉ others := fun member => free (List.mem_cons_of_mem _ member)
      rw [walk_cons]
      by_cases stands : tree.HasDirectory base
      · cases component with
        | parent => exact absurd List.mem_cons_self free
        | current =>
            rw [step_current stands]
            exact ih there onward toward
        | name name =>
            rw [step_name stands]
            split
            · cases rest with
              | nil =>
                  rw [List.append_nil] at there
                  cases file.symm.trans (stands.isDirectory_of_get? there)
              | cons first later =>
                  rw [List.flatMap_cons, Component.names, List.singleton_append, List.cons_append,
                    List.cons_prefix_cons] at toward
                  rcases toward with ⟨rfl, toward⟩
                  rw [List.append_cons] at there
                  rcases rooted.get?_above there with ⟨held, above⟩
                  rw [above, Option.elim_some]
                  exact ih there onward toward
            · exact .inr ⟨_, by decide, rfl⟩
      · -- What is there is no directory, so the walk ends.
        rcases rooted.get?_above there with ⟨held, above⟩
        refine .inr ⟨.notDirectory, by decide, ?_⟩
        cases held with
        | directory mode user group => exact absurd ⟨_, above, rfl⟩ stands
        | file mode user group content =>
            simp only [step, above]
            rfl

/-- An attempt to make a directory at a file or below it finds nothing missing. -/
theorem makeDirectory_toward {absolute : Bool} {last : Component} {rest : List String}
    (there : tree.get? (origin here absolute ++ rest) = some entry)
    (file : entry.isDirectory = false) (free : .parent ∉ steps)
    (toward : rest <+: (steps ++ [last]).flatMap Component.names) (mode : UInt32) :
    tree.makeDirectory here mode ⟨absolute, steps ++ [last], false⟩ ≠ .error .notFound := by
  rw [names_concat] at toward
  rcases walk_toward rooted there file free toward with
    ⟨reached, held, walked, above⟩ | ⟨cause, ne, lost⟩
  · cases kind : held.isDirectory with
    | true =>
        rw [makeDirectory, approach_of_walk here walked above kind]
        cases last with
        | name name =>
            by_cases long : Route.maxNameSize < name.utf8ByteSize
            · simp [bind, Except.bind, look, long]
            · simp only [bind, Except.bind, look, long, if_false]
              split <;> simp
        | _ => simp [bind, Except.bind]
    | false =>
        rw [makeDirectory, approach_of_file here walked above kind]
        simp [bind, Except.bind]
  · rw [makeDirectory, approach_of_lost here lost]
    exact fun same => ne (Except.error.inj same)

/-- A file on the way to a place lies on the way from any base that is there. -/
theorem prefix_of_file {target : Location} (there : tree.get? location = some entry)
    (file : entry.isDirectory = false) (within : location <+: target) (below : base <+: target)
    (present : tree.get? base ≠ none) : base <+: location := by
  rcases List.prefix_or_prefix_of_prefix within below with ⟨rest, rfl⟩ | onto
  · cases rest with
    | nil => simp
    | cons name others =>
        have stands := rooted.hasDirectory_above (List.cons_ne_nil _ _) present
        cases file.symm.trans (stands.isDirectory_of_get? there)
  · exact onto

/-- A directory cannot be made at a file or below it, and nothing is made. -/
theorem createDirectories_blocked {path : Path} (descends : path.Descends)
    (inhabited : path.components ≠ []) (there : tree.get? location = some entry)
    (file : entry.isDirectory = false) (within : location <+: path.location here) (mode : UInt32) :
    ∃ cause, tree.createDirectories here path.text mode = (.error cause, tree) := by
  have below : origin here path.absolute <+: path.location here := List.prefix_append _ _
  have fails : (tree.createDirectories here path.text mode).1 ≠ .ok () := by
    intro done
    have admits := ((createDirectories_ok_iff descends inhabited tree here mode).1.mp done).2
    have onto := prefix_of_file rooted there file within below admits.begins.ne_none
    cases file.symm.trans (admits.free location entry ⟨onto, within⟩ there)
  have kept : (tree.createDirectories here path.text mode).2 = tree := by
    cases taken : Route.ofText path.text with
    | error cause =>
        rw [createDirectories, isEmpty_text_of_components descends inhabited,
          if_neg Bool.false_ne_true, taken]
    | ok route =>
        cases Route.ofText_text descends.read inhabited taken
        rcases createDirectories_text descends inhabited tree here mode taken with
          ⟨steps, last, free, unclimbed, names, run⟩
        rw [run] at fails ⊢
        cases held : tree.get? (origin here path.absolute) with
        | none =>
            have reversed : .parent ∉ steps.reverse := by
              rw [List.mem_reverse]
              exact free
            have parents : Grows (origin here path.absolute) tree
                (makeAll here mode path.absolute steps.reverse tree).2 :=
              makeAll_grows tree here mode reversed
            exact (makeAfter_grows free tree here mode unclimbed parents).1.begins held
        | some base =>
            rcases prefix_of_file rooted there file within below (held ▸ Option.some_ne_none base)
              with ⟨rest, rfl⟩
            have within := (List.prefix_append_right_inj _).mp within
            rw [names] at within
            have found := makeDirectory_toward rooted there file free within mode
            cases tried : tree.makeDirectory here mode
                ⟨path.absolute, steps ++ [last], false⟩ with
            | ok made =>
                rw [makeAfter, tried] at fails
                exact absurd rfl fails
            | error cause =>
                exact makeAfter_of_error tried fun same => found (same ▸ tried)
  cases outcome : tree.createDirectories here path.text mode with
  | mk result after =>
      rw [outcome] at fails kept
      cases result with
      | error cause => exact ⟨cause, congrArg (Prod.mk _) kept⟩
      | ok _ => exact absurd rfl fails

end Blocked
end Tree
end ExportVolumes
