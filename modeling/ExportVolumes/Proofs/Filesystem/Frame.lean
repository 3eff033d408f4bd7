import ExportVolumes.Filesystem.Calls
import ExportVolumes.Proofs.Filesystem.Way

namespace ExportVolumes

/-!
What a call leaves as it was.

A call on a name in a directory that is there is answered in one of a few ways, and each of them
changes the tree at that name only.  The statements about single calls end in what their answers
show (`Tree.answer_making`, `Tree.answer_removeTree`, `Tree.answer_rename`).
-/

namespace Tree

variable {tree : Tree} {here base location : Location} {name : String}

/-! ## Calls on a name in a directory -/

theorem LeadsTo.dropBelow_child (leads : tree.LeadsTo base) (name : String) :
    (tree.dropBelow (base ++ [name])).LeadsTo base := by
  intro above prior
  rcases leads above prior with ⟨entry, held, kind⟩
  refine ⟨entry, ?_, kind⟩
  rw [get?_dropBelow, if_neg, held]
  rintro ⟨under, _⟩
  have longer := (under.trans prior).length_le
  rw [List.length_append, List.length_singleton] at longer
  omega

theorem get?_of_look {found : Option Entry} (looked : tree.look location name = .ok found) :
    tree.get? (location ++ [name]) = found := by
  unfold look at looked
  split at looked
  · cases looked
  · exact Except.ok.inj looked

theorem replace_cases (tree : Tree) {origin goal : Location} (ne : origin ≠ goal) (entry : Entry)
    (held : Option Entry) :
    (∃ cause, tree.replace origin goal entry held = .error cause) ∨
      tree.replace origin goal entry held = .ok (tree.move origin goal) := by
  unfold replace
  rw [if_neg ne]
  repeat' split
  all_goals first
    | exact Or.inl ⟨_, rfl⟩
    | exact Or.inr rfl

section Child

variable (leads : tree.LeadsTo base)

include leads

theorem walk_parent (here : Location) (name : String) :
    tree.walk (start here (routeTo (base ++ [name])))
        (routeTo (base ++ [name])).steps.dropLast =
      if Fits base then .ok base else .error .nameTooLong := by
  have way := walk_top leads
  rw [routeTo, List.map_append, List.map_singleton, List.dropLast_concat]
  exact way

/-- A call that makes, moves or removes a name in a directory gets to that directory. -/
theorem approach_child (here : Location) (name : String) :
    ∃ directory, tree.get? base = some directory ∧ directory.isDirectory = true ∧
      tree.approach here (routeTo (base ++ [name])) =
        if Fits base then .ok (base, directory, some (.name name)) else .error .nameTooLong := by
  rcases leads base List.prefix_rfl with ⟨directory, held, kind⟩
  refine ⟨directory, held, kind, ?_⟩
  rw [approach, walk_parent leads]
  by_cases fits : Fits base
  · cases directory with
    | file => cases kind
    | directory mode user group =>
        simp [fits, bind, Except.bind, held, routeTo]
  · simp [fits, bind, Except.bind]

theorem find_child (here : Location) (name : String) :
    tree.find here (routeTo (base ++ [name])) =
      if Fits (base ++ [name]) then
        (tree.get? (base ++ [name])).elim (.error .notFound)
          (fun entry => .ok (base ++ [name], entry))
      else .error .nameTooLong := by
  have way := walk_top leads
  have last := step_name (leads base List.prefix_rfl) name
  have whole : tree.walk [] ((base ++ [name]).map .name) =
      (tree.walk [] (base.map .name)).bind (fun location => tree.step location (.name name)) := by
    rw [walk, List.map_append, List.foldlM_append, List.map_singleton, walk]
    congr 1
    funext location
    rw [List.foldlM_cons]
    cases tree.step location (.name name) <;> rfl
  rw [find]
  change (tree.walk [] ((base ++ [name]).map .name)).bind _ = _
  rw [whole, way]
  simp only [fits_append]
  by_cases fits : Fits base
  · simp only [fits, if_true, true_and, Except.bind, last]
    by_cases short : Fits [name]
    · cases held : tree.get? (base ++ [name]) with
      | none => simp [short]
      | some entry => simp [short, held, routeTo]
    · simp [short]
  · simp [fits, Except.bind]

/-- What looking for a name finds: an entry under the name, or a reason to fail. -/
theorem find_child_ok {here found : Location} {entry : Entry}
    (reached : tree.find here (routeTo (base ++ [name])) = .ok (found, entry)) :
    found = base ++ [name] ∧ tree.get? (base ++ [name]) = some entry := by
  rw [find_child leads] at reached
  split at reached
  · cases held : tree.get? (base ++ [name]) with
    | none =>
        rw [held] at reached
        cases reached
    | some other =>
        rw [held] at reached
        cases reached
        exact ⟨rfl, rfl⟩
  · cases reached

theorem hasDirectory_of_isDirectory {here : Location}
    (present : tree.isDirectory here (routeTo (base ++ [name])) = true) :
    tree.HasDirectory (base ++ [name]) := by
  unfold isDirectory at present
  split at present
  · rename_i found entry reached
    exact ⟨entry, (find_child_ok leads reached).2, present⟩
  · cases present

theorem makeDirectory_child (here : Location) (name : String) (mode : UInt32) :
    (∃ cause, cause ≠ .notFound ∧
        tree.makeDirectory here mode (routeTo (base ++ [name])) = .error cause) ∨
      ∃ entry, entry.isDirectory = true ∧
        tree.makeDirectory here mode (routeTo (base ++ [name])) =
          .ok (tree.set (base ++ [name]) entry) := by
  rcases approach_child leads here name with ⟨directory, _, _, approached⟩
  rw [makeDirectory, approached]
  by_cases fits : Fits base
  · by_cases long : Route.maxNameSize < name.utf8ByteSize
    · refine Or.inl ⟨.nameTooLong, by decide, ?_⟩
      simp [fits, bind, Except.bind, look, long]
    · cases held : tree.get? (base ++ [name]) with
      | some entry =>
          refine Or.inl ⟨.exists, by decide, ?_⟩
          simp [fits, bind, Except.bind, look, long, held]
      | none =>
          refine Or.inr ⟨directory.newDirectory mode, rfl, ?_⟩
          simp [fits, bind, Except.bind, look, long, held]
  · refine Or.inl ⟨.nameTooLong, by decide, ?_⟩
    simp [fits, bind, Except.bind]

/-- Making a directory finds it, makes it or changes nothing. -/
theorem createDirectories_pathTo (ordinary : ∀ other ∈ base ++ [name], Path.IsOrdinary other)
    (here : Location) (mode : UInt32) :
    (∃ cause, tree.createDirectories here (pathTo (base ++ [name])) mode = (.error cause, tree)) ∨
      (tree.HasDirectory (base ++ [name]) ∧
        tree.createDirectories here (pathTo (base ++ [name])) mode = (.ok (), tree)) ∨
      ∃ entry, entry.isDirectory = true ∧
        tree.createDirectories here (pathTo (base ++ [name])) mode =
          (.ok (), tree.set (base ++ [name]) entry) := by
  rw [createDirectories, isEmpty_pathTo, if_neg Bool.false_ne_true]
  rcases route_pathTo (by simp) ordinary with ⟨cause, _, refused⟩ | taken
  · rw [refused]
    exact Or.inl ⟨cause, rfl⟩
  · simp only [taken, makeAfter]
    rcases makeDirectory_child leads here name mode with
      ⟨cause, other, refused⟩ | ⟨entry, kind, made⟩
    · rw [refused]
      by_cases present : tree.isDirectory here (routeTo (base ++ [name])) = true
      · refine Or.inr (Or.inl ⟨hasDirectory_of_isDirectory leads present, ?_⟩)
        cases cause with
        | notFound => exact absurd rfl other
        | _ => exact if_pos present
      · refine Or.inl ⟨cause, ?_⟩
        cases cause with
        | notFound => exact absurd rfl other
        | _ => exact if_neg present
    · rw [made]
      exact Or.inr (Or.inr ⟨entry, kind, rfl⟩)

/-- What changes an entry changes the one that is there, or nothing. -/
theorem change_pathTo (ordinary : ∀ other ∈ base ++ [name], Path.IsOrdinary other)
    (here : Location) (change : Entry → Entry) :
    let changed : Except SystemError Tree := do
      let (location, entry) ← tree.find here (← Route.ofText (pathTo (base ++ [name])))
      return tree.set location (change entry)
    (∃ cause, changed = .error cause) ∨
      ∃ entry, tree.get? (base ++ [name]) = some entry ∧
        changed = .ok (tree.set (base ++ [name]) (change entry)) := by
  rcases route_pathTo (by simp) ordinary with ⟨cause, _, refused⟩ | taken
  · rw [refused]
    exact Or.inl ⟨cause, rfl⟩
  · rw [taken]
    cases reached : tree.find here (routeTo (base ++ [name])) with
    | error cause => exact Or.inl ⟨cause, by simp [bind, Except.bind, reached]⟩
    | ok found =>
        rcases found with ⟨location, entry⟩
        rcases find_child_ok leads reached with ⟨rfl, held⟩
        exact Or.inr ⟨entry, held, by simp [bind, Except.bind, reached, pure, Except.pure]⟩

theorem setMode_pathTo (ordinary : ∀ other ∈ base ++ [name], Path.IsOrdinary other)
    (here : Location) (mode : UInt32) :
    (∃ cause, tree.setMode here (pathTo (base ++ [name])) mode = .error cause) ∨
      ∃ entry, tree.get? (base ++ [name]) = some entry ∧
        tree.setMode here (pathTo (base ++ [name])) mode =
          .ok (tree.set (base ++ [name]) (entry.withMode mode)) :=
  change_pathTo leads ordinary here (Entry.withMode mode)

theorem setOwner_pathTo (ordinary : ∀ other ∈ base ++ [name], Path.IsOrdinary other)
    (here : Location) (user group : UInt32) :
    (∃ cause, tree.setOwner here (pathTo (base ++ [name])) user group = .error cause) ∨
      ∃ entry, tree.get? (base ++ [name]) = some entry ∧
        tree.setOwner here (pathTo (base ++ [name])) user group =
          .ok (tree.set (base ++ [name]) (entry.withOwner user group)) :=
  change_pathTo leads ordinary here (Entry.withOwner user group)

/-- Removing a directory takes it away with all that is below it, finds nothing there or
changes nothing. -/
theorem removeTree_pathTo (ordinary : ∀ other ∈ base ++ [name], Path.IsOrdinary other)
    (here : Location) :
    (∃ cause, tree.removeTree here (pathTo (base ++ [name])) = (.error cause, tree)) ∨
      (tree.get? (base ++ [name]) = none ∧
        tree.removeTree here (pathTo (base ++ [name])) = (.ok (), tree)) ∨
      (tree.HasDirectory (base ++ [name]) ∧
        tree.removeTree here (pathTo (base ++ [name])) = (.ok (), tree.drop (base ++ [name]))) := by
  rw [removeTree]
  rcases route_pathTo (by simp) ordinary with ⟨cause, other, refused⟩ | taken
  · rw [refused]
    cases cause with
    | notFound => exact absurd rfl other
    | _ => exact Or.inl ⟨_, rfl⟩
  · rw [taken]
    have found := find_child leads here name
    by_cases fits : Fits (base ++ [name])
    · rw [if_pos fits] at found
      cases held : tree.get? (base ++ [name]) with
      | none =>
          rw [held, Option.elim_none] at found
          refine Or.inr (Or.inl ⟨rfl, ?_⟩)
          simp only [found]
      | some entry =>
          rw [held, Option.elim_some] at found
          cases entry with
          | file =>
              simp only [found]
              exact Or.inl ⟨_, rfl⟩
          | directory mode user group =>
              -- All that is below goes first, and the directory itself in the tree without it.
              rcases approach_child (leads.dropBelow_child name) here name with
                ⟨_, _, _, approached⟩
              rw [if_pos (fits_append.mp fits).1] at approached
              have removed : (tree.dropBelow (base ++ [name])).removeDirectory here
                  (routeTo (base ++ [name])) = .ok (tree.drop (base ++ [name])) := by
                rw [removeDirectory, approached]
                simp [bind, Except.bind, drop_dropBelow]
              refine Or.inr (Or.inr ⟨⟨_, held, rfl⟩, ?_⟩)
              simp only [found, removed]
    · rw [if_neg fits] at found
      simp only [found]
      exact Or.inl ⟨_, rfl⟩

/-- Renaming beside moves what is there, or changes nothing. -/
theorem rename_pathTo {target : String} (ne : name ≠ target)
    (ordinary : ∀ other ∈ base ++ [name], Path.IsOrdinary other)
    (reserved : ∀ other ∈ base ++ [target], Path.IsOrdinary other) (here : Location) :
    (∃ cause, tree.rename here (pathTo (base ++ [name])) (pathTo (base ++ [target])) =
        .error cause) ∨
      (∃ entry, tree.get? (base ++ [name]) = some entry) ∧
        tree.rename here (pathTo (base ++ [name])) (pathTo (base ++ [target])) =
          .ok (tree.move (base ++ [name]) (base ++ [target])) := by
  rcases approach_child leads here name with ⟨directory, _, _, origin⟩
  rcases approach_child leads here target with ⟨_, _, _, goal⟩
  have apart : base ++ [name] ≠ base ++ [target] := by simpa using ne
  rw [rename]
  split
  · exact Or.inl ⟨_, rfl⟩
  · rcases route_pathTo (by simp) ordinary with ⟨cause, _, refused⟩ | taken
    · rw [refused]
      exact Or.inl ⟨cause, rfl⟩
    · by_cases fits : Fits base
      · rw [if_pos fits] at origin goal
        rcases route_pathTo (by simp) reserved with ⟨cause, _, refused⟩ | aimed
        · refine Or.inl ⟨cause, ?_⟩
          simp [bind, Except.bind, taken, origin, refused]
        · simp only [bind, Except.bind, taken, aimed, origin, goal]
          cases source : tree.look base name with
          | error cause => exact Or.inl ⟨cause, rfl⟩
          | ok found =>
              have held := get?_of_look source
              cases found with
              | none => exact Or.inl ⟨_, rfl⟩
              | some entry =>
                  cases tree.look base target with
                  | error cause => exact Or.inl ⟨cause, rfl⟩
                  | ok there =>
                      simp only
                      split
                      · exact Or.inl ⟨_, rfl⟩
                      · rcases replace_cases tree apart entry there with refused | moved
                        · exact Or.inl refused
                        · exact Or.inr ⟨⟨entry, held⟩, moved⟩
      · rw [if_neg fits] at origin
        refine Or.inl ⟨.nameTooLong, ?_⟩
        simp [bind, Except.bind, taken, origin]

/-! ## Answers -/

/-- A call that makes or changes the directory of a name changes nothing outside of it, and
leaves a directory where one was. -/
theorem answer_making (ordinary : ∀ other ∈ base ++ [name], Path.IsOrdinary other)
    (here : Location) {c : Call}
    (making : (∃ mode, c = .createDirectories (pathTo (base ++ [name])) mode) ∨
      (∃ mode, c = .setMode (pathTo (base ++ [name])) mode) ∨
        ∃ user group, c = .setOwner (pathTo (base ++ [name])) user group) :
    AgreeOutside [base ++ [name]] tree (tree.answer here c).2 ∧
      (tree.HasDirectory (base ++ [name]) →
        (tree.answer here c).2.HasDirectory (base ++ [name])) := by
  rcases making with ⟨mode, rfl⟩ | ⟨mode, rfl⟩ | ⟨user, group, rfl⟩
  · simp only [answer]
    rcases createDirectories_pathTo leads ordinary here mode with
      ⟨cause, refused⟩ | ⟨_, found⟩ | ⟨entry, kind, made⟩
    · rw [refused]
      exact ⟨.refl _ _, id⟩
    · rw [found]
      exact ⟨.refl _ _, id⟩
    · rw [made]
      exact ⟨.set _ _ _, fun _ => .set kind⟩
  · simp only [answer]
    rcases setMode_pathTo leads ordinary here mode with ⟨cause, refused⟩ | ⟨entry, held, changed⟩
    · rw [refused]
      exact ⟨.refl _ _, id⟩
    · rw [changed]
      refine ⟨.set _ _ _, fun present => .set ?_⟩
      rw [Entry.isDirectory_withMode]
      exact present.isDirectory_of_get? held
  · simp only [answer]
    rcases setOwner_pathTo leads ordinary here user group with
      ⟨cause, refused⟩ | ⟨entry, held, changed⟩
    · rw [refused]
      exact ⟨.refl _ _, id⟩
    · rw [changed]
      refine ⟨.set _ _ _, fun present => .set ?_⟩
      rw [Entry.isDirectory_withOwner]
      exact present.isDirectory_of_get? held

/-- Where making a directory succeeds there is one. -/
theorem hasDirectory_of_createDirectories
    (ordinary : ∀ other ∈ base ++ [name], Path.IsOrdinary other) (here : Location) {mode : UInt32}
    {found : Bool}
    (created : (tree.answer here (.createDirectories (pathTo (base ++ [name])) mode)).1 =
      .ok found) :
    (tree.answer here (.createDirectories (pathTo (base ++ [name])) mode)).2.HasDirectory
      (base ++ [name]) := by
  simp only [answer] at created ⊢
  rcases createDirectories_pathTo leads ordinary here mode with
    ⟨cause, refused⟩ | ⟨present, there⟩ | ⟨entry, kind, made⟩
  · rw [refused] at created
    cases created
  · rw [there]
    exact present
  · rw [made]
    exact .set kind

/-- Removing a directory changes nothing outside of it and nothing at all where there is none;
after a success there is none. -/
theorem answer_removeTree (ordinary : ∀ other ∈ base ++ [name], Path.IsOrdinary other)
    (here : Location) :
    let answered := tree.answer here (.removeTree (pathTo (base ++ [name])))
    AgreeOutside [base ++ [name]] tree answered.2 ∧
      (tree.get? (base ++ [name]) = none → answered.2 = tree) ∧
      (∀ found, answered.1 = .ok found → answered.2.get? (base ++ [name]) = none) ∧
      ∀ fault, answered.1 = .error fault → answered.2 = tree := by
  simp only [answer]
  rcases removeTree_pathTo leads ordinary here with
    ⟨cause, refused⟩ | ⟨absent, skipped⟩ | ⟨present, removed⟩
  · rw [refused]
    exact ⟨.refl _ _, fun _ => rfl, (fun _ failed => by cases failed), fun _ _ => rfl⟩
  · rw [skipped]
    exact ⟨.refl _ _, fun _ => rfl, fun _ _ => absent, fun _ _ => rfl⟩
  · rw [removed]
    refine ⟨.drop _ _, fun absent => ?_, fun _ _ => ?_, (fun _ failed => by cases failed)⟩
    · rcases present with ⟨entry, held, _⟩
      rw [absent] at held
      cases held
    · rw [get?_drop, if_pos List.prefix_rfl]

/-- Renaming beside moves what is there, or changes nothing. -/
theorem answer_rename {target : String} (ne : name ≠ target)
    (ordinary : ∀ other ∈ base ++ [name], Path.IsOrdinary other)
    (reserved : ∀ other ∈ base ++ [target], Path.IsOrdinary other) (here : Location) :
    let answered := tree.answer here
      (.rename (pathTo (base ++ [name])) (pathTo (base ++ [target])))
    (∃ fault, answered = (.error fault, tree)) ∨
      (∃ entry, tree.get? (base ++ [name]) = some entry) ∧
        answered = (.ok true, tree.move (base ++ [name]) (base ++ [target])) := by
  simp only [answer]
  rcases rename_pathTo leads ne ordinary reserved here with ⟨cause, refused⟩ | ⟨present, moved⟩
  · rw [refused]
    exact Or.inl ⟨_, rfl⟩
  · rw [moved]
    exact Or.inr ⟨present, rfl⟩

end Child

end Tree
end ExportVolumes
