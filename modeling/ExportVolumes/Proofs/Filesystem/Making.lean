import ExportVolumes.Proofs.Filesystem.Rename
import ExportVolumes.Proofs.Filesystem.Way

namespace ExportVolumes

/-!
Making a directory and all that is missing above it.

The directories on the way from a base to a target are there, or nothing is in their place, or a
file is in the way.  Making them succeeds exactly if the way begins at a directory, no file is in it
and no name is too long (`Tree.createDirectories_ok_iff`).  Then what was there is kept, and each
missing directory is made in the one above it (`Tree.Made`).
-/

namespace Tree

variable {tree before mid after : Tree} {here base location target : Location}
  {names : List String} {steps : List Component}

theorem HasDirectory.ne_none (present : tree.HasDirectory location) :
    tree.get? location ≠ none := by
  rcases present with ⟨entry, held, _⟩
  rw [held]
  exact Option.some_ne_none entry

/-- What is put where nothing was leaves all that was there. -/
theorem get?_set_of_missing {other : Location} {entry kept : Entry}
    (missing : tree.get? location = none) (there : tree.get? other = some kept) :
    (tree.set location entry).get? other = some kept := by
  rw [get?_set, if_neg, there]
  rintro rfl
  rw [missing] at there
  cases there

theorem free_concat {last : Component} (free : .parent ∉ steps) (unclimbed : last ≠ .parent) :
    .parent ∉ steps ++ [last] := by
  rw [List.mem_append, List.mem_singleton]
  exact not_or.mpr ⟨free, unclimbed.symm⟩

theorem names_concat (steps : List Component) (last : Component) :
    (steps ++ [last]).flatMap Component.names = steps.flatMap Component.names ++ last.names := by
  rw [List.flatMap_append, List.flatMap_singleton]

/-! ## Ways -/

/-- Where a route begins that is absolute or not. -/
def origin (here : Location) (absolute : Bool) : Location :=
  if absolute then [] else here

/-- A location is on the way from a base to a target. -/
def OnWay (base target location : Location) : Prop :=
  base <+: location ∧ location <+: target

/-- All directories on the way are there. -/
def Complete (tree : Tree) (base target : Location) : Prop :=
  ∀ location, OnWay base target location → tree.HasDirectory location

/-- The directories that are missing on the way can be made. -/
structure Admits (tree : Tree) (base : Location) (names : List String) : Prop where
  begins : tree.HasDirectory base
  fits : Fits names
  free : ∀ location entry, OnWay base (base ++ names) location →
    tree.get? location = some entry → entry.isDirectory = true

theorem onWay_cons {name : String} {rest : List String} :
    OnWay base (base ++ name :: rest) location ↔
      location = base ∨ OnWay (base ++ [name]) ((base ++ [name]) ++ rest) location := by
  have onward : base ++ name :: rest = (base ++ [name]) ++ rest := by simp
  constructor
  · rintro ⟨⟨beyond, rfl⟩, within⟩
    rw [List.prefix_append_right_inj] at within
    cases beyond with
    | nil => exact .inl (List.append_nil base)
    | cons first others =>
        rw [List.cons_prefix_cons] at within
        rcases within with ⟨rfl, within⟩
        refine .inr ⟨?_, ?_⟩
        · rw [List.prefix_append_right_inj, List.cons_prefix_cons]
          exact ⟨rfl, List.nil_prefix⟩
        · rw [← onward, List.prefix_append_right_inj, List.cons_prefix_cons]
          exact ⟨rfl, within⟩
  · rintro (rfl | ⟨begins, within⟩)
    · exact ⟨List.prefix_rfl, List.prefix_append _ _⟩
    · exact ⟨(List.prefix_append base [name]).trans begins, onward ▸ within⟩

theorem onWay_self : OnWay base (base ++ []) location ↔ location = base := by
  rw [List.append_nil]
  constructor
  · rintro ⟨begins, within⟩
    exact within.eq_of_length_le begins.length_le
  · rintro rfl
    exact ⟨List.prefix_rfl, List.prefix_rfl⟩

theorem onWay_concat {name : String} (begins : base <+: target) :
    OnWay base (target ++ [name]) location ↔
      OnWay base target location ∨ location = target ++ [name] := by
  constructor
  · rintro ⟨above, within⟩
    rcases List.prefix_concat_iff.mp within with whole | within
    · exact .inr whole
    · exact .inl ⟨above, within⟩
  · rintro (⟨above, within⟩ | rfl)
    · exact ⟨above, within.trans (List.prefix_append _ _)⟩
    · exact ⟨begins.trans (List.prefix_append _ _), List.prefix_rfl⟩

theorem Complete.admits (complete : tree.Complete base (base ++ names)) (fits : Fits names) :
    tree.Admits base names where
  begins := complete base ⟨List.prefix_rfl, List.prefix_append _ _⟩
  fits := fits
  free location _ onWay held := (complete location onWay).isDirectory_of_get? held

/-! ## Following a way -/

/-- A way that can be completed is followed to its end, or to where something is missing. -/
theorem walk_of_admits (free : .parent ∉ steps)
    (admits : tree.Admits base (steps.flatMap Component.names)) :
    tree.walk base steps = .ok (base ++ steps.flatMap Component.names) ∧
        tree.Complete base (base ++ steps.flatMap Component.names) ∨
      tree.walk base steps = .error .notFound ∧
        ¬tree.Complete base (base ++ steps.flatMap Component.names) := by
  induction steps generalizing base with
  | nil =>
      refine .inl ⟨by rw [List.flatMap_nil, List.append_nil]; rfl, fun location onWay => ?_⟩
      rw [onWay_self.mp onWay]
      exact admits.begins
  | cons component rest ih =>
      have onward : .parent ∉ rest := fun member => free (List.mem_cons_of_mem _ member)
      rw [walk_cons]
      cases component with
      | parent => exact absurd List.mem_cons_self free
      | current =>
          rw [step_current admits.begins]
          exact ih onward admits
      | name name =>
          have named : (Component.name name :: rest).flatMap Component.names =
              name :: rest.flatMap Component.names := rfl
          rw [named] at admits ⊢
          have fits : Fits [name] ∧ Fits (rest.flatMap Component.names) :=
            fits_append.mp admits.fits
          rw [step_name admits.begins, if_pos fits.1]
          have next : OnWay base (base ++ name :: rest.flatMap Component.names) (base ++ [name]) :=
            onWay_cons.mpr (.inr ⟨List.prefix_rfl, List.prefix_append _ _⟩)
          cases held : tree.get? (base ++ [name]) with
          | none =>
              exact .inr ⟨rfl, fun complete => absurd held (complete _ next).ne_none⟩
          | some entry =>
              have kind := admits.free _ _ next held
              have later := ih onward
                { begins := ⟨entry, held, kind⟩
                  fits := fits.2
                  free := fun location entry onWay there =>
                    admits.free location entry (onWay_cons.mpr (.inr onWay)) there }
              have same : tree.Complete base (base ++ name :: rest.flatMap Component.names) ↔
                  tree.Complete (base ++ [name])
                    ((base ++ [name]) ++ rest.flatMap Component.names) := by
                constructor
                · intro complete location onWay
                  exact complete location (onWay_cons.mpr (.inr onWay))
                · intro complete location onWay
                  rcases onWay_cons.mp onWay with rfl | onWay
                  · exact admits.begins
                  · exact complete location onWay
              rw [same, List.append_cons base name (rest.flatMap Component.names)]
              exact later

/-- A way that is followed to a directory is complete, and its names are not too long. -/
theorem complete_of_walk (free : .parent ∉ steps) (walked : tree.walk base steps = .ok location)
    (ends : tree.HasDirectory location) :
    tree.Complete base (base ++ steps.flatMap Component.names) ∧
      Fits (steps.flatMap Component.names) := by
  induction steps generalizing base with
  | nil =>
      cases walked
      refine ⟨fun location onWay => ?_, fun _ member => by cases member⟩
      rw [onWay_self.mp onWay]
      exact ends
  | cons component rest ih =>
      have onward : .parent ∉ rest := fun member => free (List.mem_cons_of_mem _ member)
      rw [walk_cons] at walked
      cases stepped : tree.step base component with
      | error cause =>
          rw [stepped] at walked
          cases walked
      | ok next =>
          rw [stepped] at walked
          rcases ih onward walked with ⟨complete, fits⟩
          have begins : tree.HasDirectory base := by
            unfold step at stepped
            split at stepped
            · cases stepped
            · cases stepped
            · rename_i held
              exact ⟨_, held, rfl⟩
          cases component with
          | parent => exact absurd List.mem_cons_self free
          | current =>
              have same : next = base := (step_ok (by decide) stepped).trans (List.append_nil base)
              rw [same] at complete
              exact ⟨complete, fits⟩
          | name name =>
              have led := step_ok (by simp) stepped
              rw [step_name begins] at stepped
              split at stepped
              · rename_i short
                rw [led, Component.names] at complete
                refine ⟨fun location onWay => ?_, ?_⟩
                · rcases onWay_cons.mp onWay with rfl | onWay
                  · exact begins
                  · exact complete location onWay
                · exact fits_append.mpr ⟨short, fits⟩
              · cases stepped

/-! ## One directory -/

section Last

variable {absolute : Bool} {last : Component}

theorem walk_front (tree : Tree) (here : Location) (absolute : Bool) (steps : List Component)
    (last : Component) :
    tree.walk (start here ⟨absolute, steps ++ [last], false⟩) (steps ++ [last]).dropLast =
      tree.walk (origin here absolute) steps := by
  rw [List.dropLast_concat]
  rfl

theorem approach_of_walk (here : Location)
    (walked : tree.walk (origin here absolute) steps = .ok location)
    {directory : Entry} (held : tree.get? location = some directory)
    (kind : directory.isDirectory = true) :
    tree.approach here ⟨absolute, steps ++ [last], false⟩ =
      .ok (location, directory, some last) := by
  cases directory with
  | file => cases kind
  | directory mode user group =>
      rw [approach, walk_front, walked]
      simp [bind, Except.bind, held]

theorem approach_of_file (here : Location)
    (walked : tree.walk (origin here absolute) steps = .ok location)
    {file : Entry} (held : tree.get? location = some file) (kind : file.isDirectory = false) :
    tree.approach here ⟨absolute, steps ++ [last], false⟩ = .error .notDirectory := by
  cases file with
  | directory mode user group => cases kind
  | file mode user group content =>
      rw [approach, walk_front, walked]
      simp [bind, Except.bind, held]

theorem approach_of_lost {cause : SystemError} (here : Location)
    (lost : tree.walk (origin here absolute) steps = .error cause) :
    tree.approach here ⟨absolute, steps ++ [last], false⟩ = .error cause := by
  rw [approach, walk_front, lost]
  rfl

variable (free : .parent ∉ steps)

include free

/-- What is approached is the last directory of a complete way. -/
theorem complete_of_approach {directory : Entry} {ending : Option Component}
    (approached : tree.approach here ⟨absolute, steps ++ [last], false⟩ =
      .ok (location, directory, ending)) :
    location = origin here absolute ++ steps.flatMap Component.names ∧
      tree.get? location = some directory ∧ ending = some last ∧
      tree.Complete (origin here absolute) location ∧
      Fits (steps.flatMap Component.names) := by
  rw [approach, bind_eq_ok_iff] at approached
  rcases approached with ⟨found, walked, ended⟩
  rw [List.dropLast_concat] at walked
  have leads : found = origin here absolute ++ steps.flatMap Component.names :=
    walk_ok free walked
  cases held : tree.get? found with
  | none =>
      rw [held] at ended
      cases ended
  | some entry =>
      rw [held] at ended
      cases entry with
      | file => cases ended
      | directory mode user group =>
          cases ended
          rcases complete_of_walk free walked ⟨_, held, rfl⟩ with ⟨complete, fits⟩
          exact ⟨leads, held, List.getLast?_concat, leads ▸ complete, fits⟩

/-- Where the way to it is complete, a directory is there or is made in the one above it. -/
theorem makeDirectory_of_complete (here : Location) (mode : UInt32) (unclimbed : last ≠ .parent)
    (complete : tree.Complete (origin here absolute)
      (origin here absolute ++ steps.flatMap Component.names))
    (admits : tree.Admits (origin here absolute) ((steps ++ [last]).flatMap Component.names)) :
    (tree.makeDirectory here mode ⟨absolute, steps ++ [last], false⟩ = .error .exists ∧
        tree.Complete (origin here absolute)
          (origin here absolute ++ (steps ++ [last]).flatMap Component.names)) ∨
      ∃ name directory, last = .name name ∧
        tree.get? (origin here absolute ++ steps.flatMap Component.names) = some directory ∧
        tree.get? (origin here absolute ++ steps.flatMap Component.names ++ [name]) = none ∧
        tree.makeDirectory here mode ⟨absolute, steps ++ [last], false⟩ =
          .ok (tree.set (origin here absolute ++ steps.flatMap Component.names ++ [name])
            (directory.newDirectory mode)) := by
  rw [names_concat] at admits ⊢
  have fits := fits_append.mp admits.fits
  have walked : tree.walk (origin here absolute) steps =
      .ok (origin here absolute ++ steps.flatMap Component.names) := by
    rcases walk_of_admits free (complete.admits fits.1) with ⟨walked, _⟩ | ⟨_, incomplete⟩
    · exact walked
    · exact absurd complete incomplete
  rcases complete _ ⟨List.prefix_append _ _, List.prefix_rfl⟩ with ⟨directory, held, kind⟩
  have approached : tree.approach here ⟨absolute, steps ++ [last], false⟩ = _ :=
    approach_of_walk here walked held kind
  rw [makeDirectory, approached]
  cases last with
  | parent => exact absurd rfl unclimbed
  | current =>
      have stays : steps.flatMap Component.names ++ Component.current.names =
          steps.flatMap Component.names := List.append_nil _
      rw [stays]
      exact .inl ⟨rfl, complete⟩
  | name name =>
      have short := fits_singleton.mp fits.2
      have ends : steps.flatMap Component.names ++ (Component.name name).names =
          steps.flatMap Component.names ++ [name] := rfl
      rw [ends, ← List.append_assoc]
      cases there : tree.get?
          (origin here absolute ++ steps.flatMap Component.names ++ [name]) with
      | some entry =>
          refine .inl ⟨by simp only [bind, Except.bind, look, if_neg short, there], ?_⟩
          intro location onWay
          rcases (onWay_concat (List.prefix_append _ _)).mp onWay with onWay | rfl
          · exact complete location onWay
          · rw [ends] at admits
            have reaches : origin here absolute ++ steps.flatMap Component.names ++ [name] <+:
                origin here absolute ++ (steps.flatMap Component.names ++ [name]) :=
              ⟨[], by rw [List.append_nil, List.append_assoc]⟩
            exact ⟨entry, there, admits.free _ entry ⟨onWay.1, reaches⟩ there⟩
      | none =>
          refine .inr ⟨name, directory, rfl, held, there, ?_⟩
          simp only [bind, Except.bind, look, if_neg short, there]

omit free in
theorem isDirectory_of_complete (here : Location) (free : .parent ∉ steps)
    (complete : tree.Complete (origin here absolute)
      (origin here absolute ++ steps.flatMap Component.names))
    (fits : Fits (steps.flatMap Component.names)) :
    tree.isDirectory here ⟨absolute, steps, false⟩ = true := by
  rcases complete _ ⟨List.prefix_append _ _, List.prefix_rfl⟩ with ⟨entry, held, kind⟩
  rcases walk_of_admits free (complete.admits fits) with ⟨walked, _⟩ | ⟨_, incomplete⟩
  · have found : tree.find here ⟨absolute, steps, false⟩ =
        .ok (origin here absolute ++ steps.flatMap Component.names, entry) := by
      rw [find]
      change (tree.walk (origin here absolute) steps).bind _ = _
      simp only [walked, Except.bind, held, Bool.false_and, Bool.false_eq_true, if_false]
    rw [isDirectory, found]
    exact kind
  · exact absurd complete incomplete

end Last

/-! ## All that is missing -/

/-- What a tree holds after the missing directories on a way were made. -/
structure Made (mode : UInt32) (base target : Location) (before after : Tree) : Prop where
  held : ∀ location entry, before.get? location = some entry → after.get? location = some entry
  outside : ∀ location, ¬OnWay base target location → after.get? location = before.get? location
  made : ∀ location name, OnWay base target (location ++ [name]) → base <+: location →
    before.get? (location ++ [name]) = none → ∃ above, after.get? location = some above ∧
      after.get? (location ++ [name]) = some (above.newDirectory mode)
  complete : after.Complete base target

namespace Made

variable {mode : UInt32}

/-- A way that is complete needs nothing to be made. -/
theorem refl (mode : UInt32) (complete : tree.Complete base target) :
    Made mode base target tree tree where
  held _ _ there := there
  outside _ _ := rfl
  made location name onWay _ missing := by
    exact absurd missing (complete _ onWay).ne_none
  complete := complete

/-- The last directory of a way is made in the one above it. -/
theorem single {name : String} {directory : Entry} (begins : base <+: target)
    (complete : tree.Complete base target) (above : tree.get? target = some directory)
    (missing : tree.get? (target ++ [name]) = none) :
    Made mode base (target ++ [name]) tree
      (tree.set (target ++ [name]) (directory.newDirectory mode)) := by
  have ne : target ≠ target ++ [name] := by simp
  constructor
  case held =>
    exact fun location entry there => get?_set_of_missing missing there
  case outside =>
    intro location outside
    rw [get?_set, if_neg]
    rintro rfl
    exact outside ((onWay_concat begins).mpr (.inr rfl))
  case made =>
    intro location other onWay _ absent
    rcases (onWay_concat begins).mp onWay with onWay | same
    · exact absurd absent (complete _ onWay).ne_none
    · rcases List.append_inj' same rfl with ⟨rfl, ends⟩
      rw [same, get?_set, if_neg ne, get?_set, if_pos rfl]
      exact ⟨directory, above, rfl⟩
  case complete =>
    intro location onWay
    rcases (onWay_concat begins).mp onWay with onWay | rfl
    · rcases complete _ onWay with ⟨entry, held, kind⟩
      exact ⟨entry, get?_set_of_missing missing held, kind⟩
    · exact .set rfl

theorem trans {further : Location} (onward : target <+: further)
    (first : Made mode base target before mid) (second : Made mode base further mid after) :
    Made mode base further before after where
  held location entry there := second.held _ _ (first.held _ _ there)
  outside location outside := by
    rw [second.outside location outside, first.outside]
    exact fun onWay => outside ⟨onWay.1, onWay.2.trans onward⟩
  made location name onWay begins missing := by
    by_cases earlier : OnWay base target (location ++ [name])
    · rcases first.made location name earlier begins missing with ⟨above, there, made⟩
      exact ⟨above, second.held _ _ there, second.held _ _ made⟩
    · refine second.made location name onWay begins ?_
      rw [first.outside _ earlier, missing]
  complete := second.complete

end Made

theorem Admits.of_made {mode : UInt32} (admits : before.Admits base names)
    (made : Made mode base target before mid) : mid.Admits base names where
  begins := by
    rcases admits.begins with ⟨entry, held, kind⟩
    exact ⟨entry, made.held _ _ held, kind⟩
  fits := admits.fits
  free location entry onWay there := by
    by_cases within : OnWay base target location
    · exact (made.complete _ within).isDirectory_of_get? there
    · exact admits.free _ _ onWay ((made.outside _ within).symm.trans there)

/-- The names of the steps before the last one are the first of all names. -/
theorem Admits.front {steps : List Component} {last : Component}
    (admits : tree.Admits base ((steps ++ [last]).flatMap Component.names)) :
    tree.Admits base (steps.flatMap Component.names) := by
  rw [names_concat] at admits
  refine ⟨admits.begins, (fits_append.mp admits.fits).1, fun location entry onWay there => ?_⟩
  refine admits.free location entry ⟨onWay.1, onWay.2.trans ?_⟩ there
  rw [← List.append_assoc]
  exact List.prefix_append _ _

section Making

variable {absolute : Bool} {last : Component} {mode : UInt32}

/-- With all directories above it there, the last directory is there or is made. -/
theorem makeDirectory_made (here : Location) (mode : UInt32) (free : .parent ∉ steps)
    (unclimbed : last ≠ .parent)
    (complete : tree.Complete (origin here absolute)
      (origin here absolute ++ steps.flatMap Component.names))
    (admits : tree.Admits (origin here absolute) ((steps ++ [last]).flatMap Component.names)) :
    (∃ made, tree.makeDirectory here mode ⟨absolute, steps ++ [last], false⟩ = .ok made ∧
        Made mode (origin here absolute)
          (origin here absolute ++ (steps ++ [last]).flatMap Component.names) tree made) ∨
      tree.makeDirectory here mode ⟨absolute, steps ++ [last], false⟩ = .error .exists ∧
        tree.isDirectory here ⟨absolute, steps ++ [last], false⟩ = true ∧
        Made mode (origin here absolute)
          (origin here absolute ++ (steps ++ [last]).flatMap Component.names) tree tree := by
  rcases makeDirectory_of_complete free here mode unclimbed complete admits with
    ⟨there, whole⟩ | ⟨name, directory, rfl, above, missing, made⟩
  · exact .inr ⟨there, isDirectory_of_complete here (free_concat free unclimbed) whole admits.fits,
      .refl mode whole⟩
  · refine .inl ⟨_, made, ?_⟩
    rw [names_concat, ← List.append_assoc]
    exact .single (List.prefix_append _ _) complete above missing

/-- A directory is made after the missing ones above it. -/
theorem makeAfter_of_admits {makeParents : Tree → Except SystemError Unit × Tree} (here : Location)
    (free : .parent ∉ steps) (unclimbed : last ≠ .parent)
    (admits : tree.Admits (origin here absolute) ((steps ++ [last]).flatMap Component.names))
    (parents : ∃ made, makeParents tree = (.ok (), made) ∧ Made mode (origin here absolute)
      (origin here absolute ++ steps.flatMap Component.names) tree made) :
    ∃ made, makeAfter here mode ⟨absolute, steps ++ [last], false⟩ makeParents tree =
        (.ok (), made) ∧
      Made mode (origin here absolute)
        (origin here absolute ++ (steps ++ [last]).flatMap Component.names) tree made := by
  have onward : origin here absolute ++ steps.flatMap Component.names <+:
      origin here absolute ++ (steps ++ [last]).flatMap Component.names := by
    rw [names_concat, ← List.append_assoc]
    exact List.prefix_append _ _
  rcases walk_of_admits free admits.front with ⟨_, complete⟩ | ⟨lost, _⟩
  · rcases makeDirectory_made here mode free unclimbed complete admits with
      ⟨made, done, changed⟩ | ⟨there, present, kept⟩
    · rw [makeAfter, done]
      exact ⟨made, rfl, changed⟩
    · rw [makeAfter, there]
      simp only [present, if_true]
      exact ⟨tree, rfl, kept⟩
  · rcases parents with ⟨mid, parentsDone, first⟩
    have missing : tree.makeDirectory here mode ⟨absolute, steps ++ [last], false⟩ =
        .error .notFound := by
      rw [makeDirectory, approach_of_lost here lost]
      rfl
    rw [makeAfter, missing]
    simp only [parentsDone]
    rcases makeDirectory_made here mode free unclimbed first.complete (admits.of_made first) with
      ⟨made, done, second⟩ | ⟨there, present, kept⟩
    · rw [done]
      exact ⟨made, rfl, first.trans onward second⟩
    · rw [there]
      simp only [present, if_true]
      exact ⟨mid, rfl, first.trans onward kept⟩

/-- The directories of a way are made one after the other.  The induction is on the steps from the
last one. -/
theorem makeAll_of_admits (here : Location) (mode : UInt32) {reversed : List Component}
    (free : .parent ∉ reversed)
    (admits : tree.Admits (origin here absolute) (reversed.reverse.flatMap Component.names)) :
    ∃ made, makeAll here mode absolute reversed tree = (.ok (), made) ∧
      Made mode (origin here absolute)
        (origin here absolute ++ reversed.reverse.flatMap Component.names) tree made := by
  induction reversed generalizing tree with
  | nil =>
      refine ⟨tree, rfl, .refl mode fun location onWay => ?_⟩
      rw [onWay_self.mp onWay]
      exact admits.begins
  | cons last others ih =>
      rw [List.mem_cons, not_or] at free
      rw [List.reverse_cons] at admits ⊢
      rw [makeAll, List.reverse_cons]
      refine makeAfter_of_admits here ?_ (Ne.symm free.1) admits (ih free.2 admits.front)
      rw [List.mem_reverse]
      exact free.2

/-! ## Nothing is made in vain -/

/-- Only what is missing is added, and nothing where the base is missing. -/
structure Grows (base : Location) (before after : Tree) : Prop where
  held : ∀ location entry, before.get? location = some entry → after.get? location = some entry
  begins : before.get? base = none → after = before

theorem Grows.refl (base : Location) (tree : Tree) : Grows base tree tree where
  held _ _ there := there
  begins _ := rfl

theorem Grows.trans (first : Grows base before mid) (second : Grows base mid after) :
    Grows base before after where
  held location entry there := second.held _ _ (first.held _ _ there)
  begins missing := by
    have same := first.begins missing
    rw [second.begins (same ▸ missing), same]

/-- What can be made after something was added could be made before. -/
theorem Admits.of_grows (admits : after.Admits base names) (grows : Grows base before after) :
    before.Admits base names where
  begins := by
    rcases admits.begins with ⟨entry, held, kind⟩
    cases there : before.get? base with
    | none =>
        rw [grows.begins there, there] at held
        cases held
    | some other =>
        have same := grows.held _ _ there
        rw [held] at same
        exact ⟨other, there, Option.some.inj same ▸ kind⟩
  fits := admits.fits
  free location entry onWay there := admits.free _ _ onWay (grows.held _ _ there)

variable (free : .parent ∉ steps)

include free

/-- Where a directory was made, it could be made. -/
theorem admits_of_makeDirectory {made : Tree} (unclimbed : last ≠ .parent)
    (done : tree.makeDirectory here mode ⟨absolute, steps ++ [last], false⟩ = .ok made) :
    tree.Admits (origin here absolute) ((steps ++ [last]).flatMap Component.names) ∧
      Grows (origin here absolute) tree made := by
  rw [makeDirectory, bind_eq_ok_iff] at done
  rcases done with ⟨⟨location, directory, ending⟩, approached, done⟩
  rcases complete_of_approach free approached with ⟨leads, held, rfl, complete, fits⟩
  cases last with
  | parent => exact absurd rfl unclimbed
  | current => cases done
  | name name =>
      simp only at done
      rw [bind_eq_ok_iff] at done
      rcases done with ⟨found, looked, done⟩
      cases found with
      | some entry => cases done
      | none =>
          unfold look at looked
          split at looked
          · cases looked
          · rename_i short
            have missing := Except.ok.inj looked
            cases done
            have begins : tree.HasDirectory (origin here absolute) :=
              complete _ ⟨List.prefix_rfl, leads ▸ List.prefix_append _ _⟩
            rw [names_concat]
            refine ⟨⟨begins, fits_append.mpr ⟨fits, fits_singleton.mpr short⟩, ?_⟩, ?_, ?_⟩
            · intro above entry onWay there
              rw [← List.append_assoc, ← leads] at onWay
              rcases (onWay_concat (leads ▸ List.prefix_append _ _)).mp onWay with onWay | rfl
              · exact (complete _ onWay).isDirectory_of_get? there
              · rw [missing] at there
                cases there
            · exact fun above entry there => get?_set_of_missing missing there
            · exact fun absent => absurd absent begins.ne_none

/-- Where there is a directory, it could be made. -/
theorem admits_of_isDirectory (present : tree.isDirectory here ⟨absolute, steps, false⟩ = true) :
    tree.Admits (origin here absolute) (steps.flatMap Component.names) := by
  unfold isDirectory at present
  split at present
  · rename_i location entry found
    rw [find, bind_eq_ok_iff] at found
    rcases found with ⟨reached, walked, found⟩
    cases held : tree.get? reached with
    | none =>
        rw [held] at found
        cases found
    | some other =>
        simp only [held, Bool.false_and, Bool.false_eq_true, if_false] at found
        cases found
        rcases complete_of_walk free walked ⟨_, held, present⟩ with ⟨complete, fits⟩
        exact complete.admits fits
  · cases present

/-- Making a directory after those above it adds to the tree, and succeeds only where it can. -/
theorem makeAfter_grows {makeParents : Tree → Except SystemError Unit × Tree} (tree : Tree)
    (here : Location) (mode : UInt32) (unclimbed : last ≠ .parent)
    (parents : Grows (origin here absolute) tree (makeParents tree).2) :
    Grows (origin here absolute) tree
        (makeAfter here mode ⟨absolute, steps ++ [last], false⟩ makeParents tree).2 ∧
      ((makeAfter here mode ⟨absolute, steps ++ [last], false⟩ makeParents tree).1 = .ok () →
        tree.Admits (origin here absolute) ((steps ++ [last]).flatMap Component.names)) := by
  have freeAll := free_concat free unclimbed
  have settled : ∀ (mid : Tree) (cause : SystemError),
      Grows (origin here absolute) tree mid →
      let route : Route := ⟨absolute, steps ++ [last], false⟩
      let result : Except SystemError Unit × Tree :=
        if mid.isDirectory here route then (.ok (), mid) else (.error cause, mid)
      Grows (origin here absolute) tree result.2 ∧
        (result.1 = .ok () →
          tree.Admits (origin here absolute) ((steps ++ [last]).flatMap Component.names)) := by
    intro mid cause grows
    by_cases present : mid.isDirectory here ⟨absolute, steps ++ [last], false⟩ = true
    · simp only [present, if_true]
      exact ⟨grows, fun _ => (admits_of_isDirectory freeAll present).of_grows grows⟩
    · simp only [present]
      exact ⟨grows, fun done => by cases done⟩
  unfold makeAfter
  split
  · rename_i made done
    rcases admits_of_makeDirectory free unclimbed done with ⟨admits, grows⟩
    exact ⟨grows, fun _ => admits⟩
  · split
    · rename_i mid failed
      rw [failed] at parents
      exact ⟨parents, fun done => by cases done⟩
    · rename_i mid made
      rw [made] at parents
      split
      · rename_i final done
        rcases admits_of_makeDirectory free unclimbed done with ⟨admits, grows⟩
        exact ⟨parents.trans grows, fun _ => admits.of_grows parents⟩
      · exact settled mid _ parents
  · exact settled tree _ (.refl _ tree)

omit free in
theorem makeAll_grows (tree : Tree) (here : Location) (mode : UInt32) {reversed : List Component}
    (free : .parent ∉ reversed) :
    Grows (origin here absolute) tree (makeAll here mode absolute reversed tree).2 := by
  induction reversed generalizing tree with
  | nil => exact .refl _ tree
  | cons last others ih =>
      rw [List.mem_cons, not_or] at free
      rw [makeAll, List.reverse_cons]
      refine (makeAfter_grows ?_ tree here mode (Ne.symm free.1) (ih tree free.2)).1
      rw [List.mem_reverse]
      exact free.2

end Making

/-! ## Making the directory of a path -/

section Path

variable {path : Path} (descends : path.Descends) (inhabited : path.components ≠ [])

include descends inhabited

theorem isEmpty_text_of_components : path.text.isEmpty = false := by
  rw [String.isEmpty_eq_false_iff]
  intro empty
  have read := Path.ofText_text descends.read
  rw [empty] at read
  exact inhabited (congrArg Path.components read).symm

/-- Making a directory is making the last one after all others. -/
theorem createDirectories_text (tree : Tree) (here : Location) (mode : UInt32)
    (taken : Route.ofText path.text = .ok (.ofPath path)) :
    ∃ steps last, .parent ∉ steps ∧ last ≠ .parent ∧
      path.names = (steps ++ [last]).flatMap Component.names ∧
      tree.createDirectories here path.text mode =
        makeAfter here mode ⟨path.absolute, steps ++ [last], false⟩
          (makeAll here mode path.absolute steps.reverse) tree := by
  rcases List.eq_nil_or_concat path.components with empty | ⟨steps, last, whole⟩
  · exact absurd empty inhabited
  · rw [List.concat_eq_append] at whole
    have free := descends.free
    rw [whole, List.mem_append, List.mem_singleton, not_or] at free
    refine ⟨steps, last, free.1, Ne.symm free.2, whole ▸ descends.names_eq, ?_⟩
    rw [createDirectories, isEmpty_text_of_components descends inhabited,
      if_neg Bool.false_ne_true, taken]
    simp only [Path.ofText_text descends.read, Route.ofPath, whole, List.dropLast_concat]

/-- Making a directory succeeds exactly if its path can be taken and all that is missing can be
made, and then that is made. -/
theorem createDirectories_ok_iff (tree : Tree) (here : Location) (mode : UInt32) :
    ((tree.createDirectories here path.text mode).1 = .ok () ↔
        Route.ofText path.text = .ok (.ofPath path) ∧
          tree.Admits (origin here path.absolute) path.names) ∧
      ((tree.createDirectories here path.text mode).1 = .ok () →
        Made mode (origin here path.absolute) (path.location here) tree
          (tree.createDirectories here path.text mode).2) := by
  cases taken : Route.ofText path.text with
  | error cause =>
      have refused : tree.createDirectories here path.text mode = (.error cause, tree) := by
        rw [createDirectories, isEmpty_text_of_components descends inhabited,
          if_neg Bool.false_ne_true, taken]
      rw [refused]
      refine ⟨⟨fun done => ?_, fun admitted => ?_⟩, fun done => ?_⟩
      · cases done
      · cases admitted.1
      · cases done
  | ok route =>
      cases Route.ofText_text descends.read inhabited taken
      rcases createDirectories_text descends inhabited tree here mode taken with
        ⟨steps, last, free, unclimbed, names, run⟩
      have reversed : .parent ∉ steps.reverse := by
        rw [List.mem_reverse]
        exact free
      have admitted : (tree.createDirectories here path.text mode).1 = .ok () →
          tree.Admits (origin here path.absolute) path.names := by
        rw [run, names]
        exact (makeAfter_grows free tree here mode unclimbed
          (makeAll_grows tree here mode reversed)).2
      have making : tree.Admits (origin here path.absolute) path.names →
          ∃ made, tree.createDirectories here path.text mode = (.ok (), made) ∧
            Made mode (origin here path.absolute) (path.location here) tree made := by
        intro admits
        rw [names] at admits
        have parents := makeAll_of_admits here mode reversed
          (List.reverse_reverse steps ▸ admits.front)
        rw [List.reverse_reverse] at parents
        rw [run, Path.location, names]
        exact makeAfter_of_admits here free unclimbed admits parents
      refine ⟨⟨fun done => ⟨rfl, admitted done⟩, fun able => ?_⟩, fun done => ?_⟩
      · rcases making able.2 with ⟨made, done, _⟩
        rw [done]
      · rcases making (admitted done) with ⟨made, same, changed⟩
        rw [same]
        exact changed

end Path

end Tree
end ExportVolumes
