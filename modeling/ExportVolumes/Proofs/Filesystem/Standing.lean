import ExportVolumes.Proofs.Filesystem.Furnishing

namespace ExportVolumes

/-!
Directories that stand already.

The directory at the end of a path stands when all directories on the way to it are there
(`Tree.Stands`).  It is found there, making it again changes nothing, and its mode and its owner
can be set any number of times.  Where a directory cannot be made, it cannot be made after that
either (`Tree.createDirectories_fails_again`).
-/

/-! ## Entries that were changed already -/

namespace Entry

theorem withMode_withMode (entry : Entry) (mode : UInt32) :
    (entry.withMode mode).withMode mode = entry.withMode mode := by
  cases entry <;> rfl

/-- The mode of a directory is not changed with its owner. -/
theorem withMode_withOwner {entry : Entry} (kind : entry.isDirectory = true)
    (mode user group : UInt32) : (entry.withOwner user group).withMode mode =
      (entry.withMode mode).withOwner user group := by
  cases entry with
  | file => cases kind
  | directory => rfl

theorem changed_changed (asked held : UInt32) :
    changed asked (changed asked held) = changed asked held := by
  unfold changed
  split <;> simp [*]

theorem withOwner_withOwner {entry : Entry} (kind : entry.isDirectory = true)
    (user group : UInt32) :
    (entry.withOwner user group).withOwner user group = entry.withOwner user group := by
  cases entry with
  | file => cases kind
  | directory => simp only [withOwner, changed_changed]

end Entry

namespace Tree

variable {tree : Tree} {here location : Location} {text : String}

/-- What is put at a location last is what is there. -/
theorem set_set (tree : Tree) (location : Location) (one other : Entry) :
    (tree.set location one).set location other = tree.set location other := by
  simp [set]

/-! ## Standing -/

/-- A path that a directory can be made at: it never climbs, or it is the top. -/
inductive IsWay : String → Prop
  | along {path : Path} (descends : path.Descends) (inhabited : path.components ≠ []) :
      IsWay path.text
  | top : IsWay "/"

/-- The directory at the end of a path stands: all directories on the way are there. -/
inductive Stands (here : Location) : String → Location → Tree → Prop
  | along {path : Path} {tree : Tree} (descends : path.Descends)
      (inhabited : path.components ≠ []) (taken : Route.ofText path.text = .ok (.ofPath path))
      (fits : Fits path.names)
      (complete : tree.Complete (origin here path.absolute) (path.location here)) :
      Stands here path.text (path.location here) tree
  | top {tree : Tree} (present : tree.HasDirectory []) : Stands here "/" [] tree

/-- Making a directory on a complete way changes nothing. -/
theorem createDirectories_of_complete {path : Path} (descends : path.Descends)
    (inhabited : path.components ≠ []) (taken : Route.ofText path.text = .ok (.ofPath path))
    (fits : Fits path.names)
    (complete : tree.Complete (origin here path.absolute) (path.location here)) (mode : UInt32) :
    tree.createDirectories here path.text mode = (.ok (), tree) := by
  rcases createDirectories_text descends inhabited tree here mode taken with
    ⟨steps, last, free, unclimbed, names, run⟩
  have target : path.location here =
      origin here path.absolute ++ (steps ++ [last]).flatMap Component.names := by
    rw [← names]
    rfl
  rw [names] at fits
  rw [target] at complete
  have admits := complete.admits fits
  have front : tree.Complete (origin here path.absolute)
      (origin here path.absolute ++ steps.flatMap Component.names) := by
    intro location onWay
    refine complete location ⟨onWay.1, onWay.2.trans ?_⟩
    rw [names_concat, ← List.append_assoc]
    exact List.prefix_append _ _
  have there := isDirectory_of_complete here (free_concat free unclimbed) complete fits
  rw [run, makeAfter]
  rcases makeDirectory_of_complete free here mode unclimbed front admits with
    ⟨known, _⟩ | ⟨name, _, rfl, _, missing, _⟩
  · rw [known]
    simp only [there, if_true]
  · have ends : (steps ++ [Component.name name]).flatMap Component.names =
        steps.flatMap Component.names ++ [name] :=
      names_concat steps _
    rw [ends, ← List.append_assoc] at complete
    exact absurd missing (complete _ ⟨by simp, List.prefix_rfl⟩).ne_none

namespace Stands

/-- What stands is found. -/
theorem found (stands : Stands here text location tree) :
    ∃ route entry, Route.ofText text = .ok route ∧ entry.isDirectory = true ∧
      tree.get? location = some entry ∧ tree.find here route = .ok (location, entry) := by
  cases stands with
  | along descends inhabited taken fits complete =>
      rcases Filled.find_of_complete descends fits complete with ⟨entry, held, kind, found⟩
      exact ⟨_, entry, taken, kind, held, found⟩
  | top present =>
      rcases find_top present here with ⟨entry, kind, held, found⟩
      exact ⟨_, entry, ofText_top, kind, held, found⟩

/-- It stands as well with another directory in its place. -/
theorem set (stands : Stands here text location tree) {entry : Entry}
    (kind : entry.isDirectory = true) : Stands here text location (tree.set location entry) := by
  cases stands with
  | along descends inhabited taken fits complete =>
      exact .along descends inhabited taken fits (complete.set _ kind)
  | top present => exact .top (.set kind)

theorem answer_create (stands : Stands here text location tree) (mode : UInt32) :
    tree.answer here (.createDirectories text mode) = (.ok true, tree) := by
  have stays : tree.createDirectories here text mode = (.ok (), tree) := by
    cases stands with
    | along descends inhabited taken fits complete =>
        exact createDirectories_of_complete descends inhabited taken fits complete mode
    | top present =>
        rcases tree.createDirectories_top here mode with ⟨_, stays⟩ | ⟨absent, _⟩
        · exact stays
        · exact absurd present absent
  simp only [answer, stays]
  rfl

variable {entry : Entry} (stands : Stands here text location tree)
  (held : tree.get? location = some entry)

include stands held

theorem answer_setMode (mode : UInt32) : tree.answer here (.setMode text mode) =
    (.ok true, tree.set location (entry.withMode mode)) := by
  rcases stands.found with ⟨route, other, taken, _, there, found⟩
  cases held.symm.trans there
  simp only [answer, setMode, taken, bind, Except.bind, found]
  rfl

theorem answer_setOwner (user group : UInt32) : tree.answer here (.setOwner text user group) =
    (.ok true, tree.set location (entry.withOwner user group)) := by
  rcases stands.found with ⟨route, other, taken, _, there, found⟩
  cases held.symm.trans there
  simp only [answer, setOwner, taken, bind, Except.bind, found]
  rfl

end Stands

/-! ## Making -/

section Making

variable {made left : Tree} {mode : UInt32}

theorem createDirectories_of_answer {told : Bool}
    (created : tree.answer here (.createDirectories text mode) = (.ok told, made)) :
    tree.createDirectories here text mode = (.ok (), made) := by
  simp only [answer] at created
  cases run : tree.createDirectories here text mode with
  | mk result after =>
      rw [run] at created
      cases result with
      | error cause => cases created
      | ok done =>
          cases created
          rfl

/-- A directory that was made stands. -/
theorem IsWay.stands (isWay : IsWay text) {told : Bool}
    (created : tree.answer here (.createDirectories text mode) = (.ok told, made)) :
    ∃ location, Stands here text location made := by
  have run := createDirectories_of_answer created
  cases isWay with
  | @along path descends inhabited =>
      have result := createDirectories_ok_iff descends inhabited tree here mode
      rw [run] at result
      rcases result.1.mp rfl with ⟨taken, admits⟩
      exact ⟨_, .along descends inhabited taken admits.fits (result.2 rfl).complete⟩
  | top =>
      rcases tree.createDirectories_top here mode with ⟨present, same⟩ | ⟨_, _, failed⟩
      · cases run.symm.trans same
        exact ⟨_, .top present⟩
      · cases run.symm.trans failed

/-- What making a directory adds never makes it possible to make it. -/
theorem createDirectories_fails_again (isWay : IsWay text)
    (failed : (tree.createDirectories here text mode).1 ≠ .ok ()) :
    ((tree.createDirectories here text mode).2.createDirectories here text mode).1 ≠ .ok () := by
  cases isWay with
  | @along path descends inhabited =>
      intro done
      have again := createDirectories_ok_iff descends inhabited
        (tree.createDirectories here path.text mode).2 here mode
      rcases again.1.mp done with ⟨taken, admits⟩
      have first := createDirectories_ok_iff descends inhabited tree here mode
      refine failed (first.1.mpr ⟨taken, admits.of_grows ?_⟩)
      rcases createDirectories_text descends inhabited tree here mode taken with
        ⟨steps, last, free, unclimbed, _, run⟩
      have reversed : .parent ∉ steps.reverse := by
        rw [List.mem_reverse]
        exact free
      rw [run]
      exact (makeAfter_grows free tree here mode unclimbed
        (makeAll_grows tree here mode reversed)).1
  | top =>
      rcases tree.createDirectories_top here mode with ⟨_, same⟩ | ⟨_, _, same⟩
      · rw [same] at failed
        exact absurd rfl failed
      · have stays : (tree.createDirectories here "/" mode).2 = tree := congrArg Prod.snd same
        rw [stays]
        exact failed

end Making
end Tree
end ExportVolumes
