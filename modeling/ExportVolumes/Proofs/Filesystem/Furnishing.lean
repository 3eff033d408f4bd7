import ExportVolumes.Parameter
import ExportVolumes.Proofs.Filesystem.Filling
import ExportVolumes.Proofs.Filesystem.Obstruction
import Mathlib.Algebra.Group.Nat.Defs

namespace ExportVolumes

/-!
What a tree holds once a directory was made for a volume.

`Tree.Furnished` is the whole of it: the directory has its mode and its owner, what was missing
above it was made, and all else is as it was.  The three calls that make a directory and give it a
mode and an owner furnish it if they succeed (`Tree.Furnished.of_answers`).
-/

namespace Entry

/-- A mode within a mask of the lowest bits loses none of its bits to the mask. -/
theorem and_mask_of_le {mode mask : UInt32} (bits : Nat) (whole : mask.toNat = 2 ^ bits - 1)
    (le : mode ≤ mask) : mode &&& mask = mode := by
  have within := UInt32.le_iff_toNat_le.mp le
  have positive := Nat.two_pow_pos bits
  rw [← UInt32.toNat_inj, UInt32.toNat_and, whole, Nat.and_two_pow_sub_one_eq_mod,
    Nat.mod_eq_of_lt (by omega)]

theorem newMode_of_le {mode : UInt32} (le : mode ≤ Parameter.largestMode) :
    newMode mode = mode &&& ~~~creationMask := by
  rw [newMode, and_mask_of_le 10 (by decide) (UInt32.le_trans le (by decide))]

theorem changed_of_le {asked : UInt32} (le : asked ≤ Parameter.largestId) (held : UInt32) :
    changed asked held = asked := by
  refine if_neg ?_
  rintro rfl
  exact absurd le (by decide)

end Entry

/-- A directory is asked for with a mode and an owner within the bounds of parameters. -/
structure Plot.Bounded (plot : Plot) : Prop where
  mode : plot.mode ≤ Parameter.largestMode
  user : plot.user ≤ Parameter.largestId
  group : plot.group ≤ Parameter.largestId

/-- A finished directory has exactly the mode and the owner that were asked for. -/
theorem Plot.Bounded.finish_target {plot : Plot} (bounded : plot.Bounded) {entry : Entry}
    (kind : entry.isDirectory = true) :
    plot.finish plot.target entry = .directory plot.mode plot.user plot.group := by
  cases entry with
  | file => cases kind
  | directory mode user group =>
      have whole := Entry.and_mask_of_le 12 (by decide : Entry.modeBits.toNat = _)
        (UInt32.le_trans bounded.mode (by decide))
      rw [Plot.finish, if_pos rfl, Entry.withMode, Entry.withOwner, whole,
        Entry.changed_of_le bounded.user, Entry.changed_of_le bounded.group]

namespace Tree

variable {tree before after : Tree} {here base : Location} {plot : Plot}

/-- What a tree holds once a directory was made in it, with its mode and its owner. -/
structure Furnished (plot : Plot) (before after : Tree) : Prop where
  given : after.get? plot.target = some (.directory plot.mode plot.user plot.group)
  /-- A directory was there, or nothing. -/
  found : ∀ entry, before.get? plot.target = some entry → entry.isDirectory = true
  kept : ∀ location entry, location ≠ plot.target → before.get? location = some entry →
    after.get? location = some entry
  /-- What was missing above it was made with its mode, as far as the mask lets through, in a
  directory that may have handed down its group bit and its group. -/
  made : ∀ location name, location ++ [name] <+: plot.target → location ++ [name] ≠ plot.target →
    before.get? (location ++ [name]) = none → ∃ above, after.get? location = some above ∧
      after.get? (location ++ [name]) = some (.directory
        ((plot.mode &&& ~~~Entry.creationMask) ||| (above.mode &&& Entry.groupBit)) 0
        (Entry.groupWithin above))
  beside : ∀ location, ¬location <+: plot.target → before.get? location = none →
    after.get? location = none

/-- What is missing on the way to a place is missing below a base that is there. -/
theorem Rooted.above_of_missing (rooted : before.Rooted) {target location : Location}
    {name : String} (begins : before.HasDirectory base) (below : base <+: target)
    (onto : location ++ [name] <+: target) (missing : before.get? (location ++ [name]) = none) :
    base <+: location := by
  rcases List.prefix_or_prefix_of_prefix below onto with within | ⟨rest, rfl⟩
  · rcases List.prefix_concat_iff.mp within with rfl | within
    · exact absurd missing begins.ne_none
    · exact within
  · rcases begins with ⟨entry, held, _⟩
    rcases rooted.get?_above held with ⟨other, above⟩
    cases missing.symm.trans above

theorem Filled.furnished (filled : Filled base plot before after) (rooted : before.Rooted)
    (bounded : plot.Bounded)
    (found : ∀ entry, before.get? plot.target = some entry → entry.isDirectory = true) :
    Furnished plot before after where
  given := by
    cases there : before.get? plot.target with
    | some entry => rw [filled.held _ _ there, bounded.finish_target (found entry there)]
    | none =>
        -- The base is there, so the target has a name below it.
        rcases List.eq_nil_or_concat plot.target with top | ⟨location, name, whole⟩
        · have same := List.prefix_nil.mp (top ▸ filled.below)
          exact absurd (top ▸ there) (same ▸ filled.begins).ne_none
        · rw [List.concat_eq_append] at whole
          have onto : location ++ [name] <+: plot.target := whole ▸ List.prefix_rfl
          have above := rooted.above_of_missing filled.begins filled.below onto (whole ▸ there)
          have onWay : OnWay base plot.target (location ++ [name]) := ⟨whole ▸ filled.below, onto⟩
          rcases filled.made location name onWay above (whole ▸ there) with ⟨directory, _, made⟩
          rw [← whole] at made
          rw [made, bounded.finish_target]
          rfl
  found := found
  kept location entry ne there := by
    rw [filled.held _ _ there, Plot.finish_of_ne ne]
  made location name onto ne missing := by
    have above := rooted.above_of_missing filled.begins filled.below onto missing
    have onWay : OnWay base plot.target (location ++ [name]) :=
      ⟨above.trans (List.prefix_append _ _), onto⟩
    rcases filled.made location name onWay above missing with ⟨directory, there, made⟩
    rw [Plot.finish_of_ne ne, Entry.newDirectory, Entry.newMode_of_le bounded.mode] at made
    exact ⟨directory, there, made⟩
  beside location beside missing := by
    rw [filled.outside location fun onWay => beside onWay.2, missing]

/-! ## The top -/

/-- The top is never made: it is a directory, or making it fails. -/
theorem createDirectories_top (tree : Tree) (here : Location) (mode : UInt32) :
    tree.HasDirectory [] ∧ tree.createDirectories here "/" mode = (.ok (), tree) ∨
      ¬tree.HasDirectory [] ∧
        ∃ cause, tree.createDirectories here "/" mode = (.error cause, tree) := by
  have run : tree.createDirectories here "/" mode =
      makeAfter here mode ⟨true, [], true⟩ (makeAll here mode true []) tree := rfl
  have way : tree.walk (start here ⟨true, [], true⟩) [] = .ok [] := rfl
  rw [run, makeAfter, makeDirectory, approach, List.dropLast_nil, way]
  by_cases present : tree.HasDirectory []
  · rcases find_top present here with ⟨entry, kind, held, found⟩
    cases entry with
    | file => cases kind
    | directory =>
        refine .inl ⟨present, ?_⟩
        simp [bind, Except.bind, held, isDirectory, found, kind]
  · refine .inr ⟨present, ?_⟩
    cases held : tree.get? [] with
    | none =>
        refine ⟨.notFound, ?_⟩
        simp [bind, Except.bind, held, makeAll, makeDirectory, approach, way, isDirectory, find]
    | some entry =>
        cases entry with
        | directory => exact absurd ⟨_, held, rfl⟩ present
        | file =>
            refine ⟨.notDirectory, ?_⟩
            simp [bind, Except.bind, held, isDirectory, find, way, Entry.isDirectory]

/-! ## The calls that furnish -/

section Answers

variable {made moded : Tree} {first second third : Bool} {text : String} (rooted : tree.Rooted)
  (bounded : plot.Bounded)
  (created : tree.answer here (.createDirectories text plot.mode) = (.ok first, made))
  (modeSet : made.answer here (.setMode text plot.mode) = (.ok second, moded))
  (ownerSet : moded.answer here (.setOwner text plot.user plot.group) = (.ok third, after))

include rooted bounded created modeSet ownerSet

theorem Furnished.of_answers {path : Path} (descends : path.Descends)
    (inhabited : path.components ≠ []) (same : text = path.text)
    (aims : plot.target = path.location here) : Furnished plot tree after := by
  subst same
  rcases Filled.admits_of_answer descends inhabited (congrArg Prod.fst created) with
    ⟨taken, admits⟩
  rcases Filled.of_admits descends inhabited taken admits plot.mode plot.user plot.group with
    ⟨_, _, _, createdToo, modeSetToo, ownerSetToo, filled⟩
  cases created.symm.trans createdToo
  cases modeSet.symm.trans modeSetToo
  cases ownerSet.symm.trans ownerSetToo
  rw [← aims] at filled
  refine filled.furnished rooted bounded fun entry there => ?_
  exact admits.free _ entry ⟨filled.below, aims ▸ List.prefix_rfl⟩ there

theorem Furnished.of_answers_top (same : text = "/") (aims : plot.target = []) :
    Furnished plot tree after := by
  subst same
  rcases createDirectories_top tree here plot.mode with ⟨present, run⟩ | ⟨_, _, run⟩
  · simp only [answer, run] at created
    cases created
    rcases find_top present here with ⟨entry, kind, held, found⟩
    have moding : tree.answer here (.setMode "/" plot.mode) =
        (.ok true, tree.set [] (entry.withMode plot.mode)) := by
      simp only [answer, setMode, ofText_top, bind, Except.bind, found]
      rfl
    cases moding.symm.trans modeSet
    have stays : (tree.set [] (entry.withMode plot.mode)).HasDirectory [] :=
      .set ((entry.isDirectory_withMode _).trans kind)
    rcases find_top stays here with ⟨changed, _, there, foundAgain⟩
    rw [get?_set, if_pos rfl] at there
    cases there
    have owning : (tree.set [] (entry.withMode plot.mode)).answer here
        (.setOwner "/" plot.user plot.group) =
          (.ok true, (tree.set [] (entry.withMode plot.mode)).set []
            ((entry.withMode plot.mode).withOwner plot.user plot.group)) := by
      simp only [answer, setOwner, ofText_top, bind, Except.bind, foundAgain]
      rfl
    cases owning.symm.trans ownerSet
    have complete : tree.Complete [] plot.target := by
      intro location onWay
      have below := onWay.2
      rw [aims, List.prefix_nil] at below
      rw [below]
      exact present
    rw [← aims] at held
    have filled := Filled.of_made present List.nil_prefix (.refl plot.mode complete) held
    rw [aims] at filled
    refine filled.furnished rooted bounded fun other there => ?_
    rw [aims] at there
    exact present.isDirectory_of_get? there
  · simp only [answer, run] at created
    cases created

end Answers
end Tree
end ExportVolumes
