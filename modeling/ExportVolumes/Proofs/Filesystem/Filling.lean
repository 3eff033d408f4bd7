import ExportVolumes.Proofs.Filesystem.Making
import Mathlib.Data.List.Induction

namespace ExportVolumes

/-!
Making the directories of two volumes.

The directory of a volume is made with all that is missing above it, and then has its mode and its
owner set (`Tree.Filled`).  Where neither of two volumes lies in the other, the order makes no
difference, except that a missing directory above both has the mode of the volume that comes first
(`Tree.Filled.commute`).  What a directory hands down does not depend on the mode that it was made
with, so this difference ends with the directories that are above both.
-/

namespace Entry

/-- A mask is applied to the bits of either number. -/
theorem or_and_mask (bits others mask : UInt32) :
    (bits ||| others) &&& mask = (bits &&& mask) ||| (others &&& mask) := by
  rw [← UInt32.toNat_inj]
  simp only [UInt32.toNat_and, UInt32.toNat_or, Nat.and_or_distrib_right]

/-- No mode of a new directory has the group bit by itself. -/
theorem newMode_and_groupBit (mode : UInt32) : newMode mode &&& groupBit = 0 := by
  have none_ : directoryBits &&& ~~~creationMask &&& groupBit = 0 := by decide
  rw [newMode, UInt32.and_assoc, UInt32.and_assoc, ← UInt32.and_assoc directoryBits, none_,
    UInt32.and_zero]

/-- A directory hands down its group bit and its group only. -/
theorem newDirectory_congr {one other : Entry}
    (bit : one.mode &&& groupBit = other.mode &&& groupBit) (group : one.group = other.group)
    (mode : UInt32) : one.newDirectory mode = other.newDirectory mode := by
  rw [newDirectory, newDirectory, groupWithin, groupWithin, hasBit, hasBit, bit, group]

/-- What a new directory hands down was handed down to it. -/
theorem newDirectory_newDirectory (above : Entry) (first second mode : UInt32) :
    (above.newDirectory first).newDirectory mode =
      (above.newDirectory second).newDirectory mode := by
  have bit : ∀ own, (above.newDirectory own).mode &&& groupBit = above.mode &&& groupBit := by
    intro own
    change (newMode own ||| (above.mode &&& groupBit)) &&& groupBit = _
    rw [or_and_mask, newMode_and_groupBit, UInt32.zero_or, UInt32.and_assoc, UInt32.and_self]
  exact newDirectory_congr ((bit first).trans (bit second).symm) rfl mode

end Entry

/-- The directory of a volume: where it is, and the mode and the owner that it is given. -/
structure Plot where
  target : Location
  mode : UInt32
  user : UInt32
  group : UInt32

/-- An entry once the directory of a volume is finished. -/
def Plot.finish (plot : Plot) (location : Location) (entry : Entry) : Entry :=
  if location = plot.target then (entry.withMode plot.mode).withOwner plot.user plot.group
  else entry

theorem Plot.finish_of_ne {plot : Plot} {location : Location} (ne : location ≠ plot.target)
    (entry : Entry) : plot.finish location entry = entry :=
  if_neg ne

theorem Plot.isDirectory_finish (plot : Plot) (location : Location) (entry : Entry) :
    (plot.finish location entry).isDirectory = entry.isDirectory := by
  rw [finish]
  split
  · rw [Entry.isDirectory_withOwner, Entry.isDirectory_withMode]
  · rfl

/-- Two directories at different places can be finished in either order. -/
theorem Plot.finish_finish {one other : Plot} (ne : one.target ≠ other.target) (location : Location)
    (entry : Entry) :
    other.finish location (one.finish location entry) =
      one.finish location (other.finish location entry) := by
  by_cases atOne : location = one.target
  · have notOther : location ≠ other.target := atOne ▸ ne
    rw [Plot.finish_of_ne notOther, Plot.finish_of_ne notOther]
  · rw [Plot.finish_of_ne atOne, Plot.finish_of_ne atOne]

namespace Tree

/-- What a tree holds after the directory of a volume was made and finished. -/
structure Filled (base : Location) (plot : Plot) (before after : Tree) : Prop where
  begins : before.HasDirectory base
  below : base <+: plot.target
  held : ∀ location entry, before.get? location = some entry →
    after.get? location = some (plot.finish location entry)
  outside : ∀ location, ¬OnWay base plot.target location →
    after.get? location = before.get? location
  made : ∀ location name, OnWay base plot.target (location ++ [name]) → base <+: location →
    before.get? (location ++ [name]) = none → ∃ above, after.get? location = some above ∧
      after.get? (location ++ [name]) =
        some (plot.finish (location ++ [name]) (above.newDirectory plot.mode))

theorem Complete.set {tree : Tree} {base target : Location} (complete : tree.Complete base target)
    (location : Location) {entry : Entry} (kind : entry.isDirectory = true) :
    (tree.set location entry).Complete base target := by
  intro other onWay
  by_cases same : other = location
  · exact same ▸ .set kind
  · rcases complete other onWay with ⟨held, there, directory⟩
    refine ⟨held, ?_, directory⟩
    rw [get?_set, if_neg same, there]

namespace Filled

variable {base : Location} {plot : Plot} {before after made : Tree}

theorem ne_of_above {location target : Location} {name : String}
    (within : location ++ [name] <+: target) : location ≠ target := by
  rintro rfl
  have longer := within.length_le
  rw [List.length_append, List.length_singleton] at longer
  omega

/-- A directory that was made is finished by setting its mode and its owner. -/
theorem of_made (begins : before.HasDirectory base) (below : base <+: plot.target)
    (making : Made plot.mode base plot.target before made) {entry : Entry}
    (there : made.get? plot.target = some entry) :
    Filled base plot before ((made.set plot.target (entry.withMode plot.mode)).set plot.target
      ((entry.withMode plot.mode).withOwner plot.user plot.group)) := by
  have after : ∀ location, ((made.set plot.target (entry.withMode plot.mode)).set plot.target
      ((entry.withMode plot.mode).withOwner plot.user plot.group)).get? location =
        (made.get? location).map (plot.finish location) := by
    intro location
    rw [get?_set, get?_set]
    by_cases same : location = plot.target
    · rw [if_pos same, same, there, Option.map_some, Plot.finish, if_pos rfl]
    · rw [if_neg same, if_neg same]
      cases made.get? location with
      | none => rfl
      | some other => rw [Option.map_some, Plot.finish_of_ne same]
  constructor
  case begins => exact begins
  case below => exact below
  case held =>
    intro location other held
    rw [after, making.held _ _ held, Option.map_some]
  case outside =>
    intro location outside
    have ne : location ≠ plot.target := by
      rintro rfl
      exact outside ⟨below, List.prefix_rfl⟩
    rw [after, making.outside location outside]
    cases before.get? location with
    | none => rfl
    | some other => rw [Option.map_some, Plot.finish_of_ne ne]
  case made =>
    intro location name onWay above missing
    rcases making.made location name onWay above missing with ⟨directory, held, new⟩
    rw [after, after, held, new, Option.map_some, Option.map_some,
      Plot.finish_of_ne (ne_of_above onWay.2)]
    exact ⟨directory, rfl, rfl⟩

/-- Only directories are added. -/
theorem isDirectory_of_missing (filled : Filled base plot before after) {location : Location}
    {entry : Entry} (missing : before.get? location = none)
    (there : after.get? location = some entry) : entry.isDirectory = true := by
  by_cases onWay : OnWay base plot.target location
  · rcases onWay.1 with ⟨beyond, rfl⟩
    rcases List.eq_nil_or_concat beyond with rfl | ⟨front, name, rfl⟩
    · rw [List.append_nil] at missing
      exact absurd missing filled.begins.ne_none
    · rw [List.concat_eq_append, ← List.append_assoc] at onWay missing there
      rcases filled.made _ name onWay (List.prefix_append _ _) missing with ⟨above, _, made⟩
      rw [there] at made
      rw [Option.some.inj made, Plot.isDirectory_finish]
      rfl
  · rw [filled.outside location onWay, missing] at there
    cases there

/-- What can be made does not depend on whether another volume is there. -/
theorem admits_iff (filled : Filled base plot before after) {names : List String} :
    after.Admits base names ↔ before.Admits base names := by
  constructor
  · intro admits
    refine ⟨filled.begins, admits.fits, fun location entry onWay held => ?_⟩
    rw [← plot.isDirectory_finish location entry]
    exact admits.free _ _ onWay (filled.held _ _ held)
  · intro admits
    constructor
    case begins =>
      rcases filled.begins with ⟨entry, held, kind⟩
      refine ⟨_, filled.held _ _ held, ?_⟩
      rw [Plot.isDirectory_finish, kind]
    case fits => exact admits.fits
    case free =>
      intro location entry onWay there
      cases held : before.get? location with
      | none => exact filled.isDirectory_of_missing held there
      | some other =>
          rw [filled.held _ _ held] at there
          rw [← Option.some.inj there, Plot.isDirectory_finish]
          exact admits.free _ _ onWay held

/-! ## The calls that fill -/

section Path

variable {tree : Tree} {here : Location} {path : Path} (descends : path.Descends)

include descends

/-- The path of a complete way finds the directory at its end. -/
theorem find_of_complete (fits : Fits path.names)
    (complete : tree.Complete (origin here path.absolute) (path.location here)) :
    ∃ entry, tree.get? (path.location here) = some entry ∧ entry.isDirectory = true ∧
      tree.find here (.ofPath path) = .ok (path.location here, entry) := by
  have target : path.location here =
      origin here path.absolute ++ path.components.flatMap Component.names := by
    rw [← descends.names_eq]
    rfl
  rcases complete _ ⟨target ▸ List.prefix_append _ _, List.prefix_rfl⟩ with ⟨entry, held, kind⟩
  rw [descends.names_eq] at fits
  rw [target] at complete
  rcases walk_of_admits descends.free (complete.admits fits) with ⟨walked, _⟩ | ⟨_, incomplete⟩
  · refine ⟨entry, held, kind, ?_⟩
    rw [← target] at walked
    change tree.walk (start here (.ofPath path)) path.components = _ at walked
    rw [find_eq, walked]
    simp only [Except.bind, held, Option.elim_some]
  · exact absurd complete incomplete

/-- Where all that is missing can be made, the directory of a volume is made and finished. -/
theorem of_admits (inhabited : path.components ≠ [])
    (taken : Route.ofText path.text = .ok (.ofPath path))
    (admits : tree.Admits (origin here path.absolute) path.names) (mode user group : UInt32) :
    ∃ made moded owned,
      tree.answer here (.createDirectories path.text mode) = (.ok true, made) ∧
      made.answer here (.setMode path.text mode) = (.ok true, moded) ∧
      moded.answer here (.setOwner path.text user group) = (.ok true, owned) ∧
      Filled (origin here path.absolute) ⟨path.location here, mode, user, group⟩ tree owned := by
  have result := createDirectories_ok_iff descends inhabited tree here mode
  have done := result.1.mpr ⟨taken, admits⟩
  have making := result.2 done
  cases created : tree.createDirectories here path.text mode with
  | mk answered made =>
      rw [created] at done making
      simp only at done making
      rcases find_of_complete descends admits.fits making.complete with
        ⟨entry, there, kind, found⟩
      have kept := making.complete.set (path.location here)
        ((entry.isDirectory_withMode mode).trans kind)
      rcases find_of_complete descends admits.fits kept with ⟨moded, same, _, foundAgain⟩
      rw [get?_set, if_pos rfl] at same
      cases same
      refine ⟨made, made.set (path.location here) (entry.withMode mode), _, ?_, ?_, ?_,
        of_made admits.begins (List.prefix_append _ _) making there⟩
      · simp only [answer, created, done]
        rfl
      · simp only [answer, setMode, taken, bind, Except.bind, found]
        rfl
      · simp only [answer, setOwner, taken, bind, Except.bind, foundAgain]
        rfl

/-- Where a directory was made with all above it, that could be made. -/
theorem admits_of_answer (inhabited : path.components ≠ []) {mode : UInt32} {told : Bool}
    (created : (tree.answer here (.createDirectories path.text mode)).1 = .ok told) :
    Route.ofText path.text = .ok (.ofPath path) ∧
      tree.Admits (origin here path.absolute) path.names := by
  apply (createDirectories_ok_iff descends inhabited tree here mode).1.mp
  simp only [answer] at created
  cases done : (tree.createDirectories here path.text mode).1 with
  | error cause =>
      rw [done] at created
      cases created
  | ok _ => rfl

end Path

/-! ## Both orders -/

section Orders

variable {one other : Plot} {tree first both second back : Tree}

/-- A directory that the first volume is made in or below stays when the second is made. -/
theorem made_kept (toFirst : Filled base one tree first) (toBoth : Filled base other first both)
    {location : Location} {name : String} (above : base <+: location)
    (onWay : OnWay base one.target (location ++ [name]))
    (missing : tree.get? (location ++ [name]) = none) (neAbove : location ≠ other.target)
    (ne : location ++ [name] ≠ other.target) :
    ∃ onward, both.get? location = some onward ∧ both.get? (location ++ [name]) =
      some (one.finish (location ++ [name]) (onward.newDirectory one.mode)) := by
  rcases toFirst.made _ _ onWay above missing with ⟨onward, there, made⟩
  have still := toBoth.held _ _ there
  have kept := toBoth.held _ _ made
  rw [Plot.finish_of_ne neAbove] at still
  rw [Plot.finish_of_ne ne] at kept
  exact ⟨onward, still, kept⟩

/-- On a missing directory above one volume only, both orders agree, if the directories above it
hand down the same. -/
theorem same_of_missing (outside : ¬other.target <+: one.target)
    (toFirst : Filled base one tree first) (toBoth : Filled base other first both)
    (toSecond : Filled base other tree second) (toBack : Filled base one second back)
    {location : Location} {name : String} (above : base <+: location)
    (onWay : OnWay base one.target (location ++ [name]))
    (offWay : ¬OnWay base other.target (location ++ [name]))
    (missing : tree.get? (location ++ [name]) = none)
    (heirs : ∀ onward backward, both.get? location = some onward →
      back.get? location = some backward →
      ∀ mode, onward.newDirectory mode = backward.newDirectory mode) :
    both.get? (location ++ [name]) = back.get? (location ++ [name]) := by
  have neAbove : location ≠ other.target := by
    rintro rfl
    exact outside ((List.prefix_append _ _).trans onWay.2)
  have ne : location ++ [name] ≠ other.target := by
    intro same
    exact offWay ⟨onWay.1, same ▸ List.prefix_rfl⟩
  have missingStill : second.get? (location ++ [name]) = none :=
    (toSecond.outside _ offWay).trans missing
  rcases toFirst.made_kept toBoth above onWay missing neAbove ne with ⟨onward, there, kept⟩
  rcases toBack.made _ _ onWay above missingStill with ⟨backward, thereBack, madeBack⟩
  rw [kept, madeBack, heirs onward backward there thereBack one.mode]

/-- What is at a location after both orders is the same, or is a directory that was missing above
both volumes and has the mode of the one that came first. -/
def Alike (base : Location) (one other : Plot) (tree both back : Tree) (location : Location) :
    Prop :=
  both.get? location = back.get? location ∨
    tree.get? location = none ∧ OnWay base one.target location ∧ OnWay base other.target location ∧
      ∃ above, both.get? location.dropLast = some above ∧
        both.get? location = some (above.newDirectory one.mode) ∧
        back.get? location = some (above.newDirectory other.mode)

theorem Alike.heirs {location : Location} (alike : Alike base one other tree both back location)
    (onward backward : Entry) (there : both.get? location = some onward)
    (thereBack : back.get? location = some backward) (mode : UInt32) :
    onward.newDirectory mode = backward.newDirectory mode := by
  rcases alike with same | ⟨_, _, _, above, _, made, madeBack⟩
  · rw [there, thereBack] at same
    rw [Option.some.inj same]
  · rw [there] at made
    rw [thereBack] at madeBack
    rw [Option.some.inj made, Option.some.inj madeBack]
    exact above.newDirectory_newDirectory _ _ _

section Commute

variable (apart : ¬one.target <+: other.target) (apartBack : ¬other.target <+: one.target)
  (toFirst : Filled base one tree first) (toBoth : Filled base other first both)
  (toSecond : Filled base other tree second) (toBack : Filled base one second back)

include apart toFirst toBoth toSecond toBack

/-- What was there is kept by both orders, and finished alike. -/
theorem alike_of_held {location : Location} {entry : Entry}
    (held : tree.get? location = some entry) :
    Alike base one other tree both back location := by
  have ne : one.target ≠ other.target := fun same => apart (same ▸ List.prefix_rfl)
  have onward := toBoth.held _ _ (toFirst.held _ _ held)
  have backward := toBack.held _ _ (toSecond.held _ _ held)
  exact .inl (by rw [onward, backward, Plot.finish_finish ne])

include apartBack

/-- What was missing is made alike in both orders, if the directories above it hand down the
same. -/
theorem alike_of_missing {location : Location} {name : String} (above : base <+: location)
    (missing : tree.get? (location ++ [name]) = none)
    (alike : Alike base one other tree both back location) :
    Alike base one other tree both back (location ++ [name]) := by
  by_cases onOne : OnWay base one.target (location ++ [name]) <;>
    by_cases onOther : OnWay base other.target (location ++ [name])
  · -- Whichever comes first makes it, and it is the target of neither.
    have neOne : location ++ [name] ≠ one.target := fun same => apart (same ▸ onOther.2)
    have neOther : location ++ [name] ≠ other.target := fun same => apartBack (same ▸ onOne.2)
    rcases toFirst.made_kept toBoth above onOne missing (ne_of_above onOther.2) neOther with
      ⟨onward, there, made⟩
    rcases toSecond.made_kept toBack above onOther missing (ne_of_above onOne.2) neOne with
      ⟨backward, thereBack, madeBack⟩
    rw [Plot.finish_of_ne neOne] at made
    rw [Plot.finish_of_ne neOther, ← alike.heirs onward backward there thereBack] at madeBack
    refine .inr ⟨missing, onOne, onOther, onward, ?_, made, madeBack⟩
    rw [List.dropLast_concat, there]
  · exact .inl (toFirst.same_of_missing apartBack toBoth toSecond toBack above onOne onOther missing
      alike.heirs)
  · refine .inl (toSecond.same_of_missing apart toBack toFirst toBoth above onOther onOne missing
      fun backward onward thereBack there mode => ?_).symm
    exact (alike.heirs onward backward there thereBack mode).symm
  · refine .inl ?_
    rw [toBoth.outside _ onOther, toFirst.outside _ onOne, toBack.outside _ onOne,
      toSecond.outside _ onOther]

/-- Making the directories of two volumes, neither of which lies in the other, in either order ends
in the same tree, but for the modes of the missing directories above both.  The induction is on the
names below the base from the last one. -/
theorem commute (location : Location) : Alike base one other tree both back location := by
  by_cases below : base <+: location
  · rcases below with ⟨names, rfl⟩
    induction names using List.reverseRecOn with
    | nil =>
        rcases toFirst.begins with ⟨directory, held, _⟩
        rw [List.append_nil]
        exact alike_of_held apart toFirst toBoth toSecond toBack held
    | append_singleton names name ih =>
        rw [← List.append_assoc]
        cases held : tree.get? (base ++ names ++ [name]) with
        | some entry => exact alike_of_held apart toFirst toBoth toSecond toBack held
        | none =>
            exact alike_of_missing apart apartBack toFirst toBoth toSecond toBack
              (List.prefix_append _ _) held ih
  · have off : ∀ target, ¬OnWay base target location := fun _ onWay => below onWay.1
    refine .inl ?_
    rw [toBoth.outside _ (off _), toFirst.outside _ (off _), toBack.outside _ (off _),
      toSecond.outside _ (off _)]

end Commute
end Orders

end Filled
end Tree
end ExportVolumes
