import ExportVolumes.Filesystem.Tree
import Mathlib.Data.List.Basic

namespace ExportVolumes

/-!
What a tree holds after a change.

The changes of a tree are an entry put somewhere, a location dropped with all that is below it,
and a location moved.  Each of them changes what is held at the locations that it names and below
them; `Tree.AgreeOutside` says that all else is the same.
-/

theorem Entry.isDirectory_withMode (mode : UInt32) (entry : Entry) :
    (entry.withMode mode).isDirectory = entry.isDirectory := by
  cases entry <;> rfl

theorem Entry.isDirectory_withOwner (user group : UInt32) (entry : Entry) :
    (entry.withOwner user group).isDirectory = entry.isDirectory := by
  cases entry <;> rfl

namespace Tree

variable {tree : Tree} {base location top : Location}

/-! ## Entries after a change -/

theorem within_eq_true_iff : within top location = true ↔ top <+: location :=
  List.isPrefixOf_iff_prefix

theorem within_eq_false (outside : ¬ top <+: location) : within top location = false :=
  Bool.eq_false_iff.mpr (fun covers => outside (within_eq_true_iff.mp covers))

theorem lookup_filter (keep : Location → Bool) (entries : List (Location × Entry))
    (location : Location) :
    (entries.filter (fun held => keep held.1)).lookup location =
      if keep location then entries.lookup location else none := by
  induction entries with
  | nil => cases keep location <;> rfl
  | cons held rest ih =>
      rcases held with ⟨at_, entry⟩
      by_cases same : location = at_
      · subst same
        cases kept : keep location with
        | true => simp [kept]
        | false => simpa [kept] using ih
      · have other : (location == at_) = false := beq_eq_false_iff_ne.mpr same
        cases kept : keep at_ with
        | true => simpa [kept, List.lookup_cons, other] using ih
        | false => simpa [kept, List.lookup_cons, other] using ih

/-- Entries that change their places keep what they hold. -/
theorem lookup_map_fst {place : Location → Location} {origin : Location}
    {entries : List (Location × Entry)}
    (comes : ∀ held ∈ entries, place held.1 = location ↔ held.1 = origin) :
    (entries.map (fun held => (place held.1, held.2))).lookup location = entries.lookup origin := by
  induction entries with
  | nil => rfl
  | cons held rest ih =>
      have tail := ih (fun other member => comes other (List.mem_cons_of_mem _ member))
      have head := comes held List.mem_cons_self
      rcases held with ⟨at_, entry⟩
      by_cases same : at_ = origin
      · have back : place origin = location := head.mpr same ▸ same ▸ rfl
        simp [same, back]
      · have moved : (location == place at_) = false :=
          beq_eq_false_iff_ne.mpr (fun back => same (head.mp back.symm))
        have other : (origin == at_) = false := beq_eq_false_iff_ne.mpr (Ne.symm same)
        simpa [List.lookup_cons, moved, other] using tail

theorem get?_set (tree : Tree) (location other : Location) (entry : Entry) :
    (tree.set location entry).get? other =
      if other = location then some entry else tree.get? other := by
  by_cases same : other = location
  · simp [get?, set, same]
  · have apart : (other == location) = false := beq_eq_false_iff_ne.mpr same
    have rest := lookup_filter (fun held => decide (held ≠ location)) tree.entries other
    simp only [get?, set, List.lookup_cons, apart]
    rw [rest, if_neg same, if_pos (by simpa using same)]

theorem get?_drop (tree : Tree) (top location : Location) :
    (tree.drop top).get? location = if top <+: location then none else tree.get? location := by
  rw [get?, drop, lookup_filter (fun held => !within top held)]
  by_cases inside : top <+: location
  · simp [within_eq_true_iff.mpr inside, inside]
  · simp [within_eq_false inside, inside, get?]

theorem get?_dropBelow (tree : Tree) (top location : Location) :
    (tree.dropBelow top).get? location =
      if top <+: location ∧ location ≠ top then none else tree.get? location := by
  rw [get?, dropBelow, lookup_filter (fun held => !within top held || held = top)]
  by_cases same : location = top
  · simp [same, get?]
  · by_cases inside : top <+: location
    · simp [within_eq_true_iff.mpr inside, inside, same]
    · simp [within_eq_false inside, inside, get?]

/-- Dropping a location needs nothing below it to be dropped before. -/
theorem drop_dropBelow (tree : Tree) (top : Location) :
    (tree.dropBelow top).drop top = tree.drop top := by
  simp only [drop, dropBelow, List.filter_filter]
  congr 1
  apply List.filter_congr
  intro held _
  cases within top held.1 <;> rfl

theorem moved_of_inside {source target : Location} (inside : source <+: location) :
    moved source target location = target ++ location.drop source.length :=
  if_pos (within_eq_true_iff.mpr inside)

theorem moved_of_outside {source target : Location} (outside : ¬ source <+: location) :
    moved source target location = location :=
  if_neg (fun covers => outside (within_eq_true_iff.mp covers))

/-- A location that neither the source nor the target covers stays when they change places. -/
theorem get?_move_of_outside {source target : Location} (apart : ¬ source <+: location)
    (outside : ¬ target <+: location) :
    (tree.move source target).get? location = tree.get? location := by
  have comes : ∀ held ∈ (tree.drop target).entries,
      moved source target held.1 = location ↔ held.1 = location := by
    intro held _
    by_cases inside : source <+: held.1
    · rw [moved_of_inside inside]
      constructor
      · intro same
        exact absurd (same ▸ List.prefix_append target _) outside
      · intro same
        exact absurd (same ▸ inside) apart
    · rw [moved_of_outside inside]
  rw [get?, move, lookup_map_fst comes]
  exact (get?_drop tree target location).trans (if_neg outside)

/-- What is moved lies at the target. -/
theorem get?_move_target (tree : Tree) {source target : Location}
    (outside : ¬ target <+: source) : (tree.move source target).get? target = tree.get? source := by
  have comes : ∀ held ∈ (tree.drop target).entries,
      moved source target held.1 = target ↔ held.1 = source := by
    intro held member
    by_cases inside : source <+: held.1
    · rw [moved_of_inside inside]
      rcases inside with ⟨rest, longer⟩
      rw [← longer]
      simp
    · rw [moved_of_outside inside]
      refine iff_of_false ?_ (fun same => inside (same ▸ List.prefix_rfl))
      intro same
      have kept := (List.mem_filter.mp member).2
      simp [same, within_eq_true_iff.mpr (List.prefix_refl target)] at kept
  rw [get?, move, lookup_map_fst comes]
  exact (get?_drop tree target source).trans (if_neg outside)

/-- Nothing is left where a move began. -/
theorem get?_move_source (tree : Tree) {source target : Location}
    (outside : ¬ target <+: source) : (tree.move source target).get? source = none := by
  rw [get?, move, List.lookup_eq_none_iff]
  intro held member
  rcases List.mem_map.mp member with ⟨origin, _, rfl⟩
  apply bne_iff_ne.mpr
  intro same
  by_cases inside : source <+: origin.1
  · rw [moved_of_inside inside] at same
    exact outside (same ▸ List.prefix_append target _)
  · rw [moved_of_outside inside] at same
    exact inside (same ▸ List.prefix_rfl)

/-! ## Directories -/

/-- A directory is at a location. -/
def HasDirectory (tree : Tree) (location : Location) : Prop :=
  ∃ entry, tree.get? location = some entry ∧ entry.isDirectory = true

/-- A location and all locations above it hold directories. -/
def LeadsTo (tree : Tree) (location : Location) : Prop :=
  ∀ above, above <+: location → tree.HasDirectory above

theorem HasDirectory.set {entry : Entry} (kind : entry.isDirectory = true) :
    (tree.set location entry).HasDirectory location :=
  ⟨entry, by rw [get?_set, if_pos rfl], kind⟩

theorem HasDirectory.isDirectory_of_get? {entry : Entry} (present : tree.HasDirectory location)
    (held : tree.get? location = some entry) : entry.isDirectory = true := by
  rcases present with ⟨other, there, kind⟩
  rw [held] at there
  exact Option.some.inj there ▸ kind

theorem HasDirectory.of_get? {before after : Tree} (present : before.HasDirectory location)
    (same : after.get? location = before.get? location) : after.HasDirectory location := by
  rcases present with ⟨entry, held, kind⟩
  exact ⟨entry, same.trans held, kind⟩

/-! ## Agreement -/

/-- Two trees hold the same outside of some locations. -/
def AgreeOutside (tops : List Location) (before after : Tree) : Prop :=
  ∀ location, (∀ top ∈ tops, ¬ top <+: location) → after.get? location = before.get? location

namespace AgreeOutside

theorem refl (tops : List Location) (tree : Tree) : AgreeOutside tops tree tree :=
  fun _ _ => rfl

theorem trans {tops : List Location} {first second third : Tree}
    (earlier : AgreeOutside tops first second) (later : AgreeOutside tops second third) :
    AgreeOutside tops first third :=
  fun location outside => (later location outside).trans (earlier location outside)

theorem mono {tops others : List Location} {before after : Tree}
    (agree : AgreeOutside tops before after) (covered : ∀ top ∈ tops, top ∈ others) :
    AgreeOutside others before after :=
  fun location outside => agree location (fun top member => outside top (covered top member))

theorem set (tree : Tree) (location : Location) (entry : Entry) :
    AgreeOutside [location] tree (tree.set location entry) := by
  intro other outside
  rw [get?_set, if_neg]
  rintro rfl
  exact outside other (List.mem_singleton_self other) List.prefix_rfl

theorem drop (tree : Tree) (top : Location) : AgreeOutside [top] tree (tree.drop top) := by
  intro other outside
  rw [get?_drop, if_neg (outside top (List.mem_singleton_self top))]

theorem move (tree : Tree) (source target : Location) :
    AgreeOutside [source, target] tree (tree.move source target) := by
  intro other outside
  exact get?_move_of_outside (outside source (by simp)) (outside target (by simp))

/-- A directory that leads somewhere is left where it is by a change further down. -/
theorem leadsTo {tops : List Location} {before after : Tree}
    (agree : AgreeOutside tops before after) (below : ∀ top ∈ tops, ¬ top <+: base)
    (leads : before.LeadsTo base) : after.LeadsTo base := by
  intro above prior
  rcases leads above prior with ⟨entry, held, kind⟩
  refine ⟨entry, ?_, kind⟩
  rw [agree above (fun top member under => below top member (under.trans prior)), held]

end AgreeOutside

end Tree
end ExportVolumes
