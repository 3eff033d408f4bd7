namespace ExportVolumes

/-!
Dictionaries with text keys: labels, annotations, class parameters, registries.

Entries are kept in strictly increasing key order, so two dictionaries that answer every
lookup alike are the same value, whatever the order in which they were filled.  The main
statements are `get?_insert_self` and `get?_insert_of_ne`: a later entry replaces an
earlier one of the same key and disturbs no other.
-/

/-- A finite map from text to values, entries in strictly increasing key order. -/
structure Dictionary (α : Type u) where
  entries : List (String × α)
  increasing : entries.Pairwise (fun first second => first.1 < second.1)

namespace Dictionary

variable {α : Type u} {β : Type v}

instance [DecidableEq α] : DecidableEq (Dictionary α) := fun first second =>
  if same : first.entries = second.entries then
    .isTrue (by cases first; cases second; simp_all)
  else
    .isFalse (fun equal => same (congrArg entries equal))

instance [Repr α] : Repr (Dictionary α) := ⟨fun d n => reprPrec d.entries n⟩

/-- Insertion into an ordered list of entries, replacing an entry of the same key. -/
def insertEntry (key : String) (value : α) : List (String × α) → List (String × α)
  | [] => [(key, value)]
  | (other, held) :: rest =>
      if key < other then (key, value) :: (other, held) :: rest
      else if key = other then (key, value) :: rest
      else (other, held) :: insertEntry key value rest

theorem mem_insertEntry {key : String} {value : α} {entry : String × α}
    {entries : List (String × α)} (member : entry ∈ insertEntry key value entries) :
    entry = (key, value) ∨ entry ∈ entries := by
  induction entries with
  | nil => simpa [insertEntry] using member
  | cons head rest ih =>
      obtain ⟨other, held⟩ := head
      simp only [insertEntry] at member
      split at member
      · simpa using member
      · split at member
        · rcases List.mem_cons.mp member with here | there
          · exact Or.inl here
          · exact Or.inr (List.mem_cons_of_mem _ there)
        · rcases List.mem_cons.mp member with here | there
          · exact Or.inr (here ▸ List.mem_cons_self)
          · rcases ih there with this | this
            · exact Or.inl this
            · exact Or.inr (List.mem_cons_of_mem _ this)

private theorem lt_of_not_lt_of_ne {first second : String}
    (notLess : ¬ first < second) (ne : first ≠ second) : second < first := by
  have le : second ≤ first := String.not_lt.mp notLess
  have notLe : ¬ first ≤ second := fun other => ne (String.le_antisymm other le)
  exact String.not_le.mp notLe

theorem insertEntry_increasing (key : String) (value : α) {entries : List (String × α)}
    (increasing : entries.Pairwise (fun first second => first.1 < second.1)) :
    (insertEntry key value entries).Pairwise (fun first second => first.1 < second.1) := by
  induction entries with
  | nil => simp [insertEntry]
  | cons head rest ih =>
      obtain ⟨other, held⟩ := head
      obtain ⟨above, restIncreasing⟩ := List.pairwise_cons.mp increasing
      simp only [insertEntry]
      split
      · rename_i less
        refine List.pairwise_cons.mpr ⟨?_, increasing⟩
        intro entry member
        rcases List.mem_cons.mp member with here | there
        · exact here ▸ less
        · exact String.lt_trans less (above entry there)
      · rename_i notLess
        split
        · rename_i same
          subst same
          exact List.pairwise_cons.mpr ⟨above, restIncreasing⟩
        · rename_i ne
          refine List.pairwise_cons.mpr ⟨?_, ih restIncreasing⟩
          intro entry member
          rcases mem_insertEntry member with here | there
          · exact here ▸ lt_of_not_lt_of_ne notLess ne
          · exact above entry there

/-- The dictionary without entries. -/
def empty : Dictionary α := ⟨[], .nil⟩

instance : Inhabited (Dictionary α) := ⟨empty⟩

/-- Enter `value` under `key`, in place of any value held there. -/
def insert (d : Dictionary α) (key : String) (value : α) : Dictionary α :=
  ⟨insertEntry key value d.entries, insertEntry_increasing key value d.increasing⟩

/-- The dictionary filled from left to right: of entries with one key the last is kept. -/
def ofList (pairs : List (String × α)) : Dictionary α :=
  pairs.foldl (fun d pair => d.insert pair.1 pair.2) empty

/-- The value held under `key`. -/
def get? (d : Dictionary α) (key : String) : Option α :=
  d.entries.lookup key

/-- The number of keys. -/
def size (d : Dictionary α) : Nat :=
  d.entries.length

/-- The entries whose value satisfies `keep`. -/
def filterValues (d : Dictionary α) (keep : α → Bool) : Dictionary α :=
  ⟨d.entries.filter (fun entry => keep entry.2), d.increasing.filter _⟩

/-! ## Lookup after insertion -/

theorem lookup_insertEntry_self (key : String) (value : α) (entries : List (String × α)) :
    (insertEntry key value entries).lookup key = some value := by
  induction entries with
  | nil => simp [insertEntry]
  | cons head rest ih =>
      obtain ⟨other, held⟩ := head
      simp only [insertEntry]
      split
      · simp
      · split
        · simp
        · rename_i ne
          have differ : (key == other) = false := beq_false_of_ne ne
          rw [List.lookup_cons, differ, ih]

theorem lookup_insertEntry_of_ne {key other : String} (ne : other ≠ key) (value : α)
    (entries : List (String × α)) :
    (insertEntry key value entries).lookup other = entries.lookup other := by
  have differ : (other == key) = false := beq_false_of_ne ne
  induction entries with
  | nil => simp [insertEntry, List.lookup_cons, differ]
  | cons head rest ih =>
      obtain ⟨here, held⟩ := head
      simp only [insertEntry]
      split
      · simp [List.lookup_cons, differ]
      · split
        · rename_i same
          subst same
          simp [List.lookup_cons, differ]
        · simp [List.lookup_cons, ih]

@[simp]
theorem get?_insert_self (d : Dictionary α) (key : String) (value : α) :
    (d.insert key value).get? key = some value :=
  lookup_insertEntry_self key value d.entries

theorem get?_insert_of_ne (d : Dictionary α) {key other : String} (ne : other ≠ key)
    (value : α) : (d.insert key value).get? other = d.get? other :=
  lookup_insertEntry_of_ne ne value d.entries

/-! ## Entries -/

/-- Where no key has two entries, looking a key up finds its entry. -/
theorem lookup_eq_some_iff {entries : List (String × α)} (once : (entries.map Prod.fst).Nodup)
    {key : String} {value : α} : entries.lookup key = some value ↔ (key, value) ∈ entries := by
  rw [List.lookup_eq_some_iff]
  constructor
  · rintro ⟨before, after, rfl, _⟩
    exact List.mem_append_right before List.mem_cons_self
  · intro member
    obtain ⟨before, after, rfl⟩ := List.append_of_mem member
    refine ⟨before, after, rfl, fun entry earlier => ?_⟩
    rw [List.map_append] at once
    have apart := (List.nodup_append.mp once).2.2 entry.1 (List.mem_map_of_mem earlier) key
      List.mem_cons_self
    exact bne_iff_ne.mpr apart.symm

theorem length_filter_le_one {entries : List (String × α)} (once : (entries.map Prod.fst).Nodup)
    (key : String) : (entries.filter (·.1 = key)).length ≤ 1 := by
  have count : (entries.filter (·.1 = key)).length = (entries.map Prod.fst).count key := by
    rw [List.count, List.countP_map, List.countP_eq_length_filter]
    rfl
  rw [count]
  exact List.nodup_iff_count.mp once key

/-- No key has two entries. -/
theorem nodup_keys (d : Dictionary α) : (d.entries.map Prod.fst).Nodup :=
  List.pairwise_map.mpr (d.increasing.imp String.ne_of_lt)

/-- Looking a key up finds its entry. -/
theorem get?_eq_some_iff {d : Dictionary α} {key : String} {value : α} :
    d.get? key = some value ↔ (key, value) ∈ d.entries :=
  lookup_eq_some_iff d.nodup_keys

/-- Leaving values out leaves the other ones where they are. -/
theorem get?_filterValues (d : Dictionary α) (keep : α → Bool) (key : String) :
    (d.filterValues keep).get? key = (d.get? key).filter keep := by
  ext value
  rw [get?_eq_some_iff, Option.filter_eq_some_iff, get?_eq_some_iff]
  exact List.mem_filter

end Dictionary

end ExportVolumes
