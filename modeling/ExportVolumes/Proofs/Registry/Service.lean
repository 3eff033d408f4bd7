import ExportVolumes.Registry
import Mathlib.Data.Set.Card

namespace ExportVolumes

/-!
Which class a registry answers with.

Entering classes one after the other leaves the last one of each name
(`Registry.get?_foldl_insert`).  A registry of the classes that a provisioner serves is therefore
told by the list that it was made of, and a class of another provisioner makes no difference to it,
wherever it stands in the list (`Registry.ofClasses_keeps`).
-/

/-- A value is the last one in a list that is of some kind. -/
def IsLast {α : Type} (kind : α → Prop) (list : List α) (value : α) : Prop :=
  ∃ before after, list = before ++ value :: after ∧ kind value ∧ ∀ later ∈ after, ¬kind later

theorem find?_reverse_eq_some_iff {α : Type} {test : α → Bool} {list : List α} {value : α} :
    list.reverse.find? test = some value ↔ IsLast (test · = true) list value := by
  rw [List.find?_eq_some_iff_append]
  constructor
  · rintro ⟨passes, after, before, whole, fails⟩
    refine ⟨before.reverse, after.reverse, ?_, passes, fun later member => ?_⟩
    · rw [← list.reverse_reverse, whole]
      simp
    · simpa using fails later (List.mem_reverse.mp member)
  · rintro ⟨before, after, rfl, passes, fails⟩
    refine ⟨passes, after.reverse, before.reverse, by simp, fun later member => ?_⟩
    simpa using fails later (List.mem_reverse.mp member)

namespace StorageClass

/-- A provisioner serves a class under a name: the class bears the name, and it is that
provisioner's own or nobody's. -/
def IsServed (provisionerName name : String) (sc : StorageClass) : Prop :=
  sc.name = name ∧ (sc.provisioner = "" ∨ sc.provisioner = provisionerName)

theorem isServed_iff {provisionerName name : String} {sc : StorageClass} :
    sc.IsServed provisionerName name ↔
      Registry.serves provisionerName sc = true ∧ sc.name = name := by
  rw [IsServed, and_comm, Registry.serves, Bool.or_eq_true, String.isEmpty_iff, decide_eq_true_iff]

end StorageClass

namespace Registry

theorem get?_insert (registry : Registry) (sc : StorageClass) (name : String) :
    (registry.insert sc).get? name = if sc.name = name then some sc else registry.get? name := by
  by_cases same : sc.name = name
  · rw [if_pos same, ← same]
    exact Dictionary.get?_insert_self registry.classes sc.name sc
  · rw [if_neg same]
    exact Dictionary.get?_insert_of_ne registry.classes (Ne.symm same) sc

theorem get?_foldl_insert (registry : Registry) (classes : List StorageClass) (name : String) :
    (classes.foldl insert registry).get? name =
      (classes.reverse.find? (fun sc => sc.name = name)).or (registry.get? name) := by
  induction classes generalizing registry with
  | nil => rfl
  | cons sc rest ih =>
      rw [List.foldl_cons, ih, get?_insert, List.reverse_cons, List.find?_append, Option.or_assoc]
      congr 1
      by_cases same : sc.name = name
      · simp [same]
      · simp [same]

/-- Under a name, a registry holds the last class of that name that is served. -/
theorem get?_ofClasses (classes : List StorageClass) (provisionerName name : String) :
    (ofClasses classes provisionerName).get? name =
      (classes.filter (serves provisionerName)).reverse.find? (fun sc => sc.name = name) := by
  rw [ofClasses, get?_foldl_insert]
  exact Option.or_none

/-- What a registry holds under a name is a class of that name that is served. -/
theorem of_get?_ofClasses {classes : List StorageClass} {provisionerName name : String}
    {sc : StorageClass} (held : (ofClasses classes provisionerName).get? name = some sc) :
    sc.name = name ∧ sc ∈ classes ∧ serves provisionerName sc = true := by
  rw [get?_ofClasses] at held
  have listed := List.mem_reverse.mp (List.mem_of_find?_eq_some held)
  have named := List.find?_some held
  exact ⟨of_decide_eq_true named, List.mem_filter.mp listed⟩

section OfClasses

variable {classes : List StorageClass} {provisionerName name : String} {sc : StorageClass}

theorem get?_ofClasses_eq_some_iff :
    (ofClasses classes provisionerName).get? name = some sc ↔
      IsLast (StorageClass.IsServed provisionerName name) classes sc := by
  rw [get?_ofClasses, ← List.filter_reverse, List.find?_filter, find?_reverse_eq_some_iff]
  simp only [IsLast, StorageClass.isServed_iff, Bool.decide_and, Bool.decide_eq_true,
    Bool.and_eq_true, decide_eq_true_eq]

theorem get?_ofClasses_eq_none_iff :
    (ofClasses classes provisionerName).get? name = none ↔
      ∀ sc ∈ classes, ¬sc.IsServed provisionerName name := by
  rw [get?_ofClasses, List.find?_eq_none]
  simp only [List.mem_reverse, List.mem_filter, StorageClass.isServed_iff, decide_eq_true_eq,
    not_and, and_imp]

/-- A class that is not served is passed over. -/
theorem ofClasses_unserved (before after : List StorageClass)
    (unserved : serves provisionerName sc = false) :
    ofClasses (before ++ sc :: after) provisionerName =
      ofClasses (before ++ after) provisionerName := by
  rw [ofClasses, ofClasses, List.filter_append, List.filter_append,
    List.filter_cons_of_neg (by rw [unserved]; exact Bool.false_ne_true)]

theorem mem_keys_ofClasses_iff :
    name ∈ (ofClasses classes provisionerName).classes.entries.map Prod.fst ↔
      ∃ sc ∈ classes, sc.IsServed provisionerName name := by
  rw [List.mem_map]
  constructor
  · rintro ⟨⟨_, sc⟩, member, rfl⟩
    have held := get?_ofClasses_eq_some_iff.mp (Dictionary.get?_eq_some_iff.mpr member)
    rcases held with ⟨before, after, whole, served, _⟩
    exact ⟨sc, whole ▸ List.mem_append_right before List.mem_cons_self, served⟩
  · rintro ⟨sc, listed, served⟩
    cases held : (ofClasses classes provisionerName).get? name with
    | none => exact absurd served (get?_ofClasses_eq_none_iff.mp held sc listed)
    | some sc => exact ⟨(name, sc), Dictionary.get?_eq_some_iff.mp held, rfl⟩

/-- A registry holds as many classes as there are names that classes are served under. -/
theorem size_ofClasses (classes : List StorageClass) (provisionerName : String) :
    (ofClasses classes provisionerName).size =
      Set.ncard {name | ∃ sc ∈ classes, sc.IsServed provisionerName name} := by
  have names : {name | ∃ sc ∈ classes, sc.IsServed provisionerName name} =
      (((ofClasses classes provisionerName).classes.entries.map Prod.fst).toFinset :
        Set String) := by
    ext name
    rw [List.coe_toFinset]
    exact mem_keys_ofClasses_iff.symm
  rw [names, Set.ncard_coe_finset, List.toFinset_card_of_nodup (Dictionary.nodup_keys _),
    List.length_map]
  rfl

end OfClasses

/-! ## Looking up by the name that a volume gives -/

theorem find_eq_ok_iff {registry : Registry} {name : String} {sc : StorageClass} :
    registry.find name = .ok sc ↔ name ≠ "" ∧ registry.get? name = some sc := by
  unfold find
  by_cases blank : name = ""
  · simp [blank]
  · cases registry.get? name <;> simp [blank]

theorem find_eq_error_iff {registry : Registry} {name : String} {cause : LookupError} :
    registry.find name = .error cause ↔
      name = "" ∧ cause = .missingClassName ∨
        name ≠ "" ∧ registry.get? name = none ∧ cause = .notFound name := by
  unfold find
  by_cases blank : name = ""
  · simp [blank, eq_comm (a := cause)]
  · cases registry.get? name <;> simp [blank, eq_comm (a := cause)]

/-! ## What a registry keeps of a list -/

/-- A registry keeps of a list of classes those that a provisioner serves. -/
structure Keeps (classes : List StorageClass) (provisionerName : String) (registry : Registry) :
    Prop where
  /-- Under a name it holds the last class in the list that is served under it. -/
  held : ∀ name sc, registry.get? name = some sc ↔
    IsLast (StorageClass.IsServed provisionerName name) classes sc
  /-- It holds nothing under a name exactly if no class in the list is served under it. -/
  absent : ∀ name, registry.get? name = none ↔
    ∀ sc ∈ classes, ¬sc.IsServed provisionerName name
  size : registry.size = Set.ncard {name | ∃ sc ∈ classes, sc.IsServed provisionerName name}
  /-- Every class is entered, and found, under its own name. -/
  own : ∀ entry ∈ registry.classes.entries,
    entry.2.name = entry.1 ∧ registry.get? entry.1 = some entry.2
  /-- The list could do without the classes of other provisioners. -/
  foreign : ∀ before sc after, classes = before ++ sc :: after → sc.provisioner ≠ "" →
    sc.provisioner ≠ provisionerName → registry = ofClasses (before ++ after) provisionerName
  /-- A volume is given the class under the name that it gives, if it gives one. -/
  found : ∀ name sc, registry.find name = .ok sc ↔ name ≠ "" ∧ registry.get? name = some sc
  /-- Otherwise it is told that the name is missing, or that there is no class under it. -/
  refused : ∀ name cause, registry.find name = .error cause ↔
    name = "" ∧ cause = .missingClassName ∨
      name ≠ "" ∧ registry.get? name = none ∧ cause = .notFound name

/-- Of classes with one name, the last that is a provisioner's own or nobody's is served, whatever
else the list holds. -/
theorem ofClasses_keeps (classes : List StorageClass) (provisionerName : String) :
    Keeps classes provisionerName (ofClasses classes provisionerName) := by
  constructor
  case held => exact fun _ _ => get?_ofClasses_eq_some_iff
  case absent => exact fun _ => get?_ofClasses_eq_none_iff
  case size => exact size_ofClasses classes provisionerName
  case own =>
    intro entry member
    have held := Dictionary.get?_eq_some_iff.mpr member
    exact ⟨(of_get?_ofClasses held).1, held⟩
  case foreign =>
    rintro before sc after rfl claimed others
    have unserved : serves provisionerName sc = false := by
      rw [serves, Bool.or_eq_false_iff, decide_eq_false_iff_not]
      exact ⟨by simpa using claimed, others⟩
    exact ofClasses_unserved before after unserved
  case found => exact fun _ _ => find_eq_ok_iff
  case refused => exact fun _ _ => find_eq_error_iff

/-- Of two classes of one name, the later one is served, and a class of another provisioner behind
them does not stand in its way. -/
example :
    let earlier : StorageClass := { name := "gold", mountOptions := ["hard"] }
    let later : StorageClass := { name := "gold", provisioner := "here" }
    let foreign : StorageClass := { name := "gold", provisioner := "there" }
    (ofClasses [earlier, later, foreign] "here").find "gold" = .ok later := by
  decide

end Registry
end ExportVolumes
