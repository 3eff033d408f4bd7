import ExportVolumes.Filesystem.System
import ExportVolumes.Proofs.Filesystem.Making
import Mathlib.Data.List.Induction

namespace ExportVolumes

/-!
Trees in which whatever is there lies in a directory.

`Tree.Rooted` is what makes a finite map from locations to entries a tree.  Every call keeps it,
whether it succeeds or fails (`Tree.Rooted.answer`): a call makes entries in directories only, it
removes a directory with all that is below it, and what it moves it moves whole.
-/

namespace Tree

variable {tree : Tree} {here base location top : Location} {name : String}

/-! ## What a path leads to -/

theorem get?_of_find {route : Route} {entry : Entry}
    (found : tree.find here route = .ok (location, entry)) : tree.get? location = some entry := by
  rcases bind_eq_ok_iff.mp found with ⟨reached, _, ended⟩
  split at ended
  · cases ended
  · rename_i other held
    split at ended
    · cases ended
    · cases ended
      exact held

theorem hasDirectory_of_approach {route : Route} {directory : Entry} {last : Option Component}
    (approached : tree.approach here route = .ok (location, directory, last)) :
    tree.get? location = some directory ∧ directory.isDirectory = true := by
  rcases bind_eq_ok_iff.mp approached with ⟨reached, _, ended⟩
  split at ended
  · cases ended
  · cases ended
  · rename_i notFile held
    cases ended
    cases directory with
    | file mode user group content => exact absurd rfl (notFile mode user group content)
    | directory mode user group => exact ⟨held, rfl⟩

/-! ## Directories above -/

/-- Whatever is in a tree lies in a directory. -/
def Rooted (tree : Tree) : Prop :=
  ∀ location name, tree.get? (location ++ [name]) ≠ none → tree.HasDirectory location

theorem get?_ne_none_iff {location : Location} :
    tree.get? location ≠ none ↔ ∃ held ∈ tree.entries, held.1 = location := by
  rw [get?, ne_eq, List.lookup_eq_none_iff]
  constructor
  · intro present
    by_contra missing
    apply present
    intro held member
    apply bne_iff_ne.mpr
    exact fun same => missing ⟨held, member, same.symm⟩
  · rintro ⟨held, member, rfl⟩ absent
    exact bne_iff_ne.mp (absent held member) rfl

theorem hasDirectory_iff :
    tree.HasDirectory location ↔ (tree.get? location).any Entry.isDirectory = true := by
  rw [HasDirectory]
  cases tree.get? location <;> simp

/-- It is enough to look at the entries that a tree lists. -/
theorem rooted_iff : tree.Rooted ↔ ∀ held ∈ tree.entries,
    held.1 = [] ∨ (tree.get? held.1.dropLast).any Entry.isDirectory = true := by
  simp only [← hasDirectory_iff]
  constructor
  · intro rooted held member
    rcases List.eq_nil_or_concat held.1 with bare | ⟨front, last, whole⟩
    · exact .inl bare
    · rw [List.concat_eq_append] at whole
      rw [whole, List.dropLast_concat]
      exact .inr (rooted front last (get?_ne_none_iff.mpr ⟨held, member, whole⟩))
  · intro listed front last there
    rcases get?_ne_none_iff.mp there with ⟨held, member, whole⟩
    have parent := listed held member
    rw [whole, List.dropLast_concat] at parent
    exact parent.resolve_left (by simp)

instance : Decidable tree.Rooted :=
  decidable_of_iff _ rooted_iff.symm

example : system.Rooted := by decide +kernel

namespace Rooted

/-- Above whatever is in a tree there are directories. -/
theorem hasDirectory_above (rooted : tree.Rooted) {rest : Location} (inhabited : rest ≠ [])
    (there : tree.get? (base ++ rest) ≠ none) : tree.HasDirectory base := by
  induction rest using List.reverseRecOn with
  | nil => exact absurd rfl inhabited
  | append_singleton front name ih =>
      rw [← List.append_assoc] at there
      have parent := rooted _ _ there
      by_cases bare : front = []
      · rw [bare, List.append_nil] at parent
        exact parent
      · exact ih bare parent.ne_none

/-- Below what is no directory there is nothing. -/
theorem get?_below (rooted : tree.Rooted) {rest : Location} (inhabited : rest ≠ [])
    (absent : ¬tree.HasDirectory base) : tree.get? (base ++ rest) = none := by
  by_contra there
  exact absent (rooted.hasDirectory_above inhabited there)

/-- Whatever is in a tree can be reached through directories. -/
theorem leadsTo (rooted : tree.Rooted) (there : tree.get? (base ++ [name]) ≠ none) :
    tree.LeadsTo base := by
  rintro above ⟨rest, rfl⟩
  rw [List.append_assoc] at there
  exact rooted.hasDirectory_above (by simp) there

/-! ## Changes -/

/-- An entry may be put into a directory, but no file in place of a directory. -/
theorem set (rooted : tree.Rooted) {entry : Entry}
    (parent : ∀ above name, location = above ++ [name] → tree.HasDirectory above)
    (kind : tree.HasDirectory location → entry.isDirectory = true) :
    (tree.set location entry).Rooted := by
  have kept : ∀ above, tree.HasDirectory above → (tree.set location entry).HasDirectory above := by
    intro above present
    by_cases same : above = location
    · subst same
      exact .set (kind present)
    · exact present.of_get? (by rw [get?_set, if_neg same])
  intro above name there
  apply kept
  by_cases same : above ++ [name] = location
  · exact parent above name same.symm
  · rw [get?_set, if_neg same] at there
    exact rooted above name there

/-- A directory may be made in another one. -/
theorem set_child (rooted : tree.Rooted) {entry : Entry} (parent : tree.HasDirectory base)
    (kind : entry.isDirectory = true) : (tree.set (base ++ [name]) entry).Rooted := by
  refine rooted.set (fun above other same => ?_) (fun _ => kind)
  rw [(List.append_inj' same rfl).1] at parent
  exact parent

/-- An entry may be changed where it is. -/
theorem set_held (rooted : tree.Rooted) {entry changed : Entry}
    (held : tree.get? location = some entry) (kind : changed.isDirectory = entry.isDirectory) :
    (tree.set location changed).Rooted := by
  refine rooted.set (fun above name same => ?_) (fun present => ?_)
  · subst same
    exact rooted above name (held ▸ Option.some_ne_none entry)
  · rw [kind]
    exact present.isDirectory_of_get? held

theorem drop (rooted : tree.Rooted) (top : Location) : (tree.drop top).Rooted := by
  intro above name there
  rw [get?_drop] at there
  by_cases covers : top <+: above ++ [name]
  · rw [if_pos covers] at there
    exact absurd rfl there
  · rw [if_neg covers] at there
    refine (rooted above name there).of_get? ?_
    rw [get?_drop, if_neg fun inside => covers (inside.trans (List.prefix_append _ _))]

theorem dropBelow (rooted : tree.Rooted) (top : Location) : (tree.dropBelow top).Rooted := by
  intro above name there
  rw [get?_dropBelow] at there
  by_cases covers : top <+: above ++ [name] ∧ above ++ [name] ≠ top
  · rw [if_pos covers] at there
    exact absurd rfl there
  · rw [if_neg covers] at there
    refine (rooted above name there).of_get? ?_
    rw [get?_dropBelow, if_neg]
    rintro ⟨inside, _⟩
    refine covers ⟨inside.trans (List.prefix_append _ _), fun same => ?_⟩
    have longer := inside.length_le
    rw [← same, List.length_append, List.length_singleton] at longer
    omega

theorem move (rooted : tree.Rooted) {source : Location}
    (apart : ¬source <+: base ++ [name]) (outside : ¬base ++ [name] <+: source)
    (parent : tree.HasDirectory base) : (tree.move source (base ++ [name])).Rooted := by
  have stays : ∀ above, ¬source <+: above → ¬base ++ [name] <+: above → tree.HasDirectory above →
      (tree.move source (base ++ [name])).HasDirectory above :=
    fun above beside away present => present.of_get? (get?_move_of_outside beside away)
  intro above other there
  by_cases within : base ++ [name] <+: above
  · rcases within with ⟨rest, rfl⟩
    rw [List.append_assoc, get?_move_inside apart outside, ← List.append_assoc] at there
    rcases rooted _ _ there with ⟨entry, held, kind⟩
    exact ⟨entry, (get?_move_inside apart outside tree rest).trans held, kind⟩
  · by_cases target : base ++ [name] = above ++ [other]
    · rw [(List.append_inj' target rfl).1] at parent apart
      exact stays above (fun covers => apart (covers.trans (List.prefix_append _ _))) within parent
    · have away : ¬base ++ [name] <+: above ++ [other] := by
        rw [List.prefix_concat_iff]
        exact not_or.mpr ⟨target, within⟩
      by_cases gone : source <+: above ++ [other]
      · rcases gone with ⟨rest, same⟩
        rw [← same] at there
        exact absurd (get?_move_vacated apart outside tree rest) there
      · rw [get?_move_of_outside gone away] at there
        exact stays above (fun covers => gone (covers.trans (List.prefix_append _ _))) within
          (rooted above other there)

/-! ## Calls -/

section Calls

variable (rooted : tree.Rooted)

include rooted

theorem makeDirectory {made : Tree} {mode : UInt32} {route : Route}
    (done : tree.makeDirectory here mode route = .ok made) : made.Rooted := by
  rw [Tree.makeDirectory, bind_eq_ok_iff] at done
  rcases done with ⟨⟨parent, directory, last⟩, approached, done⟩
  rcases hasDirectory_of_approach approached with ⟨held, kind⟩
  split at done
  · rename_i location entry name same
    cases same
    rcases bind_eq_ok_iff.mp done with ⟨found, _, done⟩
    cases found with
    | some other => cases done
    | none =>
        cases done
        exact rooted.set_child ⟨_, held, kind⟩ rfl
  · cases done

theorem makeAfter {makeParents : Tree → Except SystemError Unit × Tree} {mode : UInt32}
    (route : Route) (parents : (makeParents tree).2.Rooted) :
    (Tree.makeAfter here mode route makeParents tree).2.Rooted := by
  unfold Tree.makeAfter
  split
  · rename_i made done
    exact rooted.makeDirectory done
  · split
    · rename_i cause made failed
      rw [failed] at parents
      exact parents
    · rename_i made succeeded
      rw [succeeded] at parents
      split
      · rename_i final done
        exact parents.makeDirectory done
      · split <;> exact parents
  · split <;> exact rooted

theorem makeAll (mode : UInt32) (absolute : Bool) (reversed : List Component) :
    (Tree.makeAll here mode absolute reversed tree).2.Rooted := by
  induction reversed with
  | nil => exact rooted
  | cons last others ih => exact rooted.makeAfter _ ih

theorem createDirectories (text : String) (mode : UInt32) :
    (tree.createDirectories here text mode).2.Rooted := by
  unfold Tree.createDirectories
  split
  · exact rooted
  · split
    · exact rooted
    · exact rooted.makeAfter _ (rooted.makeAll mode _ _)

/-- Changing what a path leads to, without making a file of a directory. -/
theorem change {changed : Tree} {text : String} {alter : Entry → Entry}
    (kind : ∀ entry, (alter entry).isDirectory = entry.isDirectory)
    (done : (do
      let (location, entry) ← tree.find here (← Route.ofText text)
      return tree.set location (alter entry) : Except SystemError Tree) = .ok changed) :
    changed.Rooted := by
  rcases bind_eq_ok_iff.mp done with ⟨route, _, done⟩
  rcases bind_eq_ok_iff.mp done with ⟨⟨location, entry⟩, found, done⟩
  cases done
  exact rooted.set_held (get?_of_find found) (kind entry)

theorem removeTree (text : String) : (tree.removeTree here text).2.Rooted := by
  unfold Tree.removeTree
  split
  · exact rooted
  · exact rooted
  · split
    · exact rooted
    · exact rooted
    · exact rooted
    · rename_i location _ _ _ _
      dsimp only
      split
      · rename_i removed done
        rcases bind_eq_ok_iff.mp done with ⟨reached, _, done⟩
        split at done
        · cases done
        · cases done
        · cases done
        · cases done
          exact (rooted.dropBelow location).drop _
      · exact rooted.dropBelow location
      · exact rooted.dropBelow location

theorem rename {renamed : Tree} {source target : String}
    (done : tree.rename here source target = .ok renamed) : renamed.Rooted := by
  rw [Tree.rename] at done
  split at done
  · cases done
  · rcases bind_eq_ok_iff.mp done with ⟨sourceRoute, _, leaving⟩
    rcases bind_eq_ok_iff.mp leaving with ⟨sourceEnd, left, aiming⟩
    rcases bind_eq_ok_iff.mp aiming with ⟨targetRoute, _, entering⟩
    rcases bind_eq_ok_iff.mp entering with ⟨targetEnd, approached, looking⟩
    clear done leaving aiming entering
    split at looking
    · rename_i parent _ sourceName targetParent _ targetName
      rcases hasDirectory_of_approach approached with ⟨held, kind⟩
      rcases bind_eq_ok_iff.mp looking with ⟨found, _, finding⟩
      cases found with
      | none => cases finding
      | some entry =>
          rcases bind_eq_ok_iff.mp finding with ⟨there, _, replaced⟩
          split at replaced
          · cases replaced
          · by_cases ne : parent ++ [sourceName] = targetParent ++ [targetName]
            · unfold Tree.replace at replaced
              rw [if_pos ne] at replaced
              cases replaced
              exact rooted
            · rcases (replace_eq_ok_iff ne).mp replaced with ⟨apart, outside, _, rfl⟩
              exact rooted.move apart outside ⟨_, held, kind⟩
    · cases looking

theorem settle {changed : Except SystemError Tree}
    (kept : ∀ result, changed = .ok result → result.Rooted) : (tree.settle changed).2.Rooted := by
  cases changed with
  | error cause => exact rooted
  | ok result => exact kept result rfl

/-- Every call keeps a tree a tree. -/
theorem answer (here : Location) (call : Call) : (tree.answer here call).2.Rooted := by
  cases call with
  | pathExists text => exact rooted
  | createDirectories text mode => exact rooted.createDirectories text mode
  | setMode text mode =>
      exact rooted.settle fun _ done => rooted.change (Entry.isDirectory_withMode mode) done
  | setOwner text user group =>
      exact rooted.settle fun _ done => rooted.change (Entry.isDirectory_withOwner user group) done
  | removeTree text => exact rooted.removeTree text
  | rename source target => exact rooted.settle fun _ done => rooted.rename done

end Calls
end Rooted
end Tree
end ExportVolumes
