import ExportVolumes.Proofs.Filesystem.Rename

namespace ExportVolumes

/-!
Archiving one directory after another.

Both directories are moved to a name in one parent.  Where the second one does not lie in the
first archive, it is either inside the first directory and gone with it
(`Tree.pathExists_of_inside`), or its archiving goes as it would have gone alone
(`Tree.rename_after`), and each archive holds what its directory held (`Tree.get?_archives`).
-/

namespace Tree

/-! ## Beside a directory that was moved -/

theorem not_prefix_sibling {parent : Location} {name other : String} (ne : name ≠ other) :
    ¬ parent ++ [name] <+: parent ++ [other] := by
  intro covers
  have same := covers.eq_of_length (by simp)
  exact ne (List.singleton_inj.mp (List.append_cancel_left same))

section Beside

variable {tree : Tree} {source parent : Location} {name other : String}
  (apart : ¬ source <+: parent ++ [name])

include apart

theorem not_prefix_parent : ¬ source <+: parent :=
  fun above => apart (above.trans (List.prefix_append _ _))

/-- A move to a name leaves the way to every other name beside it. -/
theorem get?_move_toward {above : Location} (prior : above <+: parent ++ [other])
    (ne : above ≠ parent ++ [other]) :
    (tree.move source (parent ++ [name])).get? above = tree.get? above := by
  have higher := (List.prefix_concat_iff.mp prior).resolve_left ne
  refine get?_move_of_outside (fun covers => not_prefix_parent apart (covers.trans higher)) ?_
  intro covers
  have longer := (covers.trans higher).length_le
  rw [List.length_append, List.length_singleton] at longer
  omega

/-- A move to a name frees every other name beside it or leaves it as it was. -/
theorem get?_move_sibling (outside : ¬ parent ++ [name] <+: source) (ne : name ≠ other) :
    (tree.move source (parent ++ [name])).get? (parent ++ [other]) = none ∨
      (tree.move source (parent ++ [name])).get? (parent ++ [other]) =
          tree.get? (parent ++ [other]) ∧
        ((tree.move source (parent ++ [name])).hasChildren (parent ++ [other]) = true →
          tree.hasChildren (parent ++ [other]) = true) := by
  by_cases covers : source <+: parent ++ [other]
  · have same := (List.prefix_concat_iff.mp covers).resolve_right (not_prefix_parent apart)
    rw [← same]
    exact Or.inl (get?_move_source tree outside)
  · exact Or.inr ⟨get?_move_of_outside covers (not_prefix_sibling ne),
      hasChildren_of_move (not_prefix_sibling ne) (not_prefix_sibling ne.symm)⟩

end Beside

/-! ## One archive after another -/

/-- The directory of one volume and the place of its archive, as paths of a layout. -/
structure Archival (here parent : Location) (source target : Path) (name : String) : Prop where
  leaves : source.Descends
  enters : target.Descends
  begins : start here (.ofPath source) <+: parent
  aims : target.location here = parent ++ [name]
  ne : source.location here ≠ target.location here
  inhabited : source.components ≠ []
  inhabited_target : target.components ≠ []

section After

variable {tree moved alone : Tree} {here parent : Location} {source target other goal : Path}
  {name otherName : String} (one : Archival here parent source target name)
  (two : Archival here parent other goal otherName) (ne : name ≠ otherName)
  (elsewhere : ¬ target.location here <+: other.location here)
  (archived : tree.rename here source.text target.text = .ok moved)
  (feasible : tree.rename here other.text goal.text = .ok alone)

include one archived

theorem archived_eq :
    ¬ source.location here <+: parent ++ [name] ∧ ¬ parent ++ [name] <+: source.location here ∧
      moved = tree.move (source.location here) (parent ++ [name]) := by
  have done := rename_ok one.leaves one.enters one.inhabited one.inhabited_target one.ne archived
  rwa [one.aims] at done

/-- The archive of a directory holds what the directory held. -/
theorem get?_archive (rest : Location) :
    moved.get? (target.location here ++ rest) = tree.get? (source.location here ++ rest) := by
  rcases archived_eq one archived with ⟨clear, outside, same⟩
  rw [same, one.aims]
  exact get?_move_inside clear outside tree rest

include elsewhere

/-- On the way to another directory, all but the directory that was archived is as it was. -/
theorem get?_archived {above : Location} (prior : above <+: other.location here)
    (apart : ¬ source.location here <+: above) : moved.get? above = tree.get? above := by
  rcases archived_eq one archived with ⟨_, _, rfl⟩
  refine get?_move_of_outside apart (fun covers => elsewhere ?_)
  rw [one.aims]
  exact covers.trans prior

include two

/-- A directory inside one that was archived is gone with it. -/
theorem pathExists_of_inside (inside : source.location here <+: other.location here)
    (there : tree.pathExists here other.text = .ok true) :
    moved.pathExists here other.text = .ok false := by
  rcases archived_eq one archived with ⟨clear, outside, same⟩
  have lower : ¬ source.location here <+: start here (.ofPath other) :=
    fun covers => not_prefix_parent clear (covers.trans two.begins)
  refine pathExists_of_absent two.leaves two.inhabited there inside lower
    (same ▸ get?_move_source tree outside) (fun above apart prior => ?_)
  exact get?_archived one elsewhere archived prior apart

/-- A directory that is not inside one that was archived is still there. -/
theorem pathExists_of_apart (apart : ¬ source.location here <+: other.location here)
    (there : tree.pathExists here other.text = .ok true) :
    moved.pathExists here other.text = .ok true :=
  pathExists_of_agree two.leaves two.inhabited there (fun _ prior =>
    get?_archived one elsewhere archived prior (fun covers => apart (covers.trans prior)))

include ne feasible

/-- Archiving one directory leaves the archiving of another one that is not inside it. -/
theorem rename_after (apart : ¬ source.location here <+: other.location here) :
    moved.rename here other.text goal.text =
      .ok (moved.move (other.location here) (goal.location here)) := by
  rcases archived_eq one archived with ⟨clear, outside, same⟩
  refine rename_of_agree two.leaves two.enters two.inhabited two.inhabited_target two.ne feasible
    (fun above prior => get?_archived one elsewhere archived prior
      (fun covers => apart (covers.trans prior))) (fun above prior lower => ?_) ?_
  · rw [two.aims] at prior lower
    rw [same]
    exact get?_move_toward clear prior lower
  · rw [two.aims, same]
    exact get?_move_sibling clear outside ne

omit archived ne in
/-- Another directory that can be archived does not lie above the first archive either. -/
theorem not_prefix_archive : ¬ other.location here <+: target.location here := by
  rcases archived_eq two feasible with ⟨clear, _, _⟩
  intro covers
  rw [one.aims] at covers elsewhere
  rcases List.prefix_concat_iff.mp covers with same | above
  · exact elsewhere (same ▸ List.prefix_rfl)
  · exact clear (above.trans (List.prefix_append _ _))

/-- After both directories were archived, each archive holds what its directory held. -/
theorem get?_archives (rest : Location) :
    (moved.move (other.location here) (goal.location here)).get? (target.location here ++ rest) =
        tree.get? (source.location here ++ rest) ∧
      (¬ source.location here <+: other.location here ++ rest →
        (moved.move (other.location here) (goal.location here)).get? (goal.location here ++ rest) =
          tree.get? (other.location here ++ rest)) := by
  rcases archived_eq one archived with ⟨clear, outside, same⟩
  rcases archived_eq two feasible with ⟨clearOther, outsideOther, _⟩
  have beyond := not_prefix_archive one two elsewhere feasible
  constructor
  · rw [get?_move_of_outside (not_covers_below elsewhere beyond rest)]
    · exact get?_archive one archived rest
    · rw [two.aims, one.aims]
      exact not_covers_below (not_prefix_sibling ne) (not_prefix_sibling ne.symm) rest
  · intro apart
    rw [two.aims, get?_move_inside clearOther outsideOther, same]
    refine get?_move_of_outside apart ?_
    rw [← one.aims]
    exact not_covers_below beyond elsewhere rest

end After

end Tree
end ExportVolumes
