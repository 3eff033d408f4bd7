import ExportVolumes.Proofs.Filesystem.Way
import ExportVolumes.Proofs.Layout.RoundTrip

namespace ExportVolumes

/-!
Back from a server path, wherever the export is mounted.

A volume is found under the text that it was built with, except where the mount root is the
working directory: there the volume is built behind a mark of the current directory that mapping
its server path back leaves out (`Layout.finds_built`).  The mark leads nowhere: both texts lead
to one place on every tree (`Tree.leadsAlike_marked`).
-/

namespace Tree

/-- The second text leads, on every tree and from every place, wherever the first one leads. -/
def LeadsAlike (first second : String) : Prop :=
  ∀ (tree : Tree) here place, (Route.ofText first).bind (tree.find here) = .ok place →
    (Route.ofText second).bind (tree.find here) = .ok place

theorem LeadsAlike.refl (text : String) : LeadsAlike text text :=
  fun _ _ _ => id

theorem toList_marked (text : String) : ("./" ++ text).toList = ['.'] ++ '/' :: text.toList := by
  rw [String.toList_append]
  rfl

/-- A mark of the current directory is one step more on the way. -/
theorem ofText_marked {text : String} {route : Route} (inhabited : text ≠ "")
    (relative : text.toList.head? ≠ some '/') (taken : Route.ofText ("./" ++ text) = .ok route) :
    ∃ rest : Route, Route.ofText text = .ok rest ∧ rest.absolute = false ∧
      route = { rest with steps := .current :: rest.steps } := by
  unfold Route.ofText at taken
  split at taken
  · cases taken
  · rename_i free
    split at taken
    · cases taken
    · rename_i short
      split at taken
      · cases taken
      · have freeRest : ¬ text.toList.contains '\x00' = true := by
          rw [toList_marked] at free
          simpa using free
        have shortRest : ¬ 4096 ≤ text.utf8ByteSize := by
          rw [String.utf8ByteSize_append] at short
          omega
        have inhabitedRest : ¬ text.isEmpty = true := by simpa using inhabited
        refine ⟨Route.ofChars text.toList, ?_, decide_eq_false relative, ?_⟩
        · rw [Route.ofText, if_neg freeRest, if_neg shortRest, if_neg inhabitedRest]
        · rw [← Except.ok.inj taken]
          have last : ("./" ++ text).toList.getLast? = text.toList.getLast? := by
            rw [toList_marked, List.append_cons]
            exact List.getLast?_append_of_ne_nil _ (by simpa using inhabited)
          have steps : (Path.pieces ("./" ++ text).toList).filterMap Route.ofPiece? =
              .current :: (Path.pieces text.toList).filterMap Route.ofPiece? := by
            rw [toList_marked, Path.pieces_append_slash]
            rfl
          have opens : decide (("./" ++ text).toList.head? = some '/') =
              decide (text.toList.head? = some '/') := by
            rw [decide_eq_false relative, toList_marked]
            rfl
          simp only [Route.ofChars, last, steps, opens]

/-- The mark of the current directory leads nowhere. -/
theorem leadsAlike_marked {text : String} (inhabited : text ≠ "")
    (relative : text.toList.head? ≠ some '/') : LeadsAlike ("./" ++ text) text := by
  intro tree here place found
  cases taken : Route.ofText ("./" ++ text) with
  | error cause =>
      rw [taken] at found
      cases found
  | ok route =>
      rcases ofText_marked inhabited relative taken with ⟨rest, there, kind, rfl⟩
      rw [taken] at found
      rw [there]
      have begins : start here { rest with steps := .current :: rest.steps } = here := by
        simp [start, kind]
      have restBegins : start here rest = here := by simp [start, kind]
      simp only [Except.bind, find, begins, restBegins, walk, List.foldlM_cons] at found ⊢
      cases standing : tree.step here .current with
      | error cause =>
          rw [standing] at found
          cases found
      | ok location =>
          -- Standing still ends where it begins.
          have same : location = here := by
            unfold step at standing
            split at standing
            · cases standing
            · cases standing
            · exact (Except.ok.inj standing).symm
          rw [standing, same] at found
          exact found

end Tree

namespace Layout

variable (exportPath mountRoot : String)

theorem text_names (names : List String) : (⟨false, names.map .name⟩ : Path).text = tail names := by
  rw [← String.toList_inj, Path.toList_text, toList_tail]
  rfl

theorem head?_tail {names : List String} (ordinary : ∀ name ∈ names, Path.IsOrdinary name) :
    (tail names).toList.head? ≠ some '/' := by
  rw [toList_tail]
  exact Path.head?_joined_ne_slash (Tree.ordinary_names ordinary)

theorem tail_ne_empty {names : List String} (inhabited : names ≠ [])
    (ordinary : ∀ name ∈ names, Path.IsOrdinary name) : tail names ≠ "" := by
  intro empty
  have folded := climbFreeNames?_tail ordinary
  rw [empty] at folded
  exact inhabited (Option.some.inj folded).symm

/-- Below a mount root that is the working directory, a server path is mapped back to the names
of its suffix. -/
theorem localPathFor_of_here {names : List String}
    (bare : (ofTexts exportPath mountRoot).mountRoot = Path.here) (inhabited : names ≠ [])
    (ordinary : ∀ name ∈ names, Path.IsOrdinary name) :
    (ofTexts exportPath mountRoot).localPathFor
        ((ofTexts exportPath mountRoot).exportRoot.extend names).text = tail names := by
  have relative := ofText_dropSlashes_relative (tail names)
  have root : (Path.ofText mountRoot).clean = Path.here := bare
  have reached := Path.names_join (Path.ofText mountRoot) relative
  have absolute := Path.join_clean_absolute (Path.ofText mountRoot) relative
  rw [ascent_tail ordinary, root] at reached
  rw [root] at absolute
  have led : (Path.here.join (Path.ofText (dropSlashes (tail names)))).names = names := by
    rw [reached]
    exact List.reverse_reverse names
  have away : (Path.here.join (Path.ofText (dropSlashes (tail names)))).clean ≠ Path.here := by
    intro same
    exact inhabited (led ▸ (Path.clean_eq_here_iff.mp same).2)
  simp only [localPathFor, belowExport?_extend, bare]
  rw [Path.clean_eq_of_ne_here away, led, absolute]
  exact text_names names

/-- The server path of a volume is mapped back to where it was built, but for the mark of a
mount root that is the working directory. -/
theorem finds_built {metadata : ClaimMetadata} {volumeName : String} {pattern : Option String}
    {paths : VolumePaths}
    (built : (ofTexts exportPath mountRoot).build metadata volumeName pattern = .ok paths) :
    Tree.LeadsAlike paths.localPath
        ((ofTexts exportPath mountRoot).localPathFor paths.serverPath) ∧
      ((ofTexts exportPath mountRoot).mountRoot.text ≠ "." →
        (ofTexts exportPath mountRoot).localPathFor paths.serverPath = paths.localPath) := by
  rcases build_eq_ok_iff.mp built with ⟨names, climbFree, rfl⟩
  have ordinary : ∀ name ∈ names, Path.IsOrdinary name :=
    fun name member => isOrdinary_of_climbFreeNames climbFree member
  by_cases bare : (ofTexts exportPath mountRoot).mountRoot = Path.here
  · refine ⟨?_, fun rooted => absurd (bare ▸ rfl) rooted⟩
    by_cases empty : names = []
    · -- A suffix that folds to nothing leaves the working directory itself.
      have found : (ofTexts exportPath mountRoot).localPathFor
          ((ofTexts exportPath mountRoot).exportRoot.extend names).text = "." := by
        simp only [localPathFor, belowExport?_extend, bare, empty]
        decide
      have made : ((ofTexts exportPath mountRoot).mountRoot.extend names).text = "." := by
        rw [bare, empty]
        decide
      simp only [found, made]
      exact .refl "."
    · have marked : ((ofTexts exportPath mountRoot).mountRoot.extend names).text =
          "./" ++ tail names := by
        rw [bare, text_extend _ empty, if_neg (by decide)]
        rfl
      simp only [marked, localPathFor_of_here exportPath mountRoot bare empty ordinary]
      exact Tree.leadsAlike_marked (tail_ne_empty empty ordinary) (head?_tail ordinary)
  · have found := localPathFor_of_belowExport? exportPath mountRoot bare
      (belowExport?_extend exportPath mountRoot names) (climbFreeNames?_tail ordinary)
    rw [found]
    exact ⟨.refl _, fun _ => rfl⟩

end Layout
end ExportVolumes
