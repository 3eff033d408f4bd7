import ExportVolumes.Filesystem.Calls
import ExportVolumes.Proofs.Filesystem.Lookup
import ExportVolumes.Proofs.Filesystem.Refusal
import ExportVolumes.Proofs.Path.Folding
import ExportVolumes.Proofs.Program.Trace

namespace ExportVolumes

/-!
Renaming between any two places.

A path that never climbs leads to one location, `Path.location`, wherever it can be followed.
Following it asks for what is held above that location and at it, so it goes alike on two trees
that agree there (`Tree.walk_of_agree`).  A renaming that succeeds moves one location to the other
(`Tree.rename_ok`), and it succeeds on another tree that agrees on the ways to both and has
nothing more at the target (`Tree.rename_of_agree`).
-/

namespace Path

/-- A path in the form that reading gives, without parent marks. -/
structure Descends (path : Path) : Prop where
  read : path.IsRead
  free : .parent ∉ path.components

/-- Where a path leads that never climbs. -/
def location (here : Location) (path : Path) : Location :=
  (if path.absolute then [] else here) ++ path.names

end Path

/-- The names that a component leads through. -/
def Component.names : Component → List String
  | .name text => [text]
  | _ => []

theorem Path.foldl_fold_of_free {components : List Component} (free : .parent ∉ components)
    (stack : List String) :
    components.foldl fold stack = (components.flatMap Component.names).reverse ++ stack := by
  induction components generalizing stack with
  | nil => rfl
  | cons component rest ih =>
      have onward := ih (fun member => free (List.mem_cons_of_mem _ member))
      rw [List.foldl_cons, onward, List.flatMap_cons, List.reverse_append, List.append_assoc]
      congr 1
      cases component with
      | current => rfl
      | parent => exact absurd List.mem_cons_self free
      | name text => rfl

theorem Path.Descends.names_eq {path : Path} (descends : path.Descends) :
    path.names = path.components.flatMap Component.names := by
  rw [names, foldedNames, foldl_fold_of_free descends.free, List.append_nil, List.reverse_reverse]

/-! ## Routes -/

namespace Route

/-- A path is followed through its components. -/
def ofPath (path : Path) : Route :=
  ⟨path.absolute, path.components, false⟩

theorem ofPiece?_text {component : Component}
    (ordinary : ∀ name, component = .name name → Path.IsOrdinary name) :
    ofPiece? component.text.toList = some component := by
  rw [ofPiece?]
  by_cases mark : component = .current
  · rw [mark]
    rfl
  · rw [if_neg (fun same => mark ((Path.text_eq_dot_iff ordinary).mp same))]
    exact Path.ofPiece?_text mark ordinary

/-- The pieces of the text of a path. -/
theorem pieces_text {path : Path} (read : path.IsRead) (inhabited : path.components ≠ []) :
    Path.pieces path.text.toList =
      (if path.absolute then [[]] else []) ++
        path.components.map (fun component => component.text.toList) := by
  have cut := Path.pieces_joined inhabited read.ordinary
  rw [Path.toList_text]
  cases path.absolute with
  | true =>
      have slash := Path.pieces_append_slash [] (Path.joined path.components)
      rw [cut] at slash
      exact slash
  | false => exact cut

theorem steps_text {path : Path} (read : path.IsRead) (inhabited : path.components ≠ []) :
    (Path.pieces path.text.toList).filterMap ofPiece? = path.components := by
  have back : ∀ component ∈ path.components,
      (ofPiece? ∘ fun component => component.text.toList) component = some component :=
    fun component member => ofPiece?_text (fun name same => read.ordinary name (same ▸ member))
  rw [pieces_text read inhabited, List.filterMap_append, List.filterMap_map,
    List.filterMap_congr back, List.filterMap_some]
  cases path.absolute <;> rfl

/-- The text of a path that has components does not end in a slash. -/
theorem getLast?_text {path : Path} (read : path.IsRead) (inhabited : path.components ≠ []) :
    path.text.toList.getLast? ≠ some '/' := by
  intro last
  rcases List.getLast?_eq_some_iff.mp last with ⟨front, ends⟩
  have cut := pieces_text read inhabited
  rw [ends, Path.pieces_append_slash] at cut
  obtain ⟨rest, latest, whole⟩ := List.eq_nil_or_concat path.components |>.resolve_left inhabited
  rw [whole, List.concat_eq_append, List.map_append, ← List.append_assoc] at cut
  have empty := (List.append_inj' cut rfl).2
  have member : latest ∈ path.components := by simp [whole]
  exact Path.text_ne_empty (fun name same => read.ordinary name (same ▸ member))
    (List.singleton_inj.mp empty).symm

theorem head?_text {path : Path} (read : path.IsRead) :
    path.text.toList.head? = some '/' ↔ path.absolute = true := by
  rw [Path.toList_text]
  cases path.absolute with
  | true => exact iff_of_true rfl rfl
  | false => exact iff_of_false (Path.head?_joined_ne_slash read.ordinary) Bool.false_ne_true

/-- The text of a path, where a call can take it, is followed through the components. -/
theorem ofText_text {path : Path} (read : path.IsRead) (inhabited : path.components ≠ [])
    {route : Route} (taken : ofText path.text = .ok route) : route = ofPath path := by
  unfold ofText at taken
  split at taken
  · cases taken
  · split at taken
    · cases taken
    · split at taken
      · cases taken
      · have opens : decide (path.text.toList.head? = some '/') = path.absolute := by
          rw [Bool.eq_iff_iff, decide_eq_true_eq]
          exact head?_text read
        rw [← Except.ok.inj taken, ofChars, opens, steps_text read inhabited,
          decide_eq_false (getLast?_text read inhabited), ofPath]

end Route

/-! ## Following a path -/

namespace Tree

variable {before after : Tree} {here base location : Location} {steps : List Component}

theorem walk_cons (tree : Tree) (base : Location) (component : Component)
    (steps : List Component) :
    tree.walk base (component :: steps) =
      (tree.step base component).bind (fun next => tree.walk next steps) :=
  List.foldlM_cons

theorem step_ok {tree : Tree} {component : Component} {next : Location}
    (free : component ≠ .parent) (stepped : tree.step location component = .ok next) :
    next = location ++ component.names := by
  unfold step at stepped
  split at stepped
  · cases stepped
  · cases stepped
  · cases component with
    | current =>
        cases stepped
        exact (List.append_nil _).symm
    | parent => exact absurd rfl free
    | name name =>
        simp only [bind, Except.bind] at stepped
        split at stepped
        · cases stepped
        · split at stepped
          · cases stepped
            rfl
          · cases stepped

theorem walk_ok {tree : Tree} (free : .parent ∉ steps)
    (walked : tree.walk base steps = .ok location) :
    location = base ++ steps.flatMap Component.names := by
  induction steps generalizing base with
  | nil =>
      cases walked
      exact (List.append_nil _).symm
  | cons component rest ih =>
      rw [walk_cons] at walked
      cases stepped : tree.step base component with
      | error cause =>
          rw [stepped] at walked
          cases walked
      | ok next =>
          rw [stepped] at walked
          have first := step_ok (fun same => free (same ▸ List.mem_cons_self)) stepped
          have later := ih (fun member => free (List.mem_cons_of_mem _ member)) walked
          rw [later, first, List.flatMap_cons, List.append_assoc]

/-- A step asks for what is held where it begins and where it leads. -/
theorem step_of_agree {component : Component} {next : Location} (free : component ≠ .parent)
    (stepped : before.step location component = .ok next)
    (here : after.get? location = before.get? location)
    (there : after.get? next = before.get? next) : after.step location component = .ok next := by
  have leads := step_ok free stepped
  unfold step at stepped ⊢
  rw [here]
  cases component with
  | current => exact stepped
  | parent => exact absurd rfl free
  | name name =>
      rw [leads] at there
      simp only [look] at stepped ⊢
      rw [show after.get? (location ++ [name]) = before.get? (location ++ [name]) from there]
      exact stepped

theorem step_of_absent {name : String} {next : Location}
    (stepped : before.step location (.name name) = .ok next)
    (here : after.get? location = before.get? location)
    (absent : after.get? (location ++ [name]) = none) :
    after.step location (.name name) = .error .notFound := by
  unfold step at stepped ⊢
  rw [here]
  split at stepped
  · cases stepped
  · cases stepped
  · simp only [look, absent] at stepped ⊢
    split at stepped
    · cases stepped
    · rename_i short
      rw [if_neg short]
      rfl

/-- A way is followed alike on a tree that holds the same above its end and there. -/
theorem walk_of_agree (free : .parent ∉ steps) (walked : before.walk base steps = .ok location)
    (agree : ∀ above, above <+: location → after.get? above = before.get? above) :
    after.walk base steps = .ok location := by
  induction steps generalizing base with
  | nil => exact walked
  | cons component rest ih =>
      have unclimbed : component ≠ .parent := fun same => free (same ▸ List.mem_cons_self)
      have onward : .parent ∉ rest := fun member => free (List.mem_cons_of_mem _ member)
      rw [walk_cons] at walked ⊢
      cases stepped : before.step base component with
      | error cause =>
          rw [stepped] at walked
          cases walked
      | ok next =>
          rw [stepped] at walked
          have beyond : next <+: location := walk_ok onward walked ▸ List.prefix_append _ _
          have behind : base <+: next := step_ok unclimbed stepped ▸ List.prefix_append _ _
          rw [step_of_agree unclimbed stepped (agree base (behind.trans beyond))
            (agree next beyond)]
          exact ih onward walked

/-- A way ends where something on it is gone. -/
theorem walk_of_absent {top : Location} (free : .parent ∉ steps)
    (walked : before.walk base steps = .ok location) (covers : top <+: location)
    (outside : ¬ top <+: base) (absent : after.get? top = none)
    (agree : ∀ above, ¬ top <+: above → above <+: location →
      after.get? above = before.get? above) :
    after.walk base steps = .error .notFound := by
  induction steps generalizing base with
  | nil =>
      cases walked
      exact absurd covers outside
  | cons component rest ih =>
      have unclimbed : component ≠ .parent := fun same => free (same ▸ List.mem_cons_self)
      have onward : .parent ∉ rest := fun member => free (List.mem_cons_of_mem _ member)
      rw [walk_cons] at walked ⊢
      cases stepped : before.step base component with
      | error cause =>
          rw [stepped] at walked
          cases walked
      | ok next =>
          rw [stepped] at walked
          have leads := step_ok unclimbed stepped
          have beyond : next <+: location := walk_ok onward walked ▸ List.prefix_append _ _
          have behind : base <+: next := leads ▸ List.prefix_append _ _
          have same := agree base outside (behind.trans beyond)
          by_cases reached : top <+: next
          · -- The step that enters what is gone is the first one that fails.
            cases component with
            | current => exact absurd (by simpa [leads, Component.names] using reached) outside
            | parent => exact absurd rfl unclimbed
            | name name =>
                rw [leads] at reached
                rcases List.prefix_concat_iff.mp reached with whole | above
                · rw [step_of_absent stepped same (whole ▸ absent)]
                  rfl
                · exact absurd above outside
          · rw [step_of_agree unclimbed stepped same (agree next reached beyond)]
            exact ih onward walked reached

/-! ## Looking at a path -/

variable {path : Path}

theorem find_eq (tree : Tree) (here : Location) (path : Path) :
    tree.find here (.ofPath path) =
      (tree.walk (start here (.ofPath path)) path.components).bind fun location =>
        (tree.get? location).elim (.error .notFound) (fun entry => .ok (location, entry)) := by
  rw [find]
  refine congrArg (Except.bind _) (funext fun location => ?_)
  cases tree.get? location <;> rfl

theorem walk_location {tree : Tree} (descends : path.Descends)
    (walked : tree.walk (start here (.ofPath path)) path.components = .ok location) :
    location = path.location here := by
  rw [walk_ok descends.free walked, ← descends.names_eq]
  rfl

/-- A path that is there is followed to its location. -/
theorem walk_of_pathExists {tree : Tree} (descends : path.Descends)
    (inhabited : path.components ≠ []) (there : tree.pathExists here path.text = .ok true) :
    Route.ofText path.text = .ok (.ofPath path) ∧
      tree.walk (start here (.ofPath path)) path.components = .ok (path.location here) ∧
      ∃ entry, tree.get? (path.location here) = some entry := by
  rw [pathExists] at there
  cases taken : Route.ofText path.text with
  | error cause =>
      rw [taken] at there
      cases cause <;> cases there
  | ok route =>
      rw [taken, Route.ofText_text descends.read inhabited taken] at there
      rw [Route.ofText_text descends.read inhabited taken]
      simp only [Except.bind, find_eq] at there
      cases walked : tree.walk (start here (.ofPath path)) path.components with
      | error cause =>
          rw [walked] at there
          cases cause <;> cases there
      | ok location =>
          have same := walk_location descends walked
          rw [walked] at there
          cases held : tree.get? location with
          | none =>
              simp only [held] at there
              cases there
          | some entry => exact ⟨rfl, by rw [same], entry, same ▸ held⟩

/-- A path that is there is there on a tree that holds the same above it and at it. -/
theorem pathExists_of_agree (descends : path.Descends) (inhabited : path.components ≠ [])
    (there : before.pathExists here path.text = .ok true)
    (agree : ∀ above, above <+: path.location here → after.get? above = before.get? above) :
    after.pathExists here path.text = .ok true := by
  rcases walk_of_pathExists descends inhabited there with ⟨taken, walked, entry, held⟩
  have found : after.find here (.ofPath path) = .ok (path.location here, entry) := by
    rw [find_eq, walk_of_agree descends.free walked agree, Except.bind, agree _ List.prefix_rfl,
      held]
    rfl
  rw [pathExists, taken]
  simp only [Except.bind, found]

/-- A path is not there when something above it is gone. -/
theorem pathExists_of_absent {top : Location} (descends : path.Descends)
    (inhabited : path.components ≠ []) (there : before.pathExists here path.text = .ok true)
    (covers : top <+: path.location here) (outside : ¬ top <+: start here (.ofPath path))
    (absent : after.get? top = none)
    (agree : ∀ above, ¬ top <+: above → above <+: path.location here →
      after.get? above = before.get? above) :
    after.pathExists here path.text = .ok false := by
  rcases walk_of_pathExists descends inhabited there with ⟨taken, walked, _⟩
  have lost : after.find here (.ofPath path) = .error .notFound := by
    rw [find_eq, walk_of_absent descends.free walked covers outside absent agree]
    rfl
  rw [pathExists, taken]
  simp only [Except.bind, lost]

/-! ## What a move leaves -/

section Move

variable {source target : Location} (apart : ¬ source <+: target) (outside : ¬ target <+: source)

include apart outside

theorem not_covers_below (rest : Location) : ¬ target <+: source ++ rest := by
  intro covers
  rcases List.prefix_or_prefix_of_prefix covers (List.prefix_append source rest) with above | below
  · exact outside above
  · exact apart below

/-- What was below the source of a move is below its target. -/
theorem get?_move_inside (tree : Tree) (rest : Location) :
    (tree.move source target).get? (target ++ rest) = tree.get? (source ++ rest) := by
  have comes : ∀ held ∈ (tree.drop target).entries,
      moved source target held.1 = target ++ rest ↔ held.1 = source ++ rest := by
    intro held member
    by_cases inside : source <+: held.1
    · rw [moved_of_inside inside]
      rcases inside with ⟨below, longer⟩
      rw [← longer]
      simp
    · rw [moved_of_outside inside]
      refine iff_of_false ?_ (fun same => inside (same ▸ List.prefix_append _ _))
      intro same
      have kept := (List.mem_filter.mp member).2
      simp [same, within_eq_true_iff.mpr (List.prefix_append target rest)] at kept
  rw [get?, move, lookup_map_fst comes]
  exact (get?_drop tree target (source ++ rest)).trans (if_neg (not_covers_below apart outside rest))

/-- Nothing is left where a move began, nor below. -/
theorem get?_move_vacated (tree : Tree) (rest : Location) :
    (tree.move source target).get? (source ++ rest) = none := by
  rw [get?, move, List.lookup_eq_none_iff]
  intro held member
  rcases List.mem_map.mp member with ⟨origin, _, rfl⟩
  apply bne_iff_ne.mpr
  intro same
  by_cases inside : source <+: origin.1
  · rw [moved_of_inside inside] at same
    exact not_covers_below apart outside rest (same ▸ List.prefix_append target _)
  · rw [moved_of_outside inside] at same
    exact inside (same ▸ List.prefix_append source rest)

end Move

/-- A move puts nothing below a location that is apart from its target. -/
theorem hasChildren_of_move {tree : Tree} {source target goal : Location}
    (apart : ¬ target <+: goal) (outside : ¬ goal <+: target)
    (more : (tree.move source target).hasChildren goal = true) : tree.hasChildren goal = true := by
  rcases List.any_eq_true.mp more with ⟨_, member, below⟩
  rcases List.mem_map.mp member with ⟨held, kept, rfl⟩
  rw [Bool.and_eq_true, decide_eq_true_eq, within_eq_true_iff] at below
  have still : moved source target held.1 = held.1 := by
    refine moved_of_outside (fun inside => ?_)
    rw [moved_of_inside inside] at below
    exact not_covers_below apart outside _ below.1
  rw [still] at below
  refine List.any_eq_true.mpr ⟨held, List.mem_of_mem_filter kept, ?_⟩
  rw [Bool.and_eq_true, decide_eq_true_eq, within_eq_true_iff]
  exact below

/-! ## Renaming -/

/-- What renaming asks of the tree about the path of a name: the way to the directory of the name,
and that the name is not too long. -/
structure Approaches (tree : Tree) (here : Location) (path : Path) (parent : Location)
    (name : String) : Prop where
  taken : Route.ofText path.text = .ok (.ofPath path)
  walked : tree.walk (start here (.ofPath path)) path.components.dropLast = .ok parent
  directory : tree.HasDirectory parent
  last : path.components.getLast? = some (.name name)
  short : ¬ Route.maxNameSize < name.utf8ByteSize

namespace Approaches

variable {tree : Tree} {parent : Location} {name : String}

theorem approach (approaches : tree.Approaches here path parent name) :
    ∃ directory, tree.approach here (.ofPath path) =
      .ok (parent, directory, some (.name name)) := by
  rcases approaches.directory with ⟨entry, held, kind⟩
  refine ⟨entry, ?_⟩
  rw [Tree.approach]
  change (tree.walk (start here (.ofPath path)) path.components.dropLast).bind _ = _
  rw [approaches.walked, ← approaches.last, Except.bind, held]
  cases entry with
  | directory => rfl
  | file => cases kind

theorem location_eq (descends : path.Descends)
    (approaches : tree.Approaches here path parent name) :
    path.location here = parent ++ [name] := by
  have whole := List.dropLast_append_getLast? _ approaches.last
  have free : .parent ∉ path.components.dropLast :=
    fun member => descends.free (List.dropLast_subset _ member)
  have names : path.components.flatMap Component.names =
      path.components.dropLast.flatMap Component.names ++ [name] := by
    conv => lhs; rw [← whole]
    simp [Component.names]
  rw [walk_ok free approaches.walked, List.append_assoc, ← names, ← descends.names_eq]
  rfl

theorem of_agree (descends : path.Descends) (approaches : before.Approaches here path parent name)
    (agree : ∀ above, above <+: parent → after.get? above = before.get? above) :
    after.Approaches here path parent name where
  taken := approaches.taken
  walked := walk_of_agree (fun member => descends.free (List.dropLast_subset _ member))
    approaches.walked agree
  directory := approaches.directory.of_get? (agree parent List.prefix_rfl)
  last := approaches.last
  short := approaches.short

end Approaches

theorem approaches_of_ok {tree : Tree} {parent : Location} {directory : Entry} {name : String}
    {route : Route} (descends : path.Descends) (inhabited : path.components ≠ [])
    (taken : Route.ofText path.text = .ok route)
    (approached : tree.approach here route = .ok (parent, directory, some (.name name)))
    (short : ¬ Route.maxNameSize < name.utf8ByteSize) :
    tree.Approaches here path parent name := by
  have same := Route.ofText_text descends.read inhabited taken
  subst same
  rw [approach] at approached
  change (tree.walk (start here (.ofPath path)) path.components.dropLast).bind _ = _ at approached
  cases walked : tree.walk (start here (.ofPath path)) path.components.dropLast with
  | error cause =>
      rw [walked] at approached
      cases approached
  | ok location =>
      rw [walked, Except.bind] at approached
      cases held : tree.get? location with
      | none =>
          rw [held] at approached
          cases approached
      | some entry =>
          rw [held] at approached
          cases entry with
          | file => cases approached
          | directory mode user group =>
              have parts := Prod.mk.inj (Except.ok.inj approached)
              have ends := (Prod.mk.inj parts.2).2
              rw [parts.1] at walked held
              exact ⟨taken, walked, ⟨_, held, rfl⟩, ends, short⟩

theorem look_ok {tree : Tree} {parent : Location} {name : String} {held : Option Entry} :
    tree.look parent name = .ok held ↔
      ¬ Route.maxNameSize < name.utf8ByteSize ∧ tree.get? (parent ++ [name]) = held := by
  unfold look
  split
  · rename_i long
    simp [long]
  · rename_i short
    simp [short]

theorem not_contains_of_ofText {text : String} {route : Route}
    (taken : Route.ofText text = .ok route) : text.toList.contains '\x00' = false := by
  unfold Route.ofText at taken
  split at taken
  · cases taken
  · rename_i free
    exact Bool.eq_false_iff.mpr free

/-- A renaming fails on the way, and then not as invalid, or both of its paths lead to their
directories and what the one leads to is to take the place of what the other leads to. -/
theorem rename_reaches (tree : Tree) {source target : Path} (first : source.Descends)
    (second : target.Descends) (inhabited : source.components ≠ [])
    (inhabited_target : target.components ≠ []) :
    (∃ cause, cause ≠ .invalid ∧ tree.rename here source.text target.text = .error cause) ∨
      ∃ parent name targetParent targetName entry,
        tree.Approaches here source parent name ∧
        tree.Approaches here target targetParent targetName ∧
        tree.get? (source.location here) = some entry ∧
        tree.rename here source.text target.text =
          tree.replace (source.location here) (target.location here) entry
            (tree.get? (target.location here)) := by
  rw [rename]
  split
  · exact Or.inl ⟨.nulInName, by decide, rfl⟩
  · rcases bind_cases (Route.ofText source.text) _ with ⟨cause, refused, failed⟩ |
      ⟨sourceRoute, taken, leaving⟩
    · exact Or.inl ⟨cause, fun same => ofText_ne_invalid _ (same ▸ refused), failed⟩
    rcases bind_cases (tree.approach here sourceRoute) _ with ⟨cause, refused, failed⟩ |
      ⟨sourceEnd, left, aiming⟩
    · exact Or.inl ⟨cause, fun same => approach_ne_invalid _ _ _ (same ▸ refused),
        leaving.trans failed⟩
    rcases bind_cases (Route.ofText target.text) _ with ⟨cause, refused, failed⟩ |
      ⟨targetRoute, aimed, entering⟩
    · exact Or.inl ⟨cause, fun same => ofText_ne_invalid _ (same ▸ refused),
        leaving.trans (aiming.trans failed)⟩
    rcases bind_cases (tree.approach here targetRoute) _ with ⟨cause, refused, failed⟩ |
      ⟨targetEnd, reached, looking⟩
    · exact Or.inl ⟨cause, fun same => approach_ne_invalid _ _ _ (same ▸ refused),
        leaving.trans (aiming.trans (entering.trans failed))⟩
    rw [leaving.trans (aiming.trans (entering.trans looking))]
    clear leaving aiming entering looking
    split
    · rename_i parent _ name targetParent _ targetName
      rcases bind_cases (tree.look parent name) _ with ⟨cause, refused, failed⟩ |
        ⟨found, looked, finding⟩
      · exact Or.inl ⟨cause, fun same => look_ne_invalid _ _ _ (same ▸ refused), failed⟩
      rw [finding]
      clear finding
      cases found with
      | none => exact Or.inl ⟨.notFound, by decide, rfl⟩
      | some entry =>
          rcases bind_cases (tree.look targetParent targetName) _ with ⟨cause, refused, failed⟩ |
            ⟨held, there, replacing⟩
          · exact Or.inl ⟨cause, fun same => look_ne_invalid _ _ _ (same ▸ refused), failed⟩
          simp only
          rw [replacing]
          split
          · exact Or.inl ⟨.notDirectory, by decide, rfl⟩
          · rcases look_ok.mp looked with ⟨short, present⟩
            rcases look_ok.mp there with ⟨targetShort, rfl⟩
            have leaves := approaches_of_ok first inhabited taken left short
            have enters := approaches_of_ok second inhabited_target aimed reached targetShort
            rw [← leaves.location_eq first] at present
            rw [← leaves.location_eq first, ← enters.location_eq second]
            exact Or.inr ⟨parent, name, targetParent, targetName, entry, leaves, enters, present, rfl⟩
    · exact Or.inl ⟨.busy, by decide, rfl⟩

theorem rename_eq_ok_iff {tree renamed : Tree} {source target : Path} (first : source.Descends)
    (second : target.Descends) (inhabited : source.components ≠ [])
    (inhabited_target : target.components ≠ []) :
    tree.rename here source.text target.text = .ok renamed ↔
      ∃ parent name targetParent targetName entry,
        tree.Approaches here source parent name ∧
        tree.Approaches here target targetParent targetName ∧
        tree.get? (source.location here) = some entry ∧
        tree.replace (source.location here) (target.location here) entry
          (tree.get? (target.location here)) = .ok renamed := by
  constructor
  · intro succeeded
    rcases tree.rename_reaches first second inhabited inhabited_target with
      ⟨cause, _, failed⟩ | ⟨parent, name, targetParent, targetName, entry, leaves, enters, held, led⟩
    · cases failed.symm.trans succeeded
    · exact ⟨parent, name, targetParent, targetName, entry, leaves, enters, held,
        led.symm.trans succeeded⟩
  · rintro ⟨parent, name, targetParent, targetName, entry, leaves, enters, held, replaced⟩
    rcases leaves.approach with ⟨_, left⟩
    rcases enters.approach with ⟨_, reached⟩
    have origin := leaves.location_eq first
    have goal := enters.location_eq second
    rw [origin] at held replaced
    rw [goal] at replaced
    have looked : tree.look parent name = .ok (some entry) := look_ok.mpr ⟨leaves.short, held⟩
    have there : tree.look targetParent targetName =
        .ok (tree.get? (targetParent ++ [targetName])) := look_ok.mpr ⟨enters.short, rfl⟩
    simp only [rename, not_contains_of_ofText leaves.taken, not_contains_of_ofText enters.taken,
      leaves.taken, enters.taken, left, reached, looked, there, bind, Except.bind]
    simp [Route.ofPath, replaced]

/-- What can stand in place of an entry, if there is one: a directory in place of an empty
directory, a file in place of a file. -/
def MayReplace (tree : Tree) (goal : Location) (entry : Entry) (held : Option Entry) : Prop :=
  ∀ there, held = some there →
    entry.isDirectory = there.isDirectory ∧ tree.hasChildren goal = false

theorem replace_eq_ok_iff {tree renamed : Tree} {origin goal : Location} {entry : Entry}
    {held : Option Entry} (ne : origin ≠ goal) :
    tree.replace origin goal entry held = .ok renamed ↔
      ¬ origin <+: goal ∧ ¬ goal <+: origin ∧ tree.MayReplace goal entry held ∧
        tree.move origin goal = renamed := by
  unfold replace MayReplace
  rw [if_neg ne]
  by_cases inside : origin <+: goal
  · simp [within_eq_true_iff.mpr inside, inside]
  · by_cases under : goal <+: origin
    · simp [within_eq_false inside, within_eq_true_iff.mpr under, inside, under]
    · rw [within_eq_false inside, within_eq_false under, if_neg Bool.false_ne_true,
        if_neg Bool.false_ne_true]
      cases held with
      | none => simp [inside, under]
      | some there =>
          cases entry.isDirectory <;> cases kind : there.isDirectory <;>
            cases tree.hasChildren goal <;> simp [inside, under, kind]

theorem last_of_approach {tree : Tree} {here : Location} {route : Route}
    {reached : Location × Entry × Option Component}
    (approached : tree.approach here route = .ok reached) :
    reached.2.2 = route.steps.getLast? := by
  rcases bind_eq_ok_iff.mp approached with ⟨location, _, found⟩
  split at found
  · cases found
  · cases found
  · cases found
    rfl

/-- What is renamed has a name. -/
theorem inhabited_of_rename {tree renamed : Tree} {here : Location} {path : Path} {target : String}
    (succeeded : tree.rename here path.text target = .ok renamed) : path.components ≠ [] := by
  rcases path with ⟨absolute, components⟩
  rintro rfl
  rw [rename] at succeeded
  split at succeeded
  · cases succeeded
  · rcases bind_eq_ok_iff.mp succeeded with ⟨route, taken, leaving⟩
    rcases bind_eq_ok_iff.mp leaving with ⟨sourceEnd, left, aiming⟩
    rcases bind_eq_ok_iff.mp aiming with ⟨_, _, entering⟩
    rcases bind_eq_ok_iff.mp entering with ⟨targetEnd, _, looking⟩
    have bare : route.steps = [] := by
      cases absolute with
      | false => cases taken
      | true =>
          cases taken
          rfl
    have top := last_of_approach left
    rw [bare, List.getLast?_nil] at top
    rcases sourceEnd with ⟨_, _, last⟩
    cases top
    cases looking

variable {source target : Path} (first : source.Descends) (second : target.Descends)
  (inhabited : source.components ≠ []) (inhabited_target : target.components ≠ [])
  (ne : source.location here ≠ target.location here)

include first second inhabited inhabited_target ne

/-- A renaming that succeeds moves what its path leads to, apart from where it goes. -/
theorem rename_ok {tree renamed : Tree}
    (succeeded : tree.rename here source.text target.text = .ok renamed) :
    ¬ source.location here <+: target.location here ∧
      ¬ target.location here <+: source.location here ∧
      renamed = tree.move (source.location here) (target.location here) := by
  rcases (rename_eq_ok_iff first second inhabited inhabited_target).mp succeeded with
    ⟨_, _, _, _, entry, _, _, _, replaced⟩
  rcases (replace_eq_ok_iff ne).mp replaced with ⟨apart, outside, _, moved⟩
  exact ⟨apart, outside, moved.symm⟩

/-- A renaming that succeeds on a tree succeeds on another one that holds the same on the ways to
both of its ends, and at its target holds the same with nothing more below, or nothing. -/
theorem rename_of_agree {renamed : Tree}
    (succeeded : before.rename here source.text target.text = .ok renamed)
    (leaving : ∀ above, above <+: source.location here → after.get? above = before.get? above)
    (entering : ∀ above, above <+: target.location here → above ≠ target.location here →
      after.get? above = before.get? above)
    (held : after.get? (target.location here) = none ∨
      after.get? (target.location here) = before.get? (target.location here) ∧
        (after.hasChildren (target.location here) = true →
          before.hasChildren (target.location here) = true)) :
    after.rename here source.text target.text =
      .ok (after.move (source.location here) (target.location here)) := by
  rcases (rename_eq_ok_iff first second inhabited inhabited_target).mp succeeded with
    ⟨parent, name, targetParent, targetName, entry, leaves, enters, present, replaced⟩
  rcases (replace_eq_ok_iff ne).mp replaced with ⟨apart, outside, fits, _⟩
  have origin := leaves.location_eq first
  have goal := enters.location_eq second
  have leavesStill := leaves.of_agree first (fun above prior =>
    leaving above (prior.trans (origin ▸ List.prefix_append _ _)))
  have entersStill := enters.of_agree second (fun above prior =>
    entering above (prior.trans (goal ▸ List.prefix_append _ _)) (fun same => by
      have longer := prior.length_le
      rw [same, goal, List.length_append, List.length_singleton] at longer
      omega))
  refine (rename_eq_ok_iff first second inhabited inhabited_target).mpr
    ⟨parent, name, targetParent, targetName, entry, leavesStill, entersStill,
      (leaving _ List.prefix_rfl).trans present, (replace_eq_ok_iff ne).mpr
        ⟨apart, outside, ?_, rfl⟩⟩
  intro there found
  rcases held with free | ⟨same, fewer⟩
  · rw [free] at found
    cases found
  · rcases fits there (same ▸ found) with ⟨kind, empty⟩
    refine ⟨kind, Bool.eq_false_iff.mpr (fun more => ?_)⟩
    rw [fewer more] at empty
    cases empty

end Tree
end ExportVolumes
