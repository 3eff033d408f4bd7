namespace ExportVolumes

/-!
Paths as lists of components, read from text without looking at any filesystem.

Reading follows the usual lexical rules: repeated slashes count once, a `.` is dropped
unless it opens a relative path, and a trailing slash is dropped.  `Path.clean` folds the
`..` components away; `Path.IsClean` is the normal form that it reaches, stated without it.
-/

/-- One step of a path: the mark of the current directory, of the parent directory, or a
name. -/
inductive Component where
  | current
  | parent
  | name (text : String)
  deriving DecidableEq, Repr

/-- The text of a component. -/
def Component.text : Component → String
  | .current => "."
  | .parent => ".."
  | .name text => text

/-- A path, absolute or relative. -/
structure Path where
  absolute : Bool
  components : List Component
  deriving DecidableEq, Repr

namespace Path

/-- The pieces of a text between its slashes, one more than there are slashes. -/
def pieces : List Char → List (List Char)
  | [] => [[]]
  | c :: rest =>
      if c = '/' then [] :: pieces rest
      else
        match pieces rest with
        | [] => [[c]]
        | piece :: others => (c :: piece) :: others

/-- The component that a piece stands for, if any. -/
def ofPiece? : List Char → Option Component
  | [] => none
  | ['.'] => none
  | ['.', '.'] => some .parent
  | piece => some (.name (String.ofList piece))

/-- Read a path from characters. -/
def ofChars (chars : List Char) : Path :=
  let components := (pieces chars).filterMap ofPiece?
  match chars with
  | '/' :: _ => ⟨true, components⟩
  | ['.'] => ⟨false, .current :: components⟩
  | '.' :: '/' :: _ => ⟨false, .current :: components⟩
  | _ => ⟨false, components⟩

/-- Read a path from its text. -/
def ofText (text : String) : Path :=
  ofChars text.toList

/-- The canonical text of a path: components with single slashes between them. -/
def text (path : Path) : String :=
  (if path.absolute then "/" else "") ++
    String.intercalate "/" (path.components.map Component.text)

/-- Extend a path by one name. -/
def push (path : Path) (name : String) : Path :=
  { path with components := path.components ++ [.name name] }

/-- Extend a path by a list of names. -/
def extend (path : Path) (names : List String) : Path :=
  { path with components := path.components ++ names.map .name }

/-- Put `second` behind `first`; an absolute `second` replaces `first`.  The mark of the
current directory is kept only where it opens the whole path. -/
def join (first second : Path) : Path :=
  if second.absolute then second
  else if first.absolute = false ∧ first.components = [] then second
  else { first with components := first.components ++ second.components.filter (· ≠ .current) }

/-- The last component of a path when it is a name. -/
def fileName? (path : Path) : Option String :=
  match path.components.getLast? with
  | some (.name name) => some name
  | _ => none

/-! ## Lexical cleaning -/

/-- Take one component into a stack of names, the latest name first.  A parent mark removes
the latest name and does nothing on the empty stack. -/
def fold (stack : List String) : Component → List String
  | .current => stack
  | .parent => stack.tail
  | .name name => name :: stack

/-- The names that remain when every parent mark has removed its predecessor. -/
def foldedNames (components : List Component) : List String :=
  (components.foldl fold []).reverse

/-- The path of the given names; a relative path without names is the current directory. -/
def ofNames (absolute : Bool) (names : List String) : Path :=
  if absolute = false ∧ names = [] then ⟨false, [.current]⟩ else ⟨absolute, names.map .name⟩

/-- Drop `.` and fold each `..` into its predecessor; at the top `..` has no effect. -/
def clean (path : Path) : Path :=
  ofNames path.absolute (foldedNames path.components)

/-- A path is clean when it is the bare current directory or consists of names. -/
def IsClean (path : Path) : Prop :=
  path = ⟨false, [.current]⟩ ∨
    ((∀ component ∈ path.components, ∃ name, component = .name name) ∧
      (path.absolute = false → path.components ≠ []))

/-! ## Suffixes below a root -/

/-- Take the components of a suffix into a stack of names; a parent mark with nothing to
remove fails. -/
def climbFreeStack : List String → List Component → Option (List String)
  | stack, [] => some stack
  | stack, .current :: rest => climbFreeStack stack rest
  | stack, .name name :: rest => climbFreeStack (name :: stack) rest
  | _ :: stack, .parent :: rest => climbFreeStack stack rest
  | [], .parent :: _ => none

/-- The names of a suffix with each parent mark folded into its predecessor, if none of them
climbs above the start of the suffix. -/
def climbFreeNames? (suffix : Path) : Option (List String) :=
  (climbFreeStack [] suffix.components).map List.reverse

end Path
end ExportVolumes
