import ExportVolumes.Effect

namespace ExportVolumes
namespace CommandLine

/-!
The log: the level of each notice, its line, and the filter that decides which notices are
shown.

A filter is a list of directives between commas.  A level by itself holds for everything; a
directive for a single target says nothing about the notices here.
-/

/-- How grave a notice is; as a threshold, the least grave ones that are shown. -/
inductive Level where
  | off
  | error
  | warn
  | info
  | debug
  | trace
  deriving DecidableEq, Repr

namespace Level

/-- The rank of a level: what ranks higher says more. -/
def rank : Level → Nat
  | off => 0
  | error => 1
  | warn => 2
  | info => 3
  | debug => 4
  | trace => 5

/-- The word for a level. -/
def word : Level → String
  | off => "off"
  | error => "error"
  | warn => "warn"
  | info => "info"
  | debug => "debug"
  | trace => "trace"

/-- Every level. -/
def all : List Level := [off, error, warn, info, debug, trace]

/-- The level that a word or a rank names, in either case. -/
def ofText? (text : String) : Option Level :=
  all.find? fun level => level.word = text.toLower || toString level.rank = text

/-- What is said of a text that names no level. -/
def complaint : String :=
  "error parsing level filter: expected one of \"off\", \"error\", \"warn\", \"info\", " ++
    "\"debug\", \"trace\", or a number 0-5"

end Level

/-! ## Filters -/

/-- The threshold that a directive sets for everything, if it sets one. -/
def directive? (text : List Char) : Except String (Option Level) :=
  let target := text.takeWhile (· ≠ '=')
  match text.dropWhile (· ≠ '=') with
  | [] => .ok (Level.ofText? (String.ofList text))
  | _ :: level =>
      if target.isEmpty then .error "invalid filter directive"
      else if level.isEmpty then .ok none
      else
        match Level.ofText? (String.ofList level) with
        | some _ => .ok none
        | none => .error Level.complaint

/-- The directives of a filter. -/
def directives : List Char → List (List Char)
  | [] => []
  | c :: rest =>
      if c = ',' then [] :: directives rest
      else
        match directives rest with
        | [] => [[c]]
        | text :: others => (c :: text) :: others

/-- The threshold of a filter.  The last directive for everything decides; without any directive
only errors are shown. -/
def threshold (filter : String) : Except String Level := do
  let given := (directives filter.toList).filter (fun text => !text.isEmpty)
  if given.isEmpty then return .error
  let levels ← given.mapM directive?
  return (levels.filterMap id).getLast?.getD .off

/-- The variable whose filter goes before the log level. -/
def filterVariable : String := "RUST_LOG"

/-- The threshold: that of the variable if it holds a usable filter, or that of the log level. -/
def chosenThreshold (environment : String → Option String) (logLevel : String) :
    Except String Level :=
  match (environment filterVariable).map threshold with
  | some (.ok level) => .ok level
  | _ => threshold logLevel

/-! ## Notices -/

/-- How grave a notice is. -/
def noticeLevel : Notice → Level
  | .ownerFallback .. => .error
  | .deletionSkipped _ => .warn
  | .startupFailed _ => .error

/-- Whether a notice is shown under a threshold. -/
def heeds (threshold : Level) (notice : Notice) : Bool :=
  (noticeLevel notice).rank ≤ threshold.rank

/-- What a notice says. -/
def noticeText : Notice → String
  | .ownerFallback volumeName key value reason default =>
      "Invalid owner annotation " ++ value ++ ": " ++ reason ++ ", using default " ++
        toString default.toNat ++ " volume=" ++ volumeName ++ " annotation=" ++ key
  | .deletionSkipped path => "path " ++ path ++ " does not exist, deletion skipped"
  | .startupFailed reason => reason

/-- The line of a notice. -/
def noticeLine (notice : Notice) : String :=
  (noticeLevel notice).word.toUpper ++ " " ++ noticeText notice

end CommandLine
end ExportVolumes
