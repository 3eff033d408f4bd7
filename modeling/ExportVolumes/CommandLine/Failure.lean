import ExportVolumes.Provisioner

namespace ExportVolumes
namespace CommandLine

/-!
Failures of commands, with the chain of causes that is printed below them.
-/

/-- A failed command: what was being done, and the causes, each that of the one before it. -/
structure Failure where
  context : String
  causes : List String := []
  deriving DecidableEq, Repr

/-- The causes that a configuration error names. -/
def configurationCauses (error : ConfigurationError) : List String :=
  match error with
  | .invalid _ cause => [error.message, cause.message]
  | .missing _ | .load .. => [error.message]

/-- The causes that a provisioner's error names. -/
def provisionerCauses (error : ProvisionerError) : List String :=
  match error with
  | .unsupportedSelector => [error.message]
  | .invalidParameter cause => [error.message, cause.message]
  | .classLookup cause => [error.message, cause.message]
  | .filesystem cause => [error.message, cause.fault]

/-- A text whose further lines are indented. -/
def hanging (indent : String) (text : String) : String :=
  String.intercalate ("\n" ++ indent) (text.splitOn "\n")

/-- A cause with its number. -/
def numbered (number : Nat) (cause : String) : String :=
  let digits := toString number
  "".pushn ' ' (5 - digits.length) ++ digits ++ ": " ++ hanging "       " cause

/-- The causes below a failure.  A single cause has no number. -/
def causesText : List String → String
  | [] => ""
  | [cause] => "\n\nCaused by:\n    " ++ hanging "    " cause
  | causes =>
      "\n\nCaused by:\n" ++ String.intercalate "\n" (causes.mapIdx numbered)

/-- What is printed of a failure. -/
def Failure.text (failure : Failure) : String :=
  "Error: " ++ failure.context ++ causesText failure.causes ++ "\n"

end CommandLine
end ExportVolumes
