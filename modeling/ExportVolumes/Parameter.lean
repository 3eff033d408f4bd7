import ExportVolumes.Text.Numeral

namespace ExportVolumes

/-!
The text-valued settings of volumes: directory modes, owner ids and flags, as they arrive
in claim annotations, class parameters and process defaults.
-/

/-- Why a parameter was refused. -/
inductive ParameterError where
  | invalidMode (value : String) (fault : Numeral.Fault)
  | modeOutOfRange (value : String)
  | invalidId (value : String) (fault : Numeral.Fault)
  | idOutOfRange (value : String)
  | invalidFlag (value : String)
  | escapesRoot (suffix : String)
  deriving DecidableEq, Repr

/-- The wording of a refusal. -/
def ParameterError.message : ParameterError → String
  | .invalidMode value fault => "invalid mode " ++ value ++ ": " ++ fault.message
  | .modeOutOfRange value => "mode must be between 0 and 0777, got " ++ value
  | .invalidId value fault => "invalid id " ++ value ++ ": " ++ fault.message
  | .idOutOfRange value => "id must be between 0 and 65535, got " ++ value
  | .invalidFlag value => "invalid boolean " ++ value
  | .escapesRoot suffix => "path " ++ suffix ++ " escapes the volume root"

namespace Parameter

/-- The claim annotation that sets the mode of a volume directory, in octal. -/
def modeAnnotation : String := "k8s-sigs.io/nfs-directory-mode"

/-- The claim annotation that sets the owning user of a volume directory. -/
def userAnnotation : String := "k8s-sigs.io/nfs-directory-uid"

/-- The claim annotation that sets the owning group of a volume directory. -/
def groupAnnotation : String := "k8s-sigs.io/nfs-directory-gid"

/-- The mode 0777: the largest one, and the one that an empty text stands for. -/
def largestMode : UInt32 := 0o777

/-- The largest user or group id. -/
def largestId : UInt32 := 65535

/-- Read an octal directory mode.  The empty text is mode 0777. -/
def readMode (value : String) : Except ParameterError UInt32 :=
  if value.isEmpty then .ok largestMode
  else
    match Numeral.read 8 value with
    | .error fault => .error (.invalidMode value fault)
    | .ok number =>
        if 0 ≤ number ∧ number ≤ largestMode.toNat then .ok number.toNat.toUInt32
        else .error (.modeOutOfRange value)

/-- Read a decimal user or group id.  The empty text is id 0. -/
def readId (value : String) : Except ParameterError UInt32 :=
  if value.isEmpty then .ok 0
  else
    match Numeral.read 10 value with
    | .error fault => .error (.invalidId value fault)
    | .ok number =>
        if 0 ≤ number ∧ number ≤ largestId.toNat then .ok number.toNat.toUInt32
        else .error (.idOutOfRange value)

/-- The spellings of true. -/
def trueSpellings : List String := ["1", "t", "T", "TRUE", "true", "True"]

/-- The spellings of false. -/
def falseSpellings : List String := ["0", "f", "F", "FALSE", "false", "False"]

/-- Read a flag in one of its usual spellings. -/
def readFlag (value : String) : Except ParameterError Bool :=
  if value ∈ trueSpellings then .ok true
  else if value ∈ falseSpellings then .ok false
  else .error (.invalidFlag value)

end Parameter
end ExportVolumes
