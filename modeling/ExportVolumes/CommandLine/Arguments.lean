import ExportVolumes.Startup

namespace ExportVolumes
namespace CommandLine

/-!
The arguments of the command line.

A command is named by one or two words; options may stand anywhere behind the word of the
command that they belong to.  The options that every command takes can also be set by
variables of the environment, and what is nearest to the end of the line wins.
-/

/-! ## Options -/

/-- An option. -/
inductive OptionName where
  | configuration
  | storageClasses
  | logLevel
  | field (name : Field)
  | request
  | output
  | volume
  | paths
  | help
  | version
  deriving DecidableEq, Repr

/-- The long name of the option that sets a field of the configuration. -/
def fieldOption : Field → String
  | .server => "nfs-server"
  | .path => "nfs-path"
  | .mountRoot => "mount-root"
  | .provisionerName => "provisioner-name"
  | .defaultMode => "default-mode"
  | .defaultUser => "default-uid"
  | .defaultGroup => "default-gid"
  | .leaderElection => "leader-election"

namespace OptionName

/-- The long name of an option. -/
def long : OptionName → String
  | configuration => "config"
  | storageClasses => "storage-classes"
  | logLevel => "log-level"
  | .field name => fieldOption name
  | request => "request"
  | output => "output"
  | volume => "volume"
  | paths => "paths"
  | help => "help"
  | version => "version"

/-- The letter of an option. -/
def short? : OptionName → Option Char
  | configuration => some 'c'
  | request => some 'r'
  | output => some 'o'
  | volume => some 'v'
  | help => some 'h'
  | version => some 'V'
  | storageClasses | logLevel | field _ | paths => none

/-- Whether an option has a value. -/
def takesValue : OptionName → Bool
  | paths | help | version => false
  | _ => true

/-- Whether the value of an option is a path, which is never empty. -/
def takesPath : OptionName → Bool
  | configuration | storageClasses | request | output | volume => true
  | _ => false

/-- The variable that sets an option. -/
def setBy? : OptionName → Option String
  | configuration => some Configuration.pathVariable
  | storageClasses => some "NFS_STORAGE_CLASSES"
  | logLevel => some "NFS_PROVISIONER_LOG_LEVEL"
  | .field name => some name.environmentName
  | _ => none

/-- The options that every command takes. -/
def common : List OptionName :=
  [configuration, storageClasses, logLevel] ++ Field.all.map field

end OptionName

/-! ## Places -/

/-- How far the words of a command have been read. -/
inductive Place where
  | start
  | provision
  | delete
  | configuration
  | display
  | validate
  deriving DecidableEq, Repr

namespace Place

/-- The options that a place takes. -/
def options (place : Place) : List OptionName :=
  (match place with
    | provision => [.request, .output]
    | delete => [.volume]
    | display => [.paths]
    | start | configuration | validate => []) ++ OptionName.common ++ [.help, .version]

/-- The place behind one more word of a command. -/
def enter? (place : Place) (word : String) : Option Place :=
  match place, word with
  | start, "provision" => some provision
  | start, "delete" => some delete
  | start, "config" => some configuration
  | configuration, "show" => some display
  | configuration, "validate" => some validate
  | _, _ => none

/-- The words that lead to a place. -/
def words : Place → List String
  | start => []
  | provision => ["provision"]
  | delete => ["delete"]
  | configuration => ["config"]
  | display => ["config", "show"]
  | validate => ["config", "validate"]

/-- Whether words of commands can follow. -/
def hasCommands : Place → Bool
  | start | configuration => true
  | _ => false

/-- Whether a file can be named without an option. -/
def takesFile : Place → Bool
  | validate => true
  | _ => false

end Place

/-! ## Reading -/

/-- Why the arguments cannot be used. -/
inductive ArgumentError where
  | unexpected (argument : String)
  | missingValue (option : OptionName)
  | emptyPath (option : OptionName)
  | repeated (option : OptionName)
  | missingOption (option : OptionName)
  | missingCommand
  deriving DecidableEq, Repr

/-- What is asked for instead of a command.  A version is that of the command named so far. -/
inductive Information where
  | help
  | version (place : Place)
  deriving DecidableEq, Repr

/-- Why reading stops before the end of the arguments. -/
inductive Halt where
  | error (error : ArgumentError)
  | information (information : Information)
  deriving DecidableEq, Repr

/-- An option with its value; a switch has none. -/
abbrev Given := OptionName × Option String

/-- What was read so far. -/
structure Reading where
  place : Place := .start
  /-- The options behind the last word of the command, the latest first. -/
  given : List Given := []
  /-- The options before that word, the latest first. -/
  earlier : List Given := []
  file : Option String := none
  /-- Whether what follows is no option any more. -/
  plain : Bool := false
  deriving Repr

namespace Reading

/-- Take an option with its value. -/
def take (reading : Reading) (option : OptionName) (value : Option String) :
    Except Halt Reading :=
  if option = .help then .error (.information .help)
  else if option = .version then .error (.information (.version reading.place))
  else if option.takesPath && value = some "" then .error (.error (.emptyPath option))
  else if reading.given.any (fun given => given.1 = option) then .error (.error (.repeated option))
  else .ok { reading with given := (option, value) :: reading.given }

/-- Take a word that is no option. -/
def takeWord (reading : Reading) (word : String) : Except Halt Reading :=
  let entered := if reading.plain then none else reading.place.enter? word
  match entered with
  | some place =>
      .ok { reading with place, given := [], earlier := reading.given ++ reading.earlier }
  | none =>
      if reading.place.hasCommands && !reading.plain && word = "help" then
        .error (.information .help)
      else if reading.place.takesFile && reading.file.isNone then
        if word.isEmpty then .error (.error (.unexpected word))
        else .ok { reading with file := some word }
      else .error (.error (.unexpected word))

/-- Whether an argument can be the value of the option before it. -/
def canBeValue (argument : String) : Bool :=
  argument = "-" || argument.toList.head? ≠ some '-'

/-- The options in a cluster of letters: switches, and at last perhaps an option with the rest
of the cluster for its value.  An option whose value is still missing is given by itself. -/
def takeLetters (reading : Reading) : List Char → Except Halt (Reading × Option OptionName)
  | [] => .ok (reading, none)
  | letter :: rest =>
      match reading.place.options.find? (fun option => option.short? = some letter) with
      | none => .error (.error (.unexpected ("-" ++ String.ofList [letter])))
      | some option =>
          if option.takesValue then
            match rest with
            | [] => .ok (reading, some option)
            | '=' :: value =>
                (reading.take option (some (String.ofList value))).map (fun next => (next, none))
            | value =>
                (reading.take option (some (String.ofList value))).map (fun next => (next, none))
          else
            match reading.take option none with
            | .error halt => .error halt
            | .ok next => takeLetters next rest

/-- The option of a long name, with the value behind an equals sign if there is one. -/
def takeLong (reading : Reading) (text : List Char) :
    Except Halt (Reading × Option OptionName) :=
  let name := String.ofList (text.takeWhile (· ≠ '='))
  match reading.place.options.find? (fun option => option.long = name) with
  | none => .error (.error (.unexpected ("--" ++ String.ofList text)))
  | some option =>
      match text.dropWhile (· ≠ '='), option.takesValue with
      | [], true => .ok (reading, some option)
      | [], false => (reading.take option none).map (fun next => (next, none))
      | _ :: value, true =>
          (reading.take option (some (String.ofList value))).map (fun next => (next, none))
      | _ :: _, false => .error (.error (.unexpected ("--" ++ String.ofList text)))

/-- Take an argument: an option whose value may be missing yet, or a word. -/
def takeArgument (reading : Reading) (argument : String) :
    Except Halt (Reading × Option OptionName) :=
  let word := (reading.takeWord argument).map (fun next => (next, none))
  if reading.plain then word
  else
    match argument.toList with
    | ['-', '-'] => .ok ({ reading with plain := true }, none)
    | '-' :: '-' :: text => reading.takeLong text
    | '-' :: letter :: letters => reading.takeLetters (letter :: letters)
    | _ => word

/-- Take all arguments.  `pending` is the option that the next one is the value of. -/
def takeAll : Reading → (pending : Option OptionName) → List String → Except Halt Reading
  | reading, none, [] => .ok reading
  | _, some option, [] => .error (.error (.missingValue option))
  | reading, some option, argument :: arguments =>
      if canBeValue argument then
        match reading.take option (some argument) with
        | .error halt => .error halt
        | .ok next => takeAll next none arguments
      else .error (.error (.missingValue option))
  | reading, none, argument :: arguments =>
      match reading.takeArgument argument with
      | .error halt => .error halt
      | .ok (next, pending) => takeAll next pending arguments

end Reading

/-! ## Invocations -/

/-- A command. -/
inductive Command where
  | provision (request : String) (output : Option String)
  | delete (volume : String)
  | showConfiguration (paths : Bool)
  | validateConfiguration (file : Option String)
  deriving DecidableEq, Repr

/-- Everything that the arguments and the environment say. -/
structure Invocation where
  configurationPath : Option String
  classesPath : Option String
  logLevel : String
  fields : Field → Option String
  command : Option Command

/-- The log level unless another one is asked for. -/
def defaultLogLevel : String := "info"

/-- The value of an option: the last one given, or that of its variable. -/
def Reading.value? (reading : Reading) (environment : Environment) (option : OptionName) :
    Option String :=
  let given := ((reading.given ++ reading.earlier).lookup option).join
  given.or (option.setBy?.bind environment)

/-- The value of an option that has to be given. -/
def Reading.required (reading : Reading) (environment : Environment) (option : OptionName) :
    Except Halt String :=
  match reading.value? environment option with
  | some value => .ok value
  | none => .error (.error (.missingOption option))

/-- The command that was read, if any. -/
def Reading.command (reading : Reading) (environment : Environment) :
    Except Halt (Option Command) :=
  match reading.place with
  | .start => .ok none
  | .configuration => .error (.error .missingCommand)
  | .provision =>
      (reading.required environment .request).map fun request =>
        some (.provision request (reading.value? environment .output))
  | .delete => (reading.required environment .volume).map fun volume => some (.delete volume)
  | .display => .ok (some (.showConfiguration (reading.given.any (fun given => given.1 = .paths))))
  | .validate => .ok (some (.validateConfiguration reading.file))

/-- A path option that is set to the empty text. -/
def Reading.emptyPath? (reading : Reading) (environment : Environment) : Option OptionName :=
  OptionName.common.find? fun option =>
    option.takesPath && reading.value? environment option = some ""

/-- Read the arguments in an environment. -/
def Invocation.ofArguments (environment : Environment) (arguments : List String) :
    Except Halt Invocation := do
  let reading ← Reading.takeAll {} none arguments
  let command ← reading.command environment
  match reading.emptyPath? environment with
  | some option => .error (.error (.emptyPath option))
  | none =>
      return { configurationPath := reading.value? environment .configuration
               classesPath := reading.value? environment .storageClasses
               logLevel := (reading.value? environment .logLevel).getD defaultLogLevel
               fields := fun field => reading.value? environment (.field field)
               command }

end CommandLine
end ExportVolumes
