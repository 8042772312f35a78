/-!
# Configuration

The command line is a list of settings. An option and its value are one setting, whether they are
written as one argument or as two. A request for help or for the version is answered whatever else is
set, help first, but only if the whole line can be read.
-/

namespace TwelveD

/-- The options of a session. -/
structure Config where
  /-- The file that log lines go to, if not to the error output. -/
  logFile : Option String
  /-- The language that a document must be opened with. -/
  languageId : String
  /-- Whether completions depend on the place of the cursor. -/
  filterCompletions : Bool
  deriving DecidableEq, Repr

namespace Config

/-- The options that hold if nothing else is said. -/
def default : Config := ⟨none, "12dpl", true⟩

end Config

/-- What a command line asks for. -/
inductive Command where
  | run (config : Config)
  | help
  | version
  deriving DecidableEq, Repr

/-- Why a command line cannot be read. -/
inductive ConfigError where
  /-- An option that takes a value is the last argument. -/
  | missingValue (option : String)
  /-- There is no such option. -/
  | unknownOption (argument : String)
  deriving DecidableEq, Repr

namespace ConfigError

/-- The wording of an error. -/
def message : ConfigError → String
  | missingValue option => "option " ++ option ++ " requires a value"
  | unknownOption argument => "unknown option: " ++ argument

end ConfigError

/-- One setting on a command line. -/
inductive Setting where
  | help
  | version
  | allCompletions
  | logFile (path : String)
  | languageId (id : String)
  deriving DecidableEq, Repr

namespace Setting

/-- What an argument is in the place of an option. -/
inductive Argument where
  /-- A setting by itself. -/
  | complete (s : Setting)
  /-- The start of a setting whose value is the next argument. -/
  | awaitsValue (setting : String → Setting)
  /-- No option. -/
  | unknown

/-- A text without `start`, if it starts so. -/
def dropStart? (start text : String) : Option String :=
  if start.toList.isPrefixOf text.toList
  then some (String.ofList (text.toList.drop start.toList.length))
  else none

/-- The reading of an argument in the place of an option. -/
def readArgument (argument : String) : Argument :=
  if argument = "-h" ∨ argument = "--help" then .complete .help
  else if argument = "-V" ∨ argument = "--version" then .complete .version
  else if argument = "--no-completion-filter" then .complete .allCompletions
  else if argument = "-l" ∨ argument = "--log-file" then .awaitsValue .logFile
  else if argument = "--language-id" then .awaitsValue .languageId
  else
    match dropStart? "--log-file=" argument, dropStart? "--language-id=" argument with
    | some path, _ => .complete (.logFile path)
    | none, some id => .complete (.languageId id)
    | none, none => .unknown

/-- The settings of a command line. -/
def ofArguments : List String → Except ConfigError (List Setting)
  | [] => .ok []
  | argument :: rest =>
    match readArgument argument with
    | .complete s => (s :: ·) <$> ofArguments rest
    | .awaitsValue setting =>
      match rest with
      | [] => .error (.missingValue argument)
      | value :: rest => (setting value :: ·) <$> ofArguments rest
    | .unknown => .error (.unknownOption argument)

end Setting

namespace Config

/-- The options after one more setting. -/
def set (c : Config) : Setting → Config
  | .logFile path => { c with logFile := some path }
  | .languageId id => { c with languageId := id }
  | .allCompletions => { c with filterCompletions := false }
  | .help | .version => c

end Config

namespace Command

/-- What settings ask for. -/
def ofSettings (settings : List Setting) : Command :=
  if .help ∈ settings then help
  else if .version ∈ settings then version
  else run (settings.foldl Config.set Config.default)

/-- What a command line asks for. -/
def ofArguments (arguments : List String) : Except ConfigError Command :=
  ofSettings <$> Setting.ofArguments arguments

end Command

end TwelveD
