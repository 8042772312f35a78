import TwelveD.Server.Session

/-!
# The command line

What the program does with its arguments and its input, as a function. Whether a log file can be
opened is a parameter.
-/

namespace TwelveD.CommandLine

/-- The help text. -/
def usage : String :=
  "Language server for the 12d Programming Language\n\n" ++
  "Usage: pl12d-lsp [OPTIONS]\n\n" ++
  "Options:\n" ++
  "  -l, --log-file <PATH>     Write logs to PATH instead of stderr\n" ++
  "      --language-id <ID>    Language id accepted on open [default: 12dpl]\n" ++
  "      --no-completion-filter\n" ++
  "                            Always offer the full completion list\n" ++
  "  -h, --help                Print help\n" ++
  "  -V, --version             Print version\n\n" ++
  "The server communicates via stdio using the Language Server Protocol.\n" ++
  "Set RUST_LOG to control log verbosity.\n"

/-- The line that is printed for the version. -/
def versionLine : String := Server.name ++ " " ++ Server.version ++ "\n"

/-- What is printed for a command line that cannot be read. -/
def configComplaint (e : ConfigError) : String :=
  "error: " ++ e.message ++ "\nTry 'pl12d-lsp --help' for more information.\n"

/-- What is printed for a log file that cannot be opened. -/
def logComplaint (reason : String) : String := "error: cannot open log file: " ++ reason ++ "\n"

/-- What is left to do after the arguments have been read. -/
inductive Plan where
  /-- Print a text and end without an error. -/
  | print (text : String)
  /-- Print a complaint and end with an error. -/
  | complain (text : String)
  /-- Open the log file, if there is one, and serve. -/
  | serve (config : Config)
  deriving DecidableEq, Repr

/-- What the arguments ask for. -/
def plan (arguments : List String) : Plan :=
  match Command.ofArguments arguments with
  | .ok .help => .print usage
  | .ok .version => .print versionLine
  | .ok (.run config) => .serve config
  | .error e => .complain (configComplaint e)

/-- The exit code for the way in which serving ends. -/
def exitCode : Server.Ending → Nat
  | .finished => 0
  | .failed _ => 1
  | .aborted => 101

/-- What a run of the program comes to. -/
structure Run where
  code : Nat
  output : Bytes
  errors : String
  deriving DecidableEq, Repr

/-- A run of the program. `openLog` gives the reason why a log file cannot be opened. -/
def run (parse : Parser) (openLog : String → Option String) (arguments : List String)
    (input : Bytes) (explain : Explanation := .silent) : Run :=
  match plan arguments with
  | .print text => ⟨0, Bytes.ofString text, ""⟩
  | .complain text => ⟨1, [], text⟩
  | .serve config =>
    match config.logFile.bind openLog with
    | some reason => ⟨1, [], logComplaint reason⟩
    | none =>
      let served := Server.serve parse (Server.start config) input explain
      ⟨exitCode served.ending, served.output, ""⟩

end TwelveD.CommandLine
