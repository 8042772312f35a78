import TwelveD.CommandLine

/-!
# The program

Serves standard input to standard output. Frames are collected one at a time and given to the
session, so that each reply is sent before the next message is awaited. The grammar of the language
is not part of this library: documents are answered on bare trees.
-/

namespace TwelveD.Program

/-- The parser of the program. -/
def parser : Parser := fun text => some (SyntaxTree.bare (Bytes.ofString text))

/-- Reads up to `count` bytes; fewer only at the end of the input. -/
partial def readBytes (input : IO.FS.Stream) (count : Nat) (before : Bytes) : IO Bytes := do
  if count = 0 then return before
  let chunk ← input.read (min count 65536).toUSize
  if chunk.isEmpty then return before
  readBytes input (count - chunk.size) (before ++ chunk.data.toList)

/-- Reads up to and including the next line feed. -/
partial def readLine (input : IO.FS.Stream) (before : Bytes) : IO Bytes := do
  match ← readBytes input 1 [] with
  | b :: _ => if b = Bytes.lineFeed then return before ++ [b] else readLine input (before ++ [b])
  | [] => return before

/-- Reads the bytes of the next frame, or all that is left if there is none. -/
partial def readFrame (input : IO.FS.Stream) (before : Bytes) : IO Bytes := do
  let line ← readLine input []
  if line.isEmpty then return before
  let bytes := before ++ line
  match (Frame.read bytes).1 with
  | .ended | .failed .unexpectedEnd => readFrame input bytes
  | .failed (.truncatedBody expected actual) =>
    return bytes ++ (← readBytes input (expected - actual) [])
  | _ => return bytes

/-- Serves the input frame by frame. -/
partial def serve (input output : IO.FS.Stream) (s : Server) : IO Server.Ending := do
  let bytes ← readFrame input []
  let served := Server.serve parser s bytes
  output.write ⟨served.output.toArray⟩
  output.flush
  if served.ending = .finished ∧ served.server.phase ≠ .terminated ∧ ¬ bytes.isEmpty then
    serve input output served.server
  else return served.ending

/-- The text of a failure of the operating system. -/
def failureText : IO.Error → String
  | .noFileOrDirectory _ code details | .permissionDenied _ code details
  | .inappropriateType _ code details | .otherError code details =>
    details ++ " (os error " ++ toString code ++ ")"
  | e => toString e

/-- Opens the log file; gives the reason if that fails. -/
def openLog (path : String) : IO (Option String) := do
  try
    let _ ← IO.FS.Handle.mk path .append
    return none
  catch e => return some (failureText e)

/-- Runs the program. -/
def run (arguments : List String) : IO Nat := do
  match CommandLine.plan arguments with
  | .print text =>
    IO.print text
    return 0
  | .complain text =>
    IO.eprint text
    return 1
  | .serve config =>
    if let some path := config.logFile then
      if let some reason ← openLog path then
        IO.eprint (CommandLine.logComplaint reason)
        return 1
    let ending ← serve (← IO.getStdin) (← IO.getStdout) (Server.start config)
    return CommandLine.exitCode ending

end TwelveD.Program

def main (arguments : List String) : IO UInt32 := do
  return (← TwelveD.Program.run arguments).toUInt32
