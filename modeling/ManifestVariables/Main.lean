import ManifestVariables.CommandLine.Commands

/-!
# The program

Answers the questions of a command line from the real machine: files are read and
written, and time passes. There is no client for the network, so every request is
refused.
-/

namespace ManifestVariables

/-- Why a file could not be used. -/
def fileError : IO.Error → FileError
  | .noFileOrDirectory .. => .missing
  | .inappropriateType _ code _ => if code = 20 then .notDirectory else .isDirectory
  | .permissionDenied .. => .denied
  | .userError _ => .notText
  | failure => .other (toString failure)

/-- The text of a file. -/
def readFile (path : String) : IO (Except FileError String) := do
  try
    return .ok (← IO.FS.readFile path)
  catch failure => return .error (fileError failure)

/-- Puts a text into a file. -/
def writeFile (path text : String) : IO (Except FileError Unit) := do
  try
    IO.FS.writeFile path text
    return .ok ()
  catch failure => return .error (fileError failure)

/-- What a path leads to, as reading it tells. -/
def fileKind (path : String) : IO (Option FileKind) := do
  match ← readFile path with
  | .error .missing => return none
  | .error .notDirectory => return none
  | .error .isDirectory => return some .directory
  | _ => return some .file

/-- Answers a question from the machine. -/
def answer (need : Machine.Need) : IO need.Reply :=
  match need with
  | .read path => readFile path
  | .write path text => writeFile path text
  | .kind path => fileKind path
  | .exchange _ => return .error .refused
  | .now => IO.monoNanosNow
  | .sleep milliseconds => IO.sleep milliseconds.toUInt32

/-- The variables of the environment, as the system lists them. -/
def readBindings : IO (Keyed String String) := do
  let listed := ((← readFile "/proc/self/environ").toOption).getD ""
  let entries := (Text.pieces '\x00' listed.toList).filterMap fun entry =>
    match entry.dropWhile (· ≠ '=') with
    | _ :: value => some (String.ofList (entry.takeWhile (· ≠ '=')), String.ofList value)
    | [] => none
  return Keyed.ofPairs entries

/-- What the program is started with. -/
def environment : IO Environment := do
  let name := (← readFile "/proc/sys/kernel/hostname").toOption
  return {
    bindings := ← readBindings
    directory := toString (← IO.currentDir)
    hostName := name.map fun text => String.ofList (Text.trim text.toList)
    accountHome := none }

end ManifestVariables

open ManifestVariables in
/-- Carries out the command line. -/
def main (words : List String) : IO UInt32 := do
  let program := CommandLine.execute words (← environment)
  let report ← program.interpret answer
  IO.print report.output
  IO.eprint report.messages
  return report.status.toUInt32
