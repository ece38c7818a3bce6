import SheetGloss.CommandLine.Run

/-!
# The program

Reads the input that the arguments name, runs the command, and writes what it answers.
-/

namespace SheetGloss

/-- The fault behind an error of the system. -/
def FileFault.ofError : IO.Error → FileFault
  | .noFileOrDirectory .. => .notFound
  | error => .other (toString error)

/-- Reads the file at a path. -/
def readFile (path : Text) : IO (Except FileFault Bytes) := do
  try
    let name := String.ofList path
    let data ← IO.FS.readBinFile name
    return .ok data.toList
  catch error => return .error (.ofError error)

/-- Reads the standard input to its end. -/
partial def readInput (stream : IO.FS.Stream) (before : Bytes) : IO Bytes := do
  let data ← stream.read 65536
  if data.isEmpty then return before else readInput stream (before ++ data.toList)

/-- Runs the program with its arguments, files and standard input. -/
def runProgram (arguments : List Text) : IO CommandLine.Outcome := do
  match CommandLine.inputOf arguments with
  | .none => return CommandLine.run arguments (fun _ => .error .notFound) []
  | .file path =>
    let content ← readFile path
    return CommandLine.run arguments (fun _ => content) []
  | .standard =>
    let stdin ← readInput (← IO.getStdin) []
    return CommandLine.run arguments (fun _ => .error .notFound) stdin

end SheetGloss

/-- The program: its output, the report of a failure, and the exit code. -/
def main (arguments : List String) : IO UInt32 := do
  let outcome ← SheetGloss.runProgram (arguments.map String.toList)
  IO.print (String.ofList outcome.output)
  for line in outcome.report do
    IO.eprintln (String.ofList line)
  return outcome.exitCode.toUInt32
