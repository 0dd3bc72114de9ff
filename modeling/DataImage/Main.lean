import DataImage.Arm.Writer
import DataImage.CommandLine.Run

/-!
# The command

The files and the terminal around `CommandLine.run`. The exit status is 0 for success, 1 for a
failed run and 2 for wrong arguments.
-/

open DataImage CommandLine

/-- How the command is called. -/
def usageText : String :=
  "Usage: dataimage [OPTIONS] --output <FILE> <DESCRIPTION>\n\n" ++
  "Build an initialized data image from a description in JSON\n\n" ++
  "Options:\n" ++
  "  -o, --output <FILE>  Output file\n" ++
  "      --text           Write the module as text instead of an object file\n" ++
  "      --config <FILE>  Settings in JSON\n" ++
  "      --no-validate    Only fill the image, without verification and entry\n" ++
  "  -h, --help           Print help\n" ++
  "  -V, --version        Print version\n"

/-- The name and the version of the command. -/
def versionText : String := "dataimage 0.1.0\n"

/-- Read a file, or say why it cannot be read. -/
def readInput (path : String) : IO (String × Except String String) := do
  try
    return (path, .ok (← IO.FS.readFile path))
  catch e => return (path, .error (toString e))

/-- Read the files that a call names. -/
def readInputs (a : Arguments) : IO Files := do
  let read ← (a.settings.toList ++ [a.description]).mapM readInput
  return fun path => (read.lookup path).getD (.error "not read")

/-- Write an artifact to a file, or say why it cannot be written. -/
def writeOutput (path : String) (artifact : Artifact Arm.library.File) :
    IO (Except RunFailure Unit) := do
  let bytes := match artifact with
    | .text value => value.toUTF8
    | .object file => ⟨(Arm.library.bytes file).toArray⟩
  try
    IO.FS.writeBinFile path bytes
    return .ok ()
  catch e => return .error (.unwritable path (toString e))

/-- Run a call and report how it went. -/
def runCall (a : Arguments) : IO UInt32 := do
  let files ← readInputs a
  let outcome ← match run Arm.library files a with
    | .error failure => pure (.error failure)
    | .ok artifact => writeOutput a.output artifact
  match outcome with
  | .ok () => return 0
  | .error failure =>
    IO.eprintln ("error: " ++ failure.message)
    return 1

/-- The entry of the program. -/
def main (arguments : List String) : IO UInt32 := do
  match Arguments.ofList arguments with
  | .ok a => runCall a
  | .error .help =>
    IO.print usageText
    return 0
  | .error .version =>
    IO.print versionText
    return 0
  | .error .usage =>
    IO.eprint usageText
    return 2
