import Vcs.CommandLine.Help
import Vcs.CommandLine.Session

/-!
# Program

Connects a session to files, standard error and the environment.  The result is zero for success, one for
failure and two for arguments that make no sense.
-/

namespace Vcs.CommandLine

/-- Whether an operation on files went well. -/
def succeeds (operation : IO Unit) : IO Bool := do
  try
    operation
    return true
  catch _ => return false

/-- Creates a file with a picture in it.  An incomplete picture leaves the file empty. -/
def writePicture (path : String) (picture : Picture) : IO Bool :=
  match picture.png? with
  | some bytes => succeeds (IO.FS.writeBinFile path bytes)
  | none => do
    let _ ← succeeds (IO.FS.writeBinFile path ByteArray.empty)
    return false

/-- Creates a file with some lines in it. -/
def writeLines (path : String) (lines : List String) : IO Bool :=
  succeeds <| IO.FS.withFile path .write fun file ↦ do
    file.putStr (String.join (lines.map (· ++ "\n")))
    file.flush

/-- Reports to standard error and saves to files. -/
def desk : Desk IO where
  report event := IO.eprintln (event.level.name ++ " " ++ event.message)
  makeDirectory path := succeeds (IO.FS.createDirAll path)
  savePicture := writePicture
  saveLines := writeLines

/-- The options with a seed, which the system draws if none is given. -/
def seeded (options : Options) : IO Options := do
  if options.seed.isSome then return options
  let bytes ← IO.getRandomBytes 8
  let seed : UInt64 := bytes.foldl (fun seed byte ↦ seed * 256 + byte.toUInt64) 0
  return { options with seed := some seed }

/-- Runs a session on the image in a file. -/
def runSession (rom : String) (options : Options) : IO UInt32 := do
  let environment ← IO.getEnv "EMU2600_LOG"
  let options ← seeded options
  match ← (IO.FS.readBinFile rom).toBaseIO with
  | .error cause =>
    IO.eprintln (toString cause)
    return 1
  | .ok image =>
    match ← Session.run desk options (options.threshold environment) image with
    | .ok _ => return 0
    | .error cause =>
      IO.eprintln cause.message
      return 1

/-- Does what the arguments ask for. -/
def start (arguments : List String) : IO UInt32 :=
  match Options.parse arguments with
  | .ok (rom, options) => runSession rom options
  | .error .help => do
    IO.println helpText
    return 0
  | .error .version => do
    IO.println versionText
    return 0
  | .error .misuse => do
    IO.eprintln usageText
    return 2

end Vcs.CommandLine

def main (arguments : List String) : IO UInt32 :=
  Vcs.CommandLine.start arguments
