import Airlock.Cli.Run

/-!
# The command line program

Reads the files that the command line names, runs it, and prints what it came to.
-/

set_option autoImplicit false

namespace Airlock

def usage : String :=
  "Usage: sandlink [-c FILE] [-v] call METHOD [-p JSON] [--open FILE] [--language-id ID] [SETTINGS]\n"
    ++ "       sandlink [-c FILE] [-v] replay SCRIPT [SETTINGS]\n"
    ++ "Settings: --format json|msgpack, --framing bare|content-length, --high-water-mark N,\n"
    ++ "          --timeout-ms N, --no-initialized\n"

def fileFault : IO.Error → Cli.FileFault
  | .noFileOrDirectory .. => .missing
  | .inappropriateType .. => .isDirectory
  | error => .other (toString error)

def readFile (path : String) : IO (Except Cli.FileFault Bytes) := do
  try
    let bytes ← IO.FS.readBinFile path
    return .ok bytes.toList
  catch error => return .error (fileFault error)

def readFiles (paths : List String) : IO Cli.Files := do
  let read ← paths.mapM fun path => do return (path, ← readFile path)
  return Cli.Files.ofRead read

/-- The number of this process, or zero on a system that does not tell it. -/
def processNumber : IO UInt32 := do
  try
    let status ← IO.FS.readFile "/proc/self/stat"
    let digits := String.ofList (status.toList.takeWhile Char.isDigit)
    return UInt32.ofNat (digits.toNat?.getD 0)
  catch _ => return 0

def waitForever : IO UInt32 := do
  repeat IO.sleep 60000
  return 0

def runCommand (words : List String) : IO UInt32 := do
  let files ← readFiles (Cli.paths words)
  match Cli.run files words (← processNumber) with
  | .misuse =>
    (← IO.getStderr).putStr usage
    return 2
  | .help =>
    (← IO.getStdout).putStr usage
    return 0
  | .finished exitCode output errors =>
    (← IO.getStdout).putStr output
    (← IO.getStderr).putStr errors
    return UInt32.ofNat exitCode
  | .stuck => waitForever

end Airlock

def main (words : List String) : IO UInt32 :=
  Airlock.runCommand words
