import Airlock.Cli.Call
import Airlock.Cli.Replay

/-!
# Running a command line

Settings are read before anything else of a command. Of the process that runs the command line its
number is all that can be told to a core.
-/

set_option autoImplicit false

namespace Airlock.Cli

inductive Report where
  | misuse
  | help
  | finished (exitCode : Nat) (output errors : String)
  /-- the command would wait forever -/
  | stuck

def readSettings (files : Files) (path? : Option String) : Except Failure Settings :=
  match path? with
  | none => .ok {}
  | some path => do
    let text ← inContext ("failed to read config file: " ++ path) .file (files.readText path)
    match Settings.parse? text.toList with
    | some settings => return settings
    | none => throw ⟨["failed to parse config file: " ++ path], .badSettings⟩

/-- The configuration that the command line and its settings file make. -/
def readConfig (files : Files) (arguments : Arguments) : Except Failure Config := do
  let settings ← readSettings files arguments.config?
  (settings.merge arguments.overrides).mapError fun fault => ⟨[], .settings fault⟩

def execute (files : Files) (arguments : Arguments) (process : UInt32) : Except Break String := do
  let config ← (readConfig files arguments).mapError .failed
  match arguments.command with
  | .call inner => call process files config inner
  | .replay script => replay files config script

def run (files : Files) (words : List String) (process : UInt32 := 0) : Report :=
  match parse words with
  | .error .misuse => .misuse
  | .error .help => .help
  | .error .version => .finished 0 ("sandlink " ++ Document.version ++ "\n") ""
  | .ok arguments =>
    match execute files arguments process with
    | .ok output => .finished 0 output ""
    | .error (.failed failure) => .finished failure.cause.exitCode "" failure.report
    | .error .stuck => .stuck

def paths (words : List String) : List String :=
  match parse words with
  | .error _ => []
  | .ok arguments =>
    arguments.config?.toList ++
      (match arguments.command with
        | .call inner => inner.open?.toList
        | .replay script => [script])

end Airlock.Cli
