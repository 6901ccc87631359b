import Airlock.Cli.Files
import Airlock.Cli.Settings
import Airlock.Json.Reader
import Airlock.Script.Basic

/-!
# How a command fails

A failure has a cause and says, the outermost first, what the command was about when it arose. The
exit code tells an error of the peer and a timeout from everything else.
-/

set_option autoImplicit false

namespace Airlock.Cli

inductive Cause where
  | file (fault : FileFault)
  | badSettings
  | settings (fault : SettingsFault)
  | badJson (reason : String)
  | script (fault : Script.Fault)
  | session (error : Error)

def errorChain : Error → List String
  | .peer error => [(Error.peer error).message, error.display]
  | .decode error => [(Error.decode error).message, error.message]
  | error => [error.message]

def Cause.chain : Cause → List String
  | .file fault => [fault.message]
  | .badSettings => ["invalid TOML"]
  | .settings fault => fault.chain
  | .badJson reason => [reason]
  | .script (.badLine line reason) => [(Script.Fault.badLine line reason).message, reason]
  | .script fault => [fault.message]
  | .session error => errorChain error

def Cause.exitCode : Cause → Nat
  | .session (.peer _) => 2
  | .session (.timeout _ _) => 3
  | _ => 1

structure Failure where
  contexts : List String
  cause : Cause

def Failure.within (failure : Failure) (context : String) : Failure :=
  { failure with contexts := context :: failure.contexts }

def Failure.report (failure : Failure) : String :=
  match failure.contexts ++ failure.cause.chain with
  | [] => ""
  | first :: rest =>
    "error: " ++ first ++ "\n" ++ String.join (rest.map fun line => "  caused by: " ++ line ++ "\n")

def inContext {α ε : Type} (context : String) (cause : ε → Cause) (result : Except ε α) :
    Except Failure α :=
  result.mapError fun error => ⟨[context], cause error⟩

end Airlock.Cli
