import Airlock.Cli.Conversation

/-!
# The replay command

Sends every entry of a script, then shows what the requests came to, one line each and in their
order. An error of the core makes a line; anything else that goes wrong makes the command fail.
-/

set_option autoImplicit false

namespace Airlock.Cli

/-- Sends entries in their order; gives the requests among them. -/
def sendAll : List Script.Entry → Talk (List (String × Id))
  | [] => pure []
  | entry :: rest => do
    if entry.notify then
      Talk.notify ⟨entry.method, entry.params⟩
      sendAll rest
    else
      let id ← Talk.request ⟨entry.method, entry.params⟩
      return (entry.method, id) :: (← sendAll rest)

def replayLine (method : String) (id : Id) (outcome : Outcome) : Value :=
  .ofMembers [("id", id.toValue), ("method", .string method), Message.outcomeMember outcome]

def awaitAll : List (String × Id) → Talk (List Value)
  | [] => pure []
  | (method, id) :: rest => do
    let outcome ← match ← Talk.awaitResult ⟨id, none⟩ with
      | .ok value => pure (.ok value)
      | .error (.peer error) => pure (.error error)
      | .error error => Talk.within (method ++ " (" ++ id.display ++ ") failed") (Talk.fail error)
    return replayLine method id outcome :: (← awaitAll rest)

def replayTalk (entries : List Script.Entry) : Talk (List Value) := do
  awaitAll (← sendAll entries)

def readScript (files : Files) (path : String) : Except Failure (List Script.Entry) := do
  let text ← inContext ("failed to read script: " ++ path) .file (files.readText path)
  inContext ("invalid script: " ++ path) .script (Script.parse text.toList)

def replay (files : Files) (config : Config) (path : String) : Except Break String := do
  let entries ← (readScript files path).mapError .failed
  let lines ← Talk.converse config (replayTalk entries)
  return String.join (lines.map fun line => Json.compact line ++ "\n")

end Airlock.Cli
