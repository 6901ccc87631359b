import Airlock.Cli.Failure
import Airlock.Document.Handlers
import Airlock.Peer.Responder
import Airlock.Session.Waiting

/-!
# Conversations with the document core

A conversation talks to a fresh session over the document core. What it sends is acted on when it
awaits something. When nothing moves any more an awaited handle can only run out of time, and the
clock is set forward to that moment; without a timeout it would wait forever, and the conversation
is stuck. At its end the client is closed, and the session runs to its end.
-/

set_option autoImplicit false

namespace Airlock.Cli

structure Conversation where
  session : Session (Responding Document.Store)
  progress : Progress
  now : Duration := ⟨0⟩

inductive Break where
  | failed (failure : Failure)
  | stuck

/-- What is done in a conversation. The conversation goes on after a break. -/
abbrev Talk (α : Type) := Conversation → Except Break α × Conversation

namespace Talk

variable {α β : Type}

def pure (a : α) : Talk α := fun conversation =>
  (.ok a, conversation)

/-- One thing after the other, unless the first one breaks off. -/
def bind (first : Talk α) (next : α → Talk β) : Talk β := fun conversation =>
  match first conversation with
  | (.ok a, conversation) => next a conversation
  | (.error broken, conversation) => (.error broken, conversation)

instance : Monad Talk where
  pure := Talk.pure
  bind := Talk.bind

def fail (error : Error) : Talk α := fun conversation =>
  (.error (.failed ⟨[], .session error⟩), conversation)

def within (context : String) (part : Talk α) : Talk α := fun conversation =>
  match part conversation with
  | (.error (.failed failure), conversation) =>
    (.error (.failed (failure.within context)), conversation)
  | other => other

def onClient (call : Client → Except Error α × Client) : Talk α := fun conversation =>
  match conversation.session.host? with
  | none => fail .notInitialized conversation
  | some host =>
    let (result, client) := call host.client
    let conversation :=
      { conversation with session := conversation.session.updateClient fun _ => client }
    match result with
    | .ok a => (.ok a, conversation)
    | .error error => fail error conversation

def request (call : Call) : Talk Id :=
  onClient fun client => client.request call

def notify (call : Call) : Talk Unit :=
  onClient fun client =>
    match client.notify call with
    | .ok client => (.ok (), client)
    | .error error => (.error error, client)

def settle : Talk Unit := fun conversation =>
  let (_, progress, session) := conversation.session.goOn Host.run conversation.progress
  (.ok (), { conversation with progress, session })

def poll (awaited : Awaited) : Talk (Poll (Except Error Value) × Awaited) := fun conversation =>
  onClient
    (fun client =>
      let (polled, awaited, client) := client.pollAwaited conversation.now awaited
      (.ok (polled, awaited), client))
    conversation

def advanceTo (moment : Duration) : Talk Unit := fun conversation =>
  (.ok (), { conversation with now := moment })

def stuck : Talk α := fun conversation =>
  (.error .stuck, conversation)

def awaitResult (awaited : Awaited) : Talk (Except Error Value) := do
  settle
  match ← poll awaited with
  | (.ready result, _) => return result
  | (.waiting, awaited) =>
    match awaited.deadline? with
    | none => stuck
    | some deadline =>
      advanceTo deadline
      match ← poll awaited with
      | (.ready result, _) => return result
      | (.waiting, _) => stuck

def await (id : Id) : Talk Value := do
  match ← awaitResult ⟨id, none⟩ with
  | .ok value => return value
  | .error error => fail error

def shutdown : Talk Unit := do
  let awaited ← onClient Client.beginShutdown
  let answer ← awaitResult awaited
  onClient fun client => client.finishShutdown answer

def close : Talk Unit :=
  onClient fun client => (.ok (), client.close)

/-- Has a conversation with a fresh core. A failure of the session itself counts before what the
conversation came to. -/
def converse (config : Config) (talk : Talk α) : Except Break α :=
  let (_, session) :=
    Session.offer ⟨config, .empty⟩ Document.handlers.peer { core := {} }
  match session.begin with
  | .error error => .error (.failed ⟨["session failed"], .session error⟩)
  | .ok (progress, session) =>
    let (talked, conversation) := talk { session, progress }
    let (_, conversation) := (do close; settle) conversation
    match Host.result? conversation.progress with
    | some (.error error) => .error (.failed ⟨["session failed"], .session error⟩)
    | some (.ok ()) => talked
    | none => .error .stuck

end Talk

end Airlock.Cli
