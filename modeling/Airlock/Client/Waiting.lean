import Airlock.Client.Incoming
import Airlock.Channel.Transfer

/-!
# Suspended calls of a client

Three calls of a client wait: the loop over incoming units, a handle for its result, and the orderly
end. With a timeout, the time of a handle begins to run when it is polled for the first time. A
result that is already there wins over time that has run out.
-/

set_option autoImplicit false

namespace Airlock

/-- A handle that is awaited, with the moment at which its time runs out. -/
structure Awaited where
  id : Id
  deadline? : Option Duration := none

namespace Client

variable {π : Type}

/-- Polls an awaited handle at a moment. When time has run out the request is forgotten, and a
handshake can be tried again. -/
def pollAwaited (client : Client π) (now : Duration) (awaited : Awaited) :
    Poll (Except Error Value) × Awaited × Client π :=
  match client.result? awaited.id, client.timeout? with
  | some result, _ => (.ready result, awaited, client)
  | none, none => (.waiting, awaited, client)
  | none, some timeout =>
    let deadline := awaited.deadline?.getD (now.add timeout)
    if deadline.nanoseconds ≤ now.nanoseconds then
      let forgotten := { client with pending := client.pending.remove awaited.id }
      (.ready (.error (.timeout awaited.id timeout)), awaited,
        forgotten.abandonHandshake awaited.id)
    else (.waiting, { awaited with deadline? := some deadline }, client)

/-- Begins the orderly end: asks the peer to get ready. If that cannot be sent, the client is closed
at once. -/
def beginShutdown (client : Client π) : Except Error Awaited × Client π :=
  match client.request .shutdown with
  | (.ok id, client) => (.ok ⟨id, none⟩, client)
  | (.error error, client) => (.error error, client.close)

/-- Ends orderly, once the peer answered: tells the peer to end if it agreed, and closes. -/
def finishShutdown (client : Client π) (answer : Except Error Value) :
    Except Error Unit × Client π :=
  match answer with
  | .ok _ => (.ok (), (client.notifyIfOpen .exit).close)
  | .error error => (.error error, client.close)

inductive Task where
  | drain
  | answer (awaited : Awaited)
  | shutdown (awaited : Awaited)
  | transfer (transfer : Transfer)

inductive Task.Result where
  | ended (result : Except Error Unit)
  | answered (result : Except Error Value)
  | transferred (result : Transfer.Result)

def Task.turn (now : Duration) (task : Task) (client : Client) : Turn Task Result × Client :=
  match task with
  | .drain =>
    let waiting := client.link.sink.size
    match client.drain with
    | (.ready result, client) => (.finished (.ended result), client)
    | (.waiting, client) => (.kept .drain (0 < waiting), client)
  | .answer awaited =>
    match client.pollAwaited now awaited with
    | (.ready result, _, client) => (.finished (.answered result), client)
    | (.waiting, later, client) => (.kept (.answer later) false, client)
  | .shutdown awaited =>
    match client.pollAwaited now awaited with
    | (.ready reply, _, client) =>
      let (result, client) := client.finishShutdown reply
      (.finished (.ended result), client)
    | (.waiting, later, client) => (.kept (.shutdown later) false, client)
  | .transfer inner =>
    let (turned, link) := inner.turn client.link
    let client := { client with link }
    match turned with
    | .finished result => (.finished (.transferred result), client)
    | .kept inner moved => (.kept (.transfer inner) moved, client)

/-- Gives back what a cancelled call holds. A cancelled loop is not started again. -/
def Task.abandon (task : Task) (client : Client) : Client :=
  match task with
  | .transfer inner => { client with link := inner.giveBack client.link }
  | _ => client

end Client

end Airlock
