import Airlock.Client.EventBuffer
import Airlock.Client.InFlight
import Airlock.Options
import Airlock.Channel.Link

/-!
# Clients

A client makes one link carry many conversations: it numbers its requests, remembers those in
flight, and hands every response to the handle of its request. The handshake is the request of one
method; at most one is outstanding, and none can follow a successful one. Hooks wait for the
handshake; a closed client drops them, as it refuses every further call.
-/

set_option autoImplicit false

namespace Airlock

structure Client (π : Type := Program) where
  codec : Codec
  sendsInitialized : Bool
  timeout? : Option Duration
  link : Link
  /-- the number of the next request -/
  nextId : Int64 := 1
  /-- whether the loop over incoming units was started; it is started only once -/
  running : Bool := false
  phase : Phase := .uninitialized
  /-- the outstanding request for the handshake -/
  handshake? : Option Id := none
  /-- hooks that wait for the handshake, the oldest first -/
  hooks : List π := []
  pending : InFlight := {}
  /-- outcomes by the requests that they answered -/
  delivered : List (Id × Outcome) := []
  /-- handles that were neither awaited nor given up -/
  handles : List Id := []
  notificationHandlers : List (String × (Value → π)) := []
  requestHandlers : List (String × (Value → π)) := []
  events : EventBuffer
  /-- what programs noted, the newest first -/
  journal : List Value := []

namespace Client

variable {π : Type}

def create (config : Config) (link : Link) : Client π where
  codec := config.codec
  sendsInitialized := config.sendsInitialized
  timeout? := config.timeout?
  link
  events := { capacity := config.eventCapacity }

/-! ## Sending -/

def send (client : Client π) (message : Message) : Except Error (Client π) :=
  (client.link.send (client.codec.encode message)).map fun link => { client with link }

def notify (client : Client π) (call : Call) : Except Error (Client π) :=
  if client.phase = .closed then .error .closed else client.send call.toNotification

/-- Puts a message into the queue, if the queue takes it. -/
def sendIfOpen (client : Client π) (message : Message) : Client π :=
  match client.send message with
  | .ok sent => sent
  | .error _ => client

/-- Sends a notification, if the client and the queue take it. -/
def notifyIfOpen (client : Client π) (call : Call) : Client π :=
  match client.notify call with
  | .ok sent => sent
  | .error _ => client

/-- Enters a request among those in flight, then sends it. -/
def enter (client : Client π) (id : Id) (call : Call) : Except Error (Client π) :=
  match client.pending.add? id with
  | none => .error .closed
  | some pending => { client with pending }.send (call.toRequest id)

/-! ## The handshake -/

/-- Forgets an outstanding handshake, which can then be tried again. Waiting hooks stay. -/
def abandonHandshake (client : Client π) (id : Id) : Client π :=
  if client.handshake? ≠ some id then client
  else
    { client with
      handshake? := none
      phase := if client.phase = .awaiting then .uninitialized else client.phase }

/-! ## Requests -/

/-- Takes a number for a request, and opens the handshake if the request is one. A call that is
refused here has used its number up. -/
def begin (client : Client π) (call : Call) : Except Error Id × Client π :=
  let id := Id.number client.nextId
  let client := { client with nextId := client.nextId + 1 }
  if client.phase = .closed then (.error .closed, client)
  else if call.method ≠ Methods.handshake then (.ok id, client)
  else if client.phase = .uninitialized then
    (.ok id, { client with phase := .awaiting, handshake? := some id })
  else (.error (.invalidState "initialize was already sent"), client)

/-- Takes back a begun request that could not be sent. -/
def withdraw (client : Client π) (id : Id) (call : Call) : Client π :=
  let client := { client with pending := client.pending.remove id }
  if call.method = Methods.handshake then client.abandonHandshake id else client

/-- Enters and sends a begun request, or takes it back. -/
def submit (client : Client π) (id : Id) (call : Call) : Except Error Id × Client π :=
  match client.enter id call with
  | .ok sent => (.ok id, sent)
  | .error error => (.error error, client.withdraw id call)

def request (client : Client π) (call : Call) : Except Error Id × Client π :=
  match client.begin call with
  | (.ok id, begun) => begun.submit id call
  | (.error error, refused) => (.error error, refused)

/-! ## The end -/

/-- Closes the client with both channels. Requests in flight get no answer any more, and waiting
hooks are dropped. -/
def close (client : Client π) : Client π :=
  if client.phase = .closed then client
  else
    { client with
      phase := .closed
      handshake? := none
      hooks := []
      pending := client.pending.close
      link := client.link.close }

/-! ## Handles -/

def hold (client : Client π) (id : Id) : Client π :=
  { client with handles := client.handles ++ [id] }

def release (client : Client π) (id : Id) : Bool × Client π :=
  (client.handles.contains id, { client with handles := client.handles.filter (· ≠ id) })

/-- What a request came to, if that is decided: the outcome that was delivered, or the end of the
client. -/
def result? (client : Client π) (id : Id) : Option (Except Error Value) :=
  match client.delivered.lookup id with
  | some (.ok value) => some (.ok value)
  | some (.error error) => some (.error (.peer error))
  | none => if client.pending.contains id then none else some (.error .closed)

/-- How the handle of a request is shown, with the timeout of its client. -/
def handleText (timeout? : Option Duration) (id : Id) : String :=
  let idText := match id with
    | .number n => "Number(" ++ toString n.toInt ++ ")"
    | .string s => "String(" ++ String.ofList (Text.quoted s.toList) ++ ")"
  let timeoutText := match timeout? with
    | some timeout => "Some(" ++ timeout.text ++ ")"
    | none => "None"
  "PendingResponse \x7b id: " ++ idText ++ ", timeout: " ++ timeoutText ++ " \x7d"

/-! ## Notes -/

def note (client : Client π) (entry : Value) : Client π :=
  { client with journal := entry :: client.journal }

def takeJournal (client : Client π) : List Value × Client π :=
  (client.journal.reverse, { client with journal := [] })

end Client

end Airlock
