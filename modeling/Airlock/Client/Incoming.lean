import Airlock.Client.Perform

/-!
# The loop over incoming units

A unit is decoded and acted on at once. A response goes to the handle of its request; hooks that it
sets free run before the handle is served. What fits no request is noted as an event, and so is a
unit that is no message. The loop reads until the sink waits, ends or was aborted; at the end the
client is closed.
-/

set_option autoImplicit false

namespace Airlock.Client

variable {π : Type}

def keepEvent (client : Client π) (event : Event) : Client π :=
  { client with events := client.events.push event }

/-- Ends the outstanding handshake. After a failure it can be tried again; after a success the peer
is told, as far as it can be, and the waiting hooks run. -/
def endHandshake (client : Client) (id : Id) (outcome : Outcome) : Client :=
  match outcome with
  | .error _ => client.abandonHandshake id
  | .ok _ =>
    let client := { client with handshake? := none }
    drainHooks (if client.sendsInitialized then client.notifyIfOpen .handshakeDone else client)

def acceptResponse (client : Client) (id : Id) (outcome : Outcome) : Client :=
  let waited := client.pending.contains id
  let client := { client with pending := client.pending.remove id }
  let client :=
    if client.handshake? = some id then client.endHandshake id outcome else client
  if waited then { client with delivered := (id, outcome) :: client.delivered }
  else client.keepEvent (.orphaned id)

def acceptNotification (client : Client) (method : String) (params : Value) : Client :=
  match client.notificationHandlers.lookup method with
  | some handler => (perform (handler params) client).2
  | none => client

/-- Answers a request of the peer, as far as the queue takes the answer. -/
def acceptRequest (client : Client) (id : Id) (method : String) (params : Value) : Client :=
  let (outcome, client) :=
    match client.requestHandlers.lookup method with
    | some handler => perform (handler params) client
    | none => (.error (.methodNotFound method), client)
  client.sendIfOpen (.response id outcome)

def accept (client : Client) (unit : Bytes) : Client :=
  match client.codec.decode unit with
  | .error error => client.keepEvent (.decodeFailed error)
  | .ok (.response id outcome) => client.acceptResponse id outcome
  | .ok (.notification method params) => client.acceptNotification method params
  | .ok (.request id method params) => client.acceptRequest id method params

/-! ## Acting never touches the units that wait in the sink -/

@[simp] theorem units_close (client : Client) :
    client.close.link.sink.units = client.link.sink.units := by
  unfold close
  split <;> rfl

private theorem units_send {client sent : Client} {message : Message}
    (accepted : client.send message = .ok sent) :
    sent.link.sink.units = client.link.sink.units := by
  unfold send Link.send at accepted
  cases result : client.link.queue.enqueue (client.codec.encode message) with
  | error error => simp [result, Except.map] at accepted
  | ok queue => simp only [result, Except.map, Except.ok.injEq] at accepted; rw [← accepted]

private theorem units_notify {client sent : Client} {call : Call}
    (accepted : client.notify call = .ok sent) : sent.link.sink.units = client.link.sink.units := by
  unfold notify at accepted
  split at accepted
  · cases accepted
  · exact units_send accepted

@[simp] theorem units_sendIfOpen (client : Client) (message : Message) :
    (client.sendIfOpen message).link.sink.units = client.link.sink.units := by
  unfold sendIfOpen
  split
  · rename_i accepted
    exact units_send accepted
  · rfl

@[simp] theorem units_notifyIfOpen (client : Client) (call : Call) :
    (client.notifyIfOpen call).link.sink.units = client.link.sink.units := by
  unfold notifyIfOpen
  split
  · rename_i accepted
    exact units_notify accepted
  · rfl

private theorem units_enter {client sent : Client} {id : Id} {call : Call}
    (accepted : client.enter id call = .ok sent) :
    sent.link.sink.units = client.link.sink.units := by
  unfold enter at accepted
  split at accepted
  · cases accepted
  · simpa using units_send accepted

private theorem units_begin (client : Client) (call : Call) :
    (client.begin call).2.link.sink.units = client.link.sink.units := by
  simp only [begin]
  split
  · rfl
  · split
    · rfl
    · split <;> rfl

private theorem units_abandonHandshake (client : Client) (id : Id) :
    (client.abandonHandshake id).link.sink.units = client.link.sink.units := by
  unfold abandonHandshake
  split <;> rfl

private theorem units_submit (client : Client) (id : Id) (call : Call) :
    (client.submit id call).2.link.sink.units = client.link.sink.units := by
  unfold submit
  split
  · rename_i sent accepted
    exact units_enter accepted
  · unfold withdraw
    dsimp only
    split
    · rw [units_abandonHandshake]
    · rfl

@[simp] theorem units_request (client : Client) (call : Call) :
    (client.request call).2.link.sink.units = client.link.sink.units := by
  have begun := units_begin client call
  unfold request
  split
  · rename_i id next result
    rw [result] at begun
    rw [units_submit, begun]
  · rename_i error next result
    rw [result] at begun
    exact begun

@[simp] theorem units_perform (program : Program) (client : Client) :
    (perform program client).2.link.sink.units = client.link.sink.units := by
  induction program generalizing client with
  | finish => rfl
  | request call next ih =>
    rw [perform]
    have same := units_request client call
    split <;> rename_i result <;> rw [result] at same <;> rw [ih] <;> exact same
  | notify call next ih =>
    rw [perform]
    split
    · rename_i sent accepted
      rw [ih, units_notify accepted]
    · rw [ih]
  | hook body next bodyIH nextIH =>
    rw [perform]
    split <;> simp only [nextIH, bodyIH]
  | onNotification method handler next _ ih => rw [perform, ih]
  | onRequest method handler next _ ih => rw [perform, ih]
  | takeEvents next ih => rw [perform]; simp only [ih]
  | close next ih => rw [perform, ih, units_close]
  | phase next ih => rw [perform, ih]
  | pending next ih => rw [perform, ih]
  | release id next ih => rw [perform]; simp only [ih]; rfl
  | holds id next ih => rw [perform, ih]
  | note entry next ih => rw [perform, ih]; rfl

@[simp] theorem units_performAll (hooks : List Program) (client : Client) :
    (performAll hooks client).link.sink.units = client.link.sink.units := by
  induction hooks generalizing client with
  | nil => rfl
  | cons hook rest ih => exact (ih _).trans (units_perform hook client)

@[simp] theorem units_drainHooks (client : Client) :
    client.drainHooks.link.sink.units = client.link.sink.units := by
  fun_induction drainHooks client with
  | case1 | case2 => rfl
  | case3 client _ ih => rw [ih, units_performAll]

@[simp] theorem units_endHandshake (client : Client) (id : Id) (outcome : Outcome) :
    (client.endHandshake id outcome).link.sink.units = client.link.sink.units := by
  cases outcome with
  | error error => exact units_abandonHandshake client id
  | ok value =>
    unfold endHandshake
    rw [units_drainHooks]
    split
    · exact units_notifyIfOpen _ _
    · rfl

@[simp] theorem units_accept (client : Client) (unit : Bytes) :
    (client.accept unit).link.sink.units = client.link.sink.units := by
  unfold accept
  split
  · rfl
  · unfold acceptResponse
    dsimp only
    split <;> split <;> first | rfl | exact units_endHandshake _ _ _
  · unfold acceptNotification
    split
    · rw [units_perform]
    · rfl
  · unfold acceptRequest
    dsimp only
    rw [units_sendIfOpen]
    split
    · exact units_perform _ _
    · rfl

/-! ## The loop -/

inductive Intake where
  | accepted
  | waiting
  | ended (result : Except Error Unit)

/-- Acts on the next unit, if there is one. At the end of the stream, or when it was aborted, the
client is closed. -/
def step (client : Client) : Intake × Client :=
  match client.link.receive with
  | (.waiting, link) => (.waiting, { client with link })
  | (.ready (.ok (some unit)), link) => (.accepted, accept { client with link } unit)
  | (.ready (.ok none), link) => (.ended (.ok ()), close { client with link })
  | (.ready (.error error), link) => (.ended (.error error), close { client with link })

/-- A step that acts takes a unit out of the sink. -/
theorem size_step {client next : Client} (stepped : client.step = (.accepted, next)) :
    client.link.sink.size = next.link.sink.size + 1 := by
  unfold step at stepped
  split at stepped
  · cases stepped
  · rename_i unit link received
    simp only [Prod.mk.injEq, true_and] at stepped
    simp [← stepped, Sink.size, Link.units_receive received]
  · cases stepped
  · cases stepped

def drain (client : Client) : Poll (Except Error Unit) × Client :=
  match _stepped : client.step with
  | (.accepted, next) => drain next
  | (.waiting, next) => (.waiting, next)
  | (.ended result, next) => (.ready result, next)
termination_by client.link.sink.size
decreasing_by simp [size_step _stepped]

/-- Starts the loop. There is only one in the life of a client. -/
def startDrain (client : Client π) : Except Error (Client π) :=
  if client.running then .error .alreadyStarted else .ok { client with running := true }

end Airlock.Client
