import Airlock.Client.Waiting

/-!
# Trails of a client

A trail tells what happens to a client, one occurrence after the other, each with the client right
after it. The trails below follow the functions of the client case by case; that they end where the
functions end is proved with the paths. Occurrences between two others of one call are listed too,
so a statement about every point of a trail also speaks about the inside of hooks and handlers.
-/

set_option autoImplicit false

namespace Airlock.Client

inductive Occurrence (π : Type := Program) where
  /-- a request for the handshake took its number and opened the handshake -/
  | attempted (id : Id)
  /-- a request was entered and sent -/
  | issued (id : Id) (call : Call)
  /-- a begun request could not be sent and was taken back -/
  | withdrawn (id : Id) (call : Call)
  /-- a request was refused before it was begun -/
  | refused (call : Call)
  | held (id : Id)
  | released (id : Id)
  | notified (call : Call)
  | registered (hook : π)
  /-- a hook started, out of the batch or at once where it was registered -/
  | began (hook : π) (atOnce : Bool)
  | ended (hook : π)
  | closed
  /-- a response was dispatched; tells whether a request waited for it -/
  | arrived (id : Id) (outcome : Outcome) (waited : Bool)
  | settled (id : Id)
  /-- the peer was told by itself that the handshake is done -/
  | announced
  | abandoned (id : Id)
  /-- the hooks that wait became the batch to run -/
  | gathered (hooks : List π)
  | opened
  | delivered (id : Id) (outcome : Outcome)
  | orphaned (id : Id)
  | replied (id : Id) (outcome : Outcome)
  | awaited (id : Id)
  | expired (id : Id) (after : Duration)
  | resolved (id : Id) (result : Except Error Value)
  | forgotten (id : Id)
  /-- anything that touches neither requests nor hooks nor the phase -/
  | quiet

/-- What happened, the newest first. -/
abbrev History (π : Type := Program) := List (Occurrence π)

/-- What happens, the oldest first, with the client after each occurrence. -/
abbrev Trail (π : Type := Program) := List (Occurrence π × Client π)

variable {π : Type}

/-- A history with the occurrences of a trail on top. -/
def History.extend (history : History π) (trail : Trail π) : History π :=
  (trail.map (·.1)).reverse ++ history

def Trail.history (trail : Trail π) : History π :=
  History.extend [] trail

/-! ## Calls -/

/-- What becomes of a begun request. -/
def submitted (client : Client π) (id : Id) (call : Call) : Occurrence π × Client π :=
  match client.submit id call with
  | (.ok _, sent) => (.issued id call, sent)
  | (.error _, after) => (.withdrawn id call, after)

def requestTrail (client : Client π) (call : Call) : Trail π :=
  match client.begin call with
  | (.error _, refused) => [(.refused call, refused)]
  | (.ok id, begun) =>
    let last := begun.submitted id call
    if call.method = Methods.handshake then [(.attempted id, begun), last] else [last]

def closeTrail (client : Client π) : Trail π :=
  if client.phase = .closed then [] else [(.closed, client.close)]

def notifyTrail (client : Client π) (call : Call) : Trail π :=
  match client.notify call with
  | .ok sent => [(.notified call, sent)]
  | .error _ => []

def performTrail : Program → Client → Trail
  | .finish _, _ => []
  | .request call next, client =>
    client.requestTrail call ++
      match client.request call with
      | (.ok id, sent) => (.held id, sent.hold id) :: performTrail (next (.ok id)) (sent.hold id)
      | (.error error, after) => performTrail (next (.error error)) after
  | .notify call next, client =>
    client.notifyTrail call ++
      match client.notify call with
      | .ok sent => performTrail (next (.ok ())) sent
      | .error error => performTrail (next (.error error)) client
  | .hook body next, client =>
    match client.phase with
    | .uninitialized | .awaiting =>
      let queued := { client with hooks := client.hooks ++ [body] }
      (.registered body, queued) :: performTrail next queued
    | .initialized =>
      let after := (perform body client).2
      [(.registered body, client), (.began body true, client)] ++ performTrail body client
        ++ (.ended body, after) :: performTrail next after
    | .closed => (.registered body, client) :: performTrail next client
  | .onNotification method handler next, client =>
    let after :=
      { client with notificationHandlers := (method, handler) :: client.notificationHandlers }
    (.quiet, after) :: performTrail next after
  | .onRequest method handler next, client =>
    let after := { client with requestHandlers := (method, handler) :: client.requestHandlers }
    (.quiet, after) :: performTrail next after
  | .takeEvents next, client =>
    let after := { client with events := client.events.takeAll.2 }
    (.quiet, after) :: performTrail (next client.events.takeAll.1) after
  | .close next, client => client.closeTrail ++ performTrail next client.close
  | .phase next, client => performTrail (next client.phase) client
  | .pending next, client => performTrail (next client.pending.ids) client
  | .release id next, client =>
    (.released id, (client.release id).2) ::
      performTrail (next (client.release id).1) (client.release id).2
  | .holds id next, client => performTrail (next (client.handles.contains id)) client
  | .note entry next, client => (.quiet, client.note entry) :: performTrail next (client.note entry)

def performAllTrail : List Program → Client → Trail
  | [], _ => []
  | hook :: rest, client =>
    let after := (perform hook client).2
    (.began hook false, client) :: performTrail hook client
      ++ (.ended hook, after) :: performAllTrail rest after

def drainTrail (client : Client) : Trail :=
  if client.hooks = [] then
    if client.phase = .awaiting then [(.opened, { client with phase := .initialized })] else []
  else
    let taken := { client with hooks := [] }
    (.gathered client.hooks, taken) :: performAllTrail client.hooks taken
      ++ drainTrail (performAll client.hooks taken)
termination_by Batch.mk client.hooks
decreasing_by
  rename_i some
  exact ⟨some, fun _ waits => (mem_hooks_performAll waits).resolve_left (by simp)⟩

/-! ## Incoming units -/

/-- The trail of telling the peer that the handshake is done. -/
def announceTrail (client : Client π) : Trail π :=
  if client.sendsInitialized then
    match client.notify .handshakeDone with
    | .ok sent => [(.announced, sent)]
    | .error _ => []
  else []

def endHandshakeTrail (client : Client) (id : Id) (outcome : Outcome) : Trail :=
  match outcome with
  | .error _ => [(.abandoned id, client.abandonHandshake id)]
  | .ok _ =>
    let settled := { client with handshake? := none }
    let told := if client.sendsInitialized then settled.notifyIfOpen .handshakeDone else settled
    (.settled id, settled) :: (settled.announceTrail ++ told.drainTrail)

def responseTrail (client : Client) (id : Id) (outcome : Outcome) : Trail :=
  let waited := client.pending.contains id
  let taken := { client with pending := client.pending.remove id }
  let last := if waited then .delivered id outcome else .orphaned id
  (.arrived id outcome waited, taken) ::
    ((if taken.handshake? = some id then taken.endHandshakeTrail id outcome else [])
      ++ [(last, client.acceptResponse id outcome)])

def notificationTrail (client : Client) (method : String) (params : Value) : Trail :=
  match client.notificationHandlers.lookup method with
  | some handler => performTrail (handler params) client
  | none => []

/-- The trail of a reply, if the queue takes it. -/
def replyTrail (client : Client π) (id : Id) (outcome : Outcome) : Trail π :=
  match client.send (.response id outcome) with
  | .ok sent => [(.replied id outcome, sent)]
  | .error _ => []

def answerTrail (client : Client) (id : Id) (method : String) (params : Value) : Trail :=
  match client.requestHandlers.lookup method with
  | some handler =>
    performTrail (handler params) client
      ++ (perform (handler params) client).2.replyTrail id (perform (handler params) client).1
  | none => client.replyTrail id (.error (.methodNotFound method))

def acceptTrail (client : Client) (unit : Bytes) : Trail :=
  match client.codec.decode unit with
  | .error error => [(.quiet, client.keepEvent (.decodeFailed error))]
  | .ok (.response id outcome) => client.responseTrail id outcome
  | .ok (.notification method params) => client.notificationTrail method params
  | .ok (.request id method params) => client.answerTrail id method params

def stepTrail (client : Client) : Trail :=
  let received := { client with link := client.link.receive.2 }
  (.quiet, received) ::
    match client.link.receive.1 with
    | .waiting => []
    | .ready (.ok (some unit)) => received.acceptTrail unit
    | .ready (.ok none) | .ready (.error _) => received.closeTrail

end Airlock.Client
