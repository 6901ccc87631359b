import Airlock.Proofs.Client.World

/-!
# Paths

A step is one thing that a client does, with what has to hold of the client and its history before
it; a path is a sequence of steps. Every trail is a path to where its function ends. Whatever all
steps keep therefore holds at every point of every run, and proofs about runs need not follow
programs, batches and units again.
-/

set_option autoImplicit false

namespace Airlock.Client

/-! ## Where a history stands -/

/-- Whether a response is being acted on: which one, whether a request waited for it, and whether it
was a success of the outstanding handshake. -/
inductive Mode where
  | resting
  | answering (id : Id) (outcome : Outcome) (waited settled : Bool)

/-- The handshake of the response that is being acted on succeeded. -/
def Mode.settle : Mode → Mode
  | .resting => .resting
  | .answering id outcome waited _ => .answering id outcome waited true

/-- What a history has begun and not ended. -/
structure Frame (π : Type := Program) where
  mode : Mode := .resting
  /-- hooks of the batch that did not start yet -/
  due : List π := []
  /-- hooks that started and did not end, the innermost first -/
  active : List π := []
  /-- handles that are awaited -/
  waiting : List Id := []

variable {π : Type}

def Frame.next (frame : Frame π) : Occurrence π → Frame π
  | .arrived id outcome waited => { frame with mode := .answering id outcome waited false }
  | .settled _ => { frame with mode := frame.mode.settle }
  | .delivered _ _ | .orphaned _ => { frame with mode := .resting }
  | .gathered hooks => { frame with due := hooks }
  | .began hook false => { frame with due := frame.due.tail, active := hook :: frame.active }
  | .began hook true => { frame with active := hook :: frame.active }
  | .ended _ => { frame with active := frame.active.tail }
  | .awaited id => { frame with waiting := frame.waiting ++ [id] }
  | .resolved id _ | .forgotten id =>
    { frame with waiting := frame.waiting.filter (· ≠ id) }
  | _ => frame

def History.frame : History π → Frame π
  | [] => {}
  | occurrence :: history => (History.frame history).next occurrence

@[simp] theorem History.frame_cons (occurrence : Occurrence π) (history : History π) :
    History.frame (occurrence :: history) = (History.frame history).next occurrence := rfl

@[simp] theorem History.extend_nil (history : History π) : history.extend [] = history := rfl

@[simp] theorem History.extend_cons (history : History π) (entry : Occurrence π × Client π)
    (trail : Trail π) :
    history.extend (entry :: trail) = History.extend (entry.1 :: history) trail := by
  simp [History.extend]

@[simp] theorem History.extend_append (history : History π) (first second : Trail π) :
    history.extend (first ++ second) = (history.extend first).extend second := by
  simp [History.extend]

/-! ## Steps -/

def numbered (client : Client π) : Client π :=
  { client with nextId := client.nextId + 1 }

/-- The client with the handshake opened under the next number. -/
def attempting (client : Client π) : Client π :=
  { client.numbered with phase := .awaiting, handshake? := some (.number client.nextId) }

def entering (client : Client π) (id : Id) : Client π :=
  { client with pending := { client.pending with ids := id.insertOrdered client.pending.ids } }

/-- The client with a request taken out. -/
def leaving (client : Client π) (id : Id) : Client π :=
  { client with pending := client.pending.remove id }

def queueing (client : Client π) (hook : π) : Client π :=
  { client with hooks := client.hooks ++ [hook] }

def enqueued (client : Client π) (message : Message) : Client π :=
  let queue := client.link.queue
  let units := queue.units ++ [client.codec.encode message]
  { client with link := { client.link with queue := { queue with units } } }

/-- The client with an outcome handed over, or the event that nobody waited for it. -/
def handingOver (client : Client π) (id : Id) (outcome : Outcome) (waited : Bool) : Client π :=
  if waited then { client with delivered := (id, outcome) :: client.delivered }
  else client.keepEvent (.orphaned id)

theorem acceptResponse_eq (client : Client) (id : Id) (outcome : Outcome) :
    client.acceptResponse id outcome =
      (if (client.leaving id).handshake? = some id then (client.leaving id).endHandshake id outcome
        else client.leaving id).handingOver id outcome (client.pending.contains id) := rfl

theorem responseTrail_eq (client : Client) (id : Id) (outcome : Outcome) :
    client.responseTrail id outcome =
      (.arrived id outcome (client.pending.contains id), client.leaving id) ::
        ((if (client.leaving id).handshake? = some id then
            (client.leaving id).endHandshakeTrail id outcome else []) ++
          [(if client.pending.contains id then .delivered id outcome else .orphaned id,
            (if (client.leaving id).handshake? = some id then
                (client.leaving id).endHandshake id outcome
              else client.leaving id).handingOver id outcome (client.pending.contains id))]) := rfl

/-- Two clients that differ at most in their loop, handlers, events and journal, and in a link of
which nothing was opened again. -/
structure Alike (first second : Client π) : Prop where
  same : second = { first with
    running := second.running
    link := second.link
    notificationHandlers := second.notificationHandlers
    requestHandlers := second.requestHandlers
    events := second.events
    journal := second.journal }
  queue : first.link.queue.closed → second.link.queue.closed
  sink : first.link.sink.closed → second.link.sink.closed

/-- One step of a client with a history: what is listed of it, and the client after it. -/
inductive Step : History π → Client π → Trail π → Client π → Prop where
  | refused {history client} {call : Call}
      (barred : client.phase = .closed ∨
        call.method = Methods.handshake ∧ client.phase ≠ .uninitialized) :
      Step history client [(.refused call, client.numbered)] client.numbered
  | withdrawn {history client} {call : Call} (live : client.phase ≠ .closed)
      (plain : call.method ≠ Methods.handshake) :
      Step history client
        [(.withdrawn (.number client.nextId) call, client.numbered.leaving (.number client.nextId))]
        (client.numbered.leaving (.number client.nextId))
  | issued {history client} {call : Call} {after : Client π} (live : client.phase ≠ .closed)
      (plain : call.method ≠ Methods.handshake)
      (sent : after = (client.numbered.entering (.number client.nextId)).enqueued
        (call.toRequest (.number client.nextId))) :
      Step history client [(.issued (.number client.nextId) call, after)] after
  | attemptWithdrawn {history client} {call : Call} {after : Client π}
      (idle : client.phase = .uninitialized) (opening : call.method = Methods.handshake)
      (undone : after =
        { client.numbered.leaving (.number client.nextId) with handshake? := none }) :
      Step history client [(.attempted (.number client.nextId), client.attempting),
        (.withdrawn (.number client.nextId) call, after)] after
  | attemptIssued {history client} {call : Call} {after : Client π}
      (idle : client.phase = .uninitialized) (opening : call.method = Methods.handshake)
      (sent : after = (client.attempting.entering (.number client.nextId)).enqueued
        (call.toRequest (.number client.nextId))) :
      Step history client [(.attempted (.number client.nextId), client.attempting),
        (.issued (.number client.nextId) call, after)] after
  | held {history client} {id : Id} {call : Call}
      (fresh : history.head? = some (.issued id call)) :
      Step history client [(.held id, client.hold id)] (client.hold id)
  | released {history client} {id : Id} :
      Step history client [(.released id, (client.release id).2)] (client.release id).2
  | notified {history client} {call : Call} (live : client.phase ≠ .closed) :
      Step history client [(.notified call, client.enqueued call.toNotification)]
        (client.enqueued call.toNotification)
  | queued {history client} {hook : π}
      (early : client.phase = .uninitialized ∨ client.phase = .awaiting) :
      Step history client [(.registered hook, client.queueing hook)] (client.queueing hook)
  | started {history client} {hook : π} (late : client.phase = .initialized) :
      Step history client [(.registered hook, client), (.began hook true, client)] client
  | dropped {history client} {hook : π} (late : client.phase = .closed) :
      Step history client [(.registered hook, client)] client
  | began {history client} {hook : π} {rest : List π}
      (next : history.frame.due = hook :: rest) :
      Step history client [(.began hook false, client)] client
  | ended {history client} {hook : π} {outer : List π}
      (innermost : history.frame.active = hook :: outer) :
      Step history client [(.ended hook, client)] client
  | closed {history client} (live : client.phase ≠ .closed) :
      Step history client [(.closed, client.close)] client.close
  | arrived {history client} {id : Id} {outcome : Outcome}
      (rest : history.frame.mode = .resting) :
      Step history client [(.arrived id outcome (client.pending.contains id), client.leaving id)]
        (client.leaving id)
  | settled {history client} {id : Id} {value : Value} {waited : Bool} {after : Client π}
      (last : history.head? = some (.arrived id (.ok value) waited))
      (outstanding : client.handshake? = some id)
      (past : after = { client with handshake? := none }) :
      Step history client [(.settled id, after)] after
  | announced {history client} {id : Id} (last : history.head? = some (.settled id))
      (live : client.phase ≠ .closed) :
      Step history client [(.announced, client.enqueued Call.handshakeDone.toNotification)]
        (client.enqueued Call.handshakeDone.toNotification)
  | abandoned {history client} {id : Id} {error : ResponseError} {waited : Bool}
      (last : history.head? = some (.arrived id (.error error) waited))
      (outstanding : client.handshake? = some id) :
      Step history client [(.abandoned id, client.abandonHandshake id)]
        (client.abandonHandshake id)
  | gathered {history client} {id : Id} {outcome : Outcome} {waited : Bool} {after : Client π}
      (draining : history.frame.mode = .answering id outcome waited true)
      (free : history.frame.due = []) (some : client.hooks ≠ [])
      (taken : after = { client with hooks := [] }) :
      Step history client [(.gathered client.hooks, after)] after
  | opened {history client} {id : Id} {outcome : Outcome} {waited : Bool} {after : Client π}
      (draining : history.frame.mode = .answering id outcome waited true)
      (free : history.frame.due = []) (none : client.hooks = [])
      (open? : client.phase = .awaiting) (done : after = { client with phase := .initialized }) :
      Step history client [(.opened, after)] after
  | delivered {history client} {id : Id} {outcome : Outcome} {settled : Bool} {after : Client π}
      (waited : history.frame.mode = .answering id outcome true settled)
      (free : history.frame.due = []) (idle : history.frame.active = [])
      (past : settled = false → client.handshake? ≠ some id)
      (done : settled = true → client.phase ≠ .awaiting)
      (handed : after = { client with delivered := (id, outcome) :: client.delivered }) :
      Step history client [(.delivered id outcome, after)] after
  | orphaned {history client} {id : Id} {outcome : Outcome} {settled : Bool} {after : Client π}
      (stray : history.frame.mode = .answering id outcome false settled)
      (free : history.frame.due = []) (idle : history.frame.active = [])
      (past : settled = false → client.handshake? ≠ some id)
      (done : settled = true → client.phase ≠ .awaiting)
      (noted : after = client.keepEvent (.orphaned id)) :
      Step history client [(.orphaned id, after)] after
  | replied {history client} {id : Id} {outcome : Outcome} :
      Step history client [(.replied id outcome, client.enqueued (.response id outcome))]
        (client.enqueued (.response id outcome))
  | awaitedHeld {history client} {id : Id} (held : id ∈ client.handles) :
      Step history client [(.awaited id, (client.release id).2)] (client.release id).2
  | awaitedFresh {history client} {id : Id} {call : Call}
      (fresh : history.head? = some (.issued id call)) :
      Step history client [(.awaited id, client)] client
  | expired {history client} {id : Id} {timeout : Duration} {after : Client π}
      (rest : history.frame.mode = .resting) (waits : id ∈ history.frame.waiting)
      (open? : client.result? id = none)
      (forgotten : after = (client.leaving id).abandonHandshake id) :
      Step history client
        [(.expired id timeout, after), (.resolved id (.error (.timeout id timeout)), after)] after
  | resolved {history client} {id : Id} {result : Except Error Value}
      (rest : history.frame.mode = .resting) (waits : id ∈ history.frame.waiting)
      (decided : client.result? id = some result) :
      Step history client [(.resolved id result, client)] client
  | forgotten {history client} {id : Id} : Step history client [(.forgotten id, client)] client
  | quiet {history client after} (alike : Alike client after) :
      Step history client [(.quiet, after)] after

inductive Path : History π → Client π → Trail π → Client π → Prop where
  | done {history client} : Path history client [] client
  | step {history client chunk middle trail last} :
      Step history client chunk middle → Path (History.extend history chunk) middle trail last →
      Path history client (chunk ++ trail) last

theorem Step.path {history : History π} {client last : Client π} {trail : Trail π}
    (step : Step history client trail last) : Path history client trail last := by
  simpa using Path.step step .done

theorem Path.append {history : History π} {client middle last : Client π} {first second : Trail π}
    (before : Path history client first middle)
    (after : Path (history.extend first) middle second last) :
    Path history client (first ++ second) last := by
  induction before with
  | done => simpa using after
  | step step _ ih =>
    rw [List.append_assoc]
    exact .step step (ih (by simpa using after))

theorem Path.cons {history : History π} {client middle last : Client π} {occurrence : Occurrence π}
    {trail : Trail π} (step : Step history client [(occurrence, middle)] middle)
    (after : Path (occurrence :: history) middle trail last) :
    Path history client ((occurrence, middle) :: trail) last := by
  have further : Path (history.extend [(occurrence, middle)]) middle trail last := by
    simpa using after
  exact .step step further

/-! ## What holds along a trail -/

def Trail.last (client : Client π) (trail : Trail π) : Client π :=
  trail.foldl (fun _ entry => entry.2) client

/-- Whether a relation holds of every occurrence, with the history and the client before it and the
client after it. -/
def Trail.Along (relation : History π → Client π → Occurrence π → Client π → Prop) :
    History π → Client π → Trail π → Prop
  | _, _, [] => True
  | history, client, (occurrence, after) :: rest =>
    relation history client occurrence after ∧
      Trail.Along relation (occurrence :: history) after rest

private theorem Trail.along_append
    {relation : History π → Client π → Occurrence π → Client π → Prop}
    {history : History π} {client : Client π} {first second : Trail π}
    (before : Trail.Along relation history client first)
    (after : Trail.Along relation (history.extend first) (Trail.last client first) second) :
    Trail.Along relation history client (first ++ second) := by
  induction first generalizing history client with
  | nil => exact after
  | cons entry rest ih =>
    rw [History.extend_cons] at after
    exact ⟨before.1, ih before.2 after⟩

theorem Trail.Along.mono {weak strong : History π → Client π → Occurrence π → Client π → Prop}
    (implies : ∀ {history client occurrence after},
      strong history client occurrence after → weak history client occurrence after)
    {history : History π} {client : Client π} {trail : Trail π}
    (along : Trail.Along strong history client trail) :
    Trail.Along weak history client trail := by
  induction trail generalizing history client with
  | nil => trivial
  | cons entry rest ih => exact ⟨implies along.1, ih along.2⟩

private theorem Step.last {history : History π} {client after : Client π} {chunk : Trail π}
    (step : Step history client chunk after) : Trail.last client chunk = after := by
  cases step <;> rfl

theorem Path.last {history : History π} {client after : Client π} {trail : Trail π}
    (path : Path history client trail after) : Trail.last client trail = after := by
  induction path with
  | done => rfl
  | step taken _ ih =>
    rw [Trail.last, List.foldl_append]
    exact (congrArg (Trail.last · _) taken.last).trans ih

/-- What every step keeps and implies holds along a path, and at its end. The steps may rely on a
bound that holds of the history at the end, and so of every earlier one. -/
theorem Path.along_within {bound : History π → Prop} {invariant : History π → Client π → Prop}
    {relation : History π → Client π → Occurrence π → Client π → Prop}
    (earlier : ∀ {history : History π} {trail : Trail π},
      bound (history.extend trail) → bound history)
    (step : ∀ {history : History π} {client chunk after}, bound (history.extend chunk) →
      invariant history client → Step history client chunk after →
      Trail.Along relation history client chunk ∧ invariant (history.extend chunk) after)
    {history : History π} {client last : Client π} {trail : Trail π}
    (path : Path history client trail last) (within : bound (history.extend trail))
    (start : invariant history client) :
    Trail.Along relation history client trail ∧ invariant (history.extend trail) last := by
  induction path with
  | done => exact ⟨trivial, start⟩
  | step taken _ ih =>
    rw [History.extend_append] at within ⊢
    obtain ⟨here, kept⟩ := step (earlier within) start taken
    obtain ⟨rest, final⟩ := ih within kept
    refine ⟨Trail.along_append here ?_, final⟩
    rw [taken.last]
    exact rest

theorem Path.along {invariant : History π → Client π → Prop}
    {relation : History π → Client π → Occurrence π → Client π → Prop}
    (step : ∀ {history client chunk after}, invariant history client →
      Step history client chunk after →
      Trail.Along relation history client chunk ∧ invariant (history.extend chunk) after)
    {history : History π} {client last : Client π} {trail : Trail π}
    (path : Path history client trail last) (start : invariant history client) :
    Trail.Along relation history client trail ∧ invariant (history.extend trail) last :=
  @Path.along_within π (fun _ => True) invariant relation (fun _ => trivial) (fun _ => step) _ _ _ _
    path trivial start

end Airlock.Client
