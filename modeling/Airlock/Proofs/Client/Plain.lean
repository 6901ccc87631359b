import Airlock.Proofs.Client.Outgoing

/-!
# Plain clients

A plain client is open at both ends and has no hooks, as one on which nothing but requests and
notifications was called. It sends whatever it is told to, except for a second handshake, and it
stays plain. A response to a request of it hands the outcome over, and does nothing else but tell
the peer of a handshake that is done.
-/

set_option autoImplicit false

namespace Airlock.Client

/-- A client that is open at both ends, has no hooks and can remember further requests. -/
structure Plain (client : Client) : Prop where
  hooks : client.hooks = []
  live : client.phase ≠ .closed
  queue : client.link.queue.closed = false
  sink : client.link.sink.closed = false
  whole : client.link.sink.abortReason? = none
  room : 0 < client.link.sink.capacity
  table : client.pending.closed = false

/-- Whether a handshake is outstanding, as a number. -/
def outstanding (client : Client) : Nat :=
  if client.handshake?.isSome then 1 else 0

/-- The response to a request in flight came in: its outcome is handed over, and the peer may have
been told of a handshake that is done. -/
structure Hears (client after : Client) (id : Id) (outcome : Outcome) (told : List Message) :
    Prop where
  plain : after.Plain
  codec : after.codec = client.codec
  nextId : after.nextId = client.nextId
  sink : after.link.sink = client.link.sink
  queue : after.link.queue.units = client.link.queue.units ++ told.map client.codec.encode
  pending : ∀ other ∈ client.pending.ids, other ≠ id → other ∈ after.pending.ids
  delivered : after.delivered = (id, outcome) :: client.delivered
  silent : ∀ message ∈ told, message = Call.handshakeDone.toNotification
  fewer : told.length + after.outstanding ≤ client.outstanding

/-- The handshake succeeded, and the peer may have been told so. -/
structure Tells (client after : Client) (told : List Message) : Prop where
  plain : after.Plain
  handshake : after.handshake? = none
  codec : after.codec = client.codec
  nextId : after.nextId = client.nextId
  sink : after.link.sink = client.link.sink
  queue : after.link.queue.units = client.link.queue.units ++ told.map client.codec.encode
  pending : after.pending = client.pending
  delivered : after.delivered = client.delivered
  silent : ∀ message ∈ told, message = Call.handshakeDone.toNotification
  few : told.length ≤ 1

variable {client : Client}

/-! ## Sending -/

/-- Messages were sent, and the requests among them are remembered. -/
structure Sends (client after : Client) (messages : List Message) : Prop where
  plain : after.Plain
  codec : after.codec = client.codec
  sink : after.link.sink = client.link.sink
  queue : after.link.queue.units =
    client.link.queue.units ++ messages.map client.codec.encode
  delivered : after.delivered = client.delivered
  pending : ∀ id ∈ client.pending.ids, id ∈ after.pending.ids
  asked : ∀ {id method params}, .request id method params ∈ messages → id ∈ after.pending.ids

theorem Plain.sends_nil (plain : client.Plain) : client.Sends client [] :=
  ⟨plain, rfl, rfl, (List.append_nil _).symm, rfl, fun _ member => member,
    fun member => by cases member⟩

theorem Sends.append {middle after : Client} {first second : List Message}
    (before : client.Sends middle first) (later : middle.Sends after second) :
    client.Sends after (first ++ second) where
  plain := later.plain
  codec := later.codec.trans before.codec
  sink := later.sink.trans before.sink
  queue := by
    rw [later.queue, before.queue, before.codec, List.map_append, List.append_assoc]
  delivered := later.delivered.trans before.delivered
  pending id member := later.pending id (before.pending id member)
  asked member := by
    obtain early | late := List.mem_append.mp member
    · exact later.pending _ (before.asked early)
    · exact later.asked late

theorem Plain.notify (plain : client.Plain) (call : Call) :
    client.notify call = .ok (client.enqueued call.toNotification) ∧
      client.Sends (client.enqueued call.toNotification) [call.toNotification] := by
  constructor
  · rw [Client.notify, if_neg plain.live, send_eq, plain.queue]
    rfl
  · refine ⟨{ plain with }, rfl, rfl, rfl, rfl, fun _ member => member, fun member => ?_⟩
    cases List.mem_singleton.mp member

/-- A request is refused only if it is a second handshake. -/
theorem Plain.request (plain : client.Plain) {call : Call}
    (first : call.method = Methods.handshake → client.phase = .uninitialized) :
    ∃ after, client.request call = (.ok (.number client.nextId), after) ∧
      client.Sends after [call.toRequest (.number client.nextId)] ∧
      after.nextId = client.nextId + 1 ∧
      after.phase = if call.method = Methods.handshake then .awaiting else client.phase := by
  have enters (begun : Client) (id : Id) (queue : begun.link.queue.closed = false)
      (table : begun.pending.closed = false) :
      begun.submit id call = (.ok id, (begun.entering id).enqueued (call.toRequest id)) := by
    obtain sent | ⟨error, undone⟩ := submit_cases begun id call
    · exact sent
    · rcases submit_error undone with closed | closed
      · cases queue.symm.trans closed
      · cases table.symm.trans closed
  have sends {begun : Client} (id : Id) (plain : begun.Plain) :
      begun.Sends ((begun.entering id).enqueued (call.toRequest id)) [call.toRequest id] := by
    refine ⟨{ plain with }, rfl, rfl, rfl, rfl, fun _ member => mem_entering.mpr (.inr member), ?_⟩
    intro other method params member
    cases List.mem_singleton.mp member
    exact mem_entering.mpr (.inl rfl)
  rw [Client.request, begin_eq, if_neg plain.live]
  by_cases handshake : call.method = Methods.handshake
  · rw [if_neg (fun other => other handshake), if_pos (first handshake), if_pos handshake]
    refine ⟨_, enters client.attempting _ plain.queue plain.table, ?_, rfl, rfl⟩
    have attempting : client.attempting.Plain := { plain with live := by nofun }
    exact { sends (.number client.nextId) attempting with }
  · rw [if_pos handshake, if_neg handshake]
    refine ⟨_, enters client.numbered _ plain.queue plain.table, ?_, rfl, rfl⟩
    have numbered : client.numbered.Plain := { plain with }
    exact { sends (.number client.nextId) numbered with }

theorem Plain.request_again (plain : client.Plain) {call : Call}
    (again : call.method = Methods.handshake) (late : client.phase ≠ .uninitialized) :
    (client.request call).1 = .error (.invalidState "initialize was already sent") := by
  rw [Client.request, begin_eq, if_neg plain.live, if_neg (fun other => other again), if_neg late]

private theorem Plain.notifyIfOpen (plain : client.Plain) (call : Call) :
    client.notifyIfOpen call = client.enqueued call.toNotification := by
  rw [Client.notifyIfOpen, (plain.notify call).1]

/-! ## Responses that come in -/

private theorem Plain.drain (plain : client.Plain) :
    client.drainHooks.Plain ∧
      client.drainHooks = { client with phase := client.drainHooks.phase } := by
  rw [drainHooks, if_pos plain.hooks]
  split
  · exact ⟨{ plain with live := nofun }, rfl⟩
  · exact ⟨plain, rfl⟩

/-- A success of the handshake is told to the peer if the client is to do so, and no hook runs. -/
theorem Plain.endHandshake_ok (plain : client.Plain) (id : Id) (value : Value) :
    ∃ told, client.Tells (client.endHandshake id (.ok value)) told := by
  let settled : Client := { client with handshake? := none }
  have settledPlain : settled.Plain := { plain with }
  have ended : client.endHandshake id (.ok value) =
      (if settled.sendsInitialized then settled.notifyIfOpen .handshakeDone
        else settled).drainHooks := rfl
  rw [ended]
  split
  · have sent := settledPlain.notifyIfOpen .handshakeDone
    have sentPlain : (settled.enqueued Call.handshakeDone.toNotification).Plain :=
      { settledPlain with }
    obtain ⟨drainedPlain, same⟩ := sentPlain.drain
    rw [sent]
    rw [same] at drainedPlain ⊢
    exact ⟨[Call.handshakeDone.toNotification], drainedPlain, rfl, rfl, rfl, rfl, rfl, rfl, rfl,
      List.forall_mem_singleton.mpr rfl, Nat.le_refl 1⟩
  · obtain ⟨drainedPlain, same⟩ := settledPlain.drain
    rw [same] at drainedPlain ⊢
    exact ⟨[], drainedPlain, rfl, rfl, rfl, rfl, (List.append_nil _).symm, rfl, rfl,
      List.forall_mem_nil _, Nat.zero_le 1⟩

/-- The end of the handshake, and then the outcome handed over. -/
theorem Plain.settle (plain : client.Plain) {id : Id} (outcome : Outcome)
    (outstanding : client.handshake? = some id) :
    ∃ told, client.Hears
      (((client.leaving id).endHandshake id outcome).handingOver id outcome true) id outcome
      told := by
  have left : (client.leaving id).Plain := { plain with }
  have open? : client.outstanding = 1 := by
    rw [Client.outstanding, outstanding]
    rfl
  have others : ∀ other ∈ client.pending.ids, other ≠ id →
      other ∈ (client.leaving id).pending.ids :=
    fun other member different => mem_leaving.mpr ⟨member, different⟩
  cases outcome with
  | error error =>
    have still : (client.leaving id).handshake? = some id := outstanding
    have ended : (client.leaving id).endHandshake id (.error error) =
        { client.leaving id with
          handshake? := none
          phase := if client.phase = .awaiting then .uninitialized else client.phase } := by
      rw [endHandshake, abandonHandshake, if_neg (fun other => other still)]
      rfl
    rw [ended]
    refine ⟨[], { left with live := ?_ }, rfl, rfl, rfl, (List.append_nil _).symm, others, rfl,
      List.forall_mem_nil _, ?_⟩
    · intro closed
      have phase : (if client.phase = .awaiting then Phase.uninitialized else client.phase) =
          .closed := closed
      split at phase
      · cases phase
      · exact plain.live phase
    · rw [open?]
      exact Nat.zero_le 1
  | ok value =>
    obtain ⟨told, tells⟩ := left.endHandshake_ok id value
    have ended : (((client.leaving id).endHandshake id (.ok value)).handingOver id (.ok value)
        true).outstanding = 0 := by
      show (if ((client.leaving id).endHandshake id (.ok value)).handshake?.isSome then 1 else 0) =
        0
      rw [tells.handshake]
      rfl
    refine ⟨told, { tells.plain with }, tells.codec, tells.nextId, tells.sink, tells.queue, ?_,
      congrArg (_ :: ·) tells.delivered, tells.silent, ?_⟩
    · intro other member different
      have there := others other member different
      rw [← tells.pending] at there
      exact there
    · rw [open?, ended]
      exact tells.few

theorem Plain.accept (plain : client.Plain) {unit : Bytes} {id : Id} {outcome : Outcome}
    (reads : client.codec.decode unit = .ok (.response id outcome))
    (waits : id ∈ client.pending.ids) :
    ∃ told, client.Hears (client.accept unit) id outcome told := by
  have waited : client.pending.contains id = true := decide_eq_true waits
  have acts : client.accept unit = client.acceptResponse id outcome := by
    rw [Client.accept, reads]
  rw [acts, acceptResponse_eq, waited]
  by_cases outstanding : client.handshake? = some id
  · have still : (client.leaving id).handshake? = some id := outstanding
    rw [if_pos still]
    exact plain.settle outcome outstanding
  · have still : (client.leaving id).handshake? ≠ some id := outstanding
    rw [if_neg still]
    exact ⟨[], { plain with }, rfl, rfl, rfl, (List.append_nil _).symm,
      fun other member different => mem_leaving.mpr ⟨member, different⟩, rfl,
      List.forall_mem_nil _, Nat.le_of_eq (Nat.zero_add _)⟩

end Airlock.Client
