import Airlock.Proofs.Client.Dispatch

/-!
# What a client says over its link

The dealings of a client are the calls that were made on it, in programs and from outside, each with
its reply, the requests of the peer with their answers, and the successes of the handshake. They are
listed as they happen, also inside of hooks and handlers. What goes into the queue is told by them
alone: each puts in the one unit that its message encodes to, or nothing when it was refused.
-/

set_option autoImplicit false

namespace Airlock.Client

inductive Dealing where
  | requested (call : Call) (reply : Except Error Id)
  | notified (call : Call) (reply : Except Error Unit)
  /-- a request of the peer was answered; tells whether the queue was open then -/
  | answered (id : Id) (method : String) (outcome : Outcome) (opened : Bool)
  /-- the handshake succeeded; tells whether the queue was open then -/
  | settled (id : Id) (opened : Bool)

namespace Dealing

/-- The message that goes into the queue with a dealing. -/
def message? (announces : Bool) : Dealing → Option Message
  | .requested call (.ok id) => some (call.toRequest id)
  | .notified call (.ok ()) => some call.toNotification
  | .answered id _ outcome true => some (.response id outcome)
  | .settled _ true => if announces then some Call.handshakeDone.toNotification else none
  | .requested _ (.error _) | .notified _ (.error _) => none
  | .answered _ _ _ false | .settled _ false => none

/-- The reply to a call for a request. -/
def reply? : Dealing → Option (Except Error Id)
  | .requested _ reply => some reply
  | _ => none

end Dealing

/-! ## Listing the dealings -/

def performDealings : Program → Client → List Dealing
  | .finish _, _ => []
  | .request call next, client =>
    match client.request call with
    | (.ok id, sent) => .requested call (.ok id) :: performDealings (next (.ok id)) (sent.hold id)
    | (.error error, after) =>
      .requested call (.error error) :: performDealings (next (.error error)) after
  | .notify call next, client =>
    match client.notify call with
    | .ok sent => .notified call (.ok ()) :: performDealings (next (.ok ())) sent
    | .error error => .notified call (.error error) :: performDealings (next (.error error)) client
  | .hook body next, client =>
    match client.phase with
    | .uninitialized | .awaiting => performDealings next (client.queueing body)
    | .initialized => performDealings body client ++ performDealings next (perform body client).2
    | .closed => performDealings next client
  | .onNotification method handler next, client =>
    performDealings next
      { client with notificationHandlers := (method, handler) :: client.notificationHandlers }
  | .onRequest method handler next, client =>
    performDealings next
      { client with requestHandlers := (method, handler) :: client.requestHandlers }
  | .takeEvents next, client =>
    performDealings (next client.events.takeAll.1) { client with events := client.events.takeAll.2 }
  | .close next, client => performDealings next client.close
  | .phase next, client => performDealings (next client.phase) client
  | .pending next, client => performDealings (next client.pending.ids) client
  | .release id next, client =>
    performDealings (next (client.release id).1) (client.release id).2
  | .holds id next, client => performDealings (next (client.handles.contains id)) client
  | .note entry next, client => performDealings next (client.note entry)

def performAllDealings : List Program → Client → List Dealing
  | [], _ => []
  | hook :: rest, client =>
    performDealings hook client ++ performAllDealings rest (perform hook client).2

def drainDealings (client : Client) : List Dealing :=
  if client.hooks = [] then []
  else
    let taken := { client with hooks := [] }
    performAllDealings client.hooks taken ++ drainDealings (performAll client.hooks taken)
termination_by Batch.mk client.hooks
decreasing_by
  rename_i some
  exact ⟨some, fun _ waits => (mem_hooks_performAll waits).resolve_left (by simp)⟩

/-- The client behind a success of the handshake, once the peer was told. -/
def announcing (client : Client) : Client :=
  if client.sendsInitialized then client.notifyIfOpen .handshakeDone else client

def endHandshakeDealings (client : Client) (id : Id) : Outcome → List Dealing
  | .error _ => []
  | .ok _ =>
    .settled id (!client.link.queue.closed) ::
      ({ client with handshake? := none }.announcing).drainDealings

def responseDealings (client : Client) (id : Id) (outcome : Outcome) : List Dealing :=
  if client.handshake? = some id then (client.leaving id).endHandshakeDealings id outcome else []

def notificationDealings (client : Client) (method : String) (params : Value) : List Dealing :=
  match client.notificationHandlers.lookup method with
  | some handler => performDealings (handler params) client
  | none => []

/-- A request of the peer is answered by the handler that its method has when it comes in, or else
by an error that names the method. -/
def answerDealings (client : Client) (id : Id) (method : String) (params : Value) : List Dealing :=
  match client.requestHandlers.lookup method with
  | some handler =>
    let (outcome, after) := perform (handler params) client
    performDealings (handler params) client ++
      [.answered id method outcome (!after.link.queue.closed)]
  | none => [.answered id method (.error (.methodNotFound method)) (!client.link.queue.closed)]

def acceptDealings (client : Client) (unit : Bytes) : List Dealing :=
  match client.codec.decode unit with
  | .error _ => []
  | .ok (.response id outcome) => client.responseDealings id outcome
  | .ok (.notification method params) => client.notificationDealings method params
  | .ok (.request id method params) => client.answerDealings id method params

def finishDealings (client : Client) : Except Error Value → List Dealing
  | .ok _ => [.notified .exit ((client.notify .exit).map fun _ => ())]
  | .error _ => []

namespace World

def waiterDealings (world : World) (now : Duration) (waiter : Waiter) : List Dealing :=
  match world.client.pollAwaited now waiter.awaited with
  | (.ready result, _, after) => if waiter.ends then after.finishDealings result else []
  | (.waiting, _, _) => []

def actDealings (world : World) : Act → List Dealing
  | .call program => performDealings program world.client
  | .intake =>
    if world.looping then
      match world.client.next? with
      | some unit => world.client.received.acceptDealings unit
      | none => []
    else []
  | .shutdown => [.requested .shutdown (world.client.request .shutdown).1]
  | .poll id now =>
    match world.waiter? id with
    | some waiter => world.waiterDealings now waiter
    | none => []
  | _ => []

def dealings : World → List Act → List Dealing
  | _, [] => []
  | world, next :: rest => world.actDealings next ++ dealings (world.act next) rest

/-- The units that an act takes out of the queue. -/
def actPulled (world : World) : Act → List Bytes
  | .link .pull =>
    match world.client.link.pull.1 with
    | .ready (some unit) => [unit]
    | _ => []
  | .link .takeAll => world.client.link.queue.takeAll.1
  | _ => []

/-- The units that the far end took out of the queue, the oldest first. -/
def pulled : World → List Act → List Bytes
  | _, [] => []
  | world, next :: rest => world.actPulled next ++ pulled (world.act next) rest

end World

/-! ## What dealings do -/

/-- What dealings show in. -/
def ledger (client : Client) : Codec × Bool × List Bytes × Int64 :=
  (client.codec, client.sendsInitialized, client.link.queue.units, client.nextId)

/-- Between a client and the client after it these dealings took place: their messages went into the
queue and nothing else did, and the calls for requests took the numbers in turn. What was taken out
of the queue meanwhile is counted in. -/
structure Effect (client : Client) (dealings : List Dealing) (after : Client)
    (pulled : List Bytes := []) : Prop where
  codec : after.codec = client.codec
  announces : after.sendsInitialized = client.sendsInitialized
  queue : pulled ++ after.link.queue.units = client.link.queue.units ++
    (dealings.filterMap (Dealing.message? client.sendsInitialized)).map client.codec.encode
  next : after.nextId = client.nextId + Int64.ofNat (dealings.filterMap Dealing.reply?).length
  numbers : ∀ (k : Nat) (id : Id), (dealings.filterMap Dealing.reply?)[k]? = some (.ok id) →
    id = .number (client.nextId + Int64.ofNat k)

namespace Effect

variable {client middle last : Client} {first second : List Dealing}

/-- Nothing was dealt. -/
theorem none (same : last.ledger = client.ledger) : Effect client [] last where
  codec := congrArg (·.1) same
  announces := congrArg (·.2.1) same
  queue := by
    have queues : last.link.queue.units = client.link.queue.units := congrArg (·.2.2.1) same
    simp [queues]
  next := by
    have nexts : last.nextId = client.nextId := congrArg (·.2.2.2) same
    simp [nexts]
  numbers := by simp

private theorem append {pulled later : List Bytes} (before : Effect client first middle pulled)
    (after : Effect middle second last later) :
    Effect client (first ++ second) last (pulled ++ later) where
  codec := after.codec.trans before.codec
  announces := after.announces.trans before.announces
  queue := by
    rw [List.append_assoc, after.queue, ← List.append_assoc, before.queue, before.codec,
      before.announces, List.filterMap_append, List.map_append, List.append_assoc]
  next := by
    rw [after.next, before.next, List.filterMap_append, List.length_append, Int64.ofNat_add,
      Int64.add_assoc]
  numbers k id replied := by
    rw [List.filterMap_append] at replied
    by_cases early : k < (first.filterMap Dealing.reply?).length
    · rw [List.getElem?_append_left early] at replied
      exact before.numbers k id replied
    · rw [List.getElem?_append_right (Nat.not_lt.mp early)] at replied
      have place : Int64.ofNat k = Int64.ofNat (first.filterMap Dealing.reply?).length +
          Int64.ofNat (k - (first.filterMap Dealing.reply?).length) := by
        rw [← Int64.ofNat_add, Nat.add_sub_cancel' (Nat.not_lt.mp early)]
      rw [after.numbers _ id replied, before.next, Int64.add_assoc, ← place]

private theorem cons {dealing : Dealing} (before : Effect client [dealing] middle)
    (after : Effect middle second last) : Effect client (dealing :: second) last :=
  before.append after

/-- Dealings with a client that differs in nothing that they show in. -/
theorem after_none (before : Effect client [] middle) (after : Effect middle second last) :
    Effect client second last :=
  before.append after

private theorem behind (after : Effect middle second last) (same : middle.ledger = client.ledger) :
    Effect client second last :=
  (none same).after_none after

private theorem then_none (before : Effect client first middle) (after : Effect middle [] last) :
    Effect client first last := by
  have both := before.append after
  rwa [List.append_nil] at both

/-- A dealing that asks for no number. -/
theorem single {dealing : Dealing} (plain : dealing.reply? = Option.none)
    (codec : last.codec = client.codec)
    (announces : last.sendsInitialized = client.sendsInitialized)
    (queue : last.link.queue.units = client.link.queue.units ++
      ((dealing.message? client.sendsInitialized).toList).map client.codec.encode)
    (next : last.nextId = client.nextId) : Effect client [dealing] last where
  codec := codec
  announces := announces
  queue := by
    rw [List.nil_append, queue]
    cases said : dealing.message? client.sendsInitialized <;> simp [said]
  next := by simp [plain, next]
  numbers := by simp [plain]

/-- A call for a request takes a number, and is replied to with it or with an error. -/
theorem asked {call : Call} {reply : Except Error Id} (codec : last.codec = client.codec)
    (announces : last.sendsInitialized = client.sendsInitialized)
    (queue : last.link.queue.units = client.link.queue.units ++
      ((Dealing.message? client.sendsInitialized (.requested call reply)).toList).map
        client.codec.encode)
    (next : last.nextId = client.nextId + 1)
    (number : ∀ id, reply = .ok id → id = .number client.nextId) :
    Effect client [.requested call reply] last where
  codec := codec
  announces := announces
  queue := by
    rw [List.nil_append, queue]
    cases reply <;> rfl
  next := next
  numbers k id replied := by
    cases k with
    | zero =>
      have zero : client.nextId + Int64.ofNat 0 = client.nextId := Int64.add_zero _
      rw [zero]
      exact number id (Option.some.inj replied)
    | succ k => cases replied

end Effect

/-! ## Calls -/

variable {client after : Client}

private theorem effect_abandon (client : Client) (id : Id) :
    Effect client [] (client.abandonHandshake id) := by
  unfold abandonHandshake
  split
  · exact .none rfl
  · exact .none rfl

private theorem effect_withdraw (client : Client) (id : Id) (call : Call) :
    Effect client [] (client.withdraw id call) := by
  have left : Effect client [] (client.leaving id) := .none rfl
  unfold withdraw
  dsimp only
  split
  · exact left.after_none (effect_abandon _ id)
  · exact left

private theorem effect_close (client : Client) : Effect client [] client.close := by
  unfold close
  split
  · exact .none rfl
  · exact .none rfl

/-- A begun request is a dealing with the client that has taken the number. -/
theorem effect_submit {begun : Client} {id : Id} (call : Call)
    (codec : begun.codec = client.codec)
    (announces : begun.sendsInitialized = client.sendsInitialized)
    (link : begun.link = client.link) (next : begun.nextId = client.nextId + 1)
    (number : id = .number client.nextId) :
    Effect client [.requested call (begun.submit id call).1] (begun.submit id call).2 := by
  obtain sent | ⟨error, undone⟩ := submit_cases begun id call
  · rw [sent]
    refine .asked codec announces ?_ next fun other same => ?_
    · simp [Dealing.message?, enqueued, entering, link, codec]
    · cases same
      exact number
  · have withdrawn := effect_withdraw begun id call
    have queue : (begun.withdraw id call).link.queue.units = client.link.queue.units := by
      simpa [link] using withdrawn.queue
    have number : (begun.withdraw id call).nextId = begun.nextId := by simpa using withdrawn.next
    rw [undone]
    refine .asked (withdrawn.codec.trans codec) (withdrawn.announces.trans announces) ?_
      (number.trans next) nofun
    exact queue.trans (List.append_nil _).symm

private theorem effect_request (client : Client) (call : Call) :
    Effect client [.requested call (client.request call).1] (client.request call).2 := by
  unfold request
  rcases result : client.begin call with ⟨reply, begun⟩
  cases reply with
  | error error =>
    obtain ⟨rfl, -⟩ := begin_refused result
    exact .asked rfl rfl (List.append_nil _).symm rfl nofun
  | ok id =>
    obtain ⟨number, -, ⟨-, rfl⟩ | ⟨-, -, rfl⟩⟩ := begin_ok result
    · exact effect_submit call rfl rfl rfl rfl number
    · exact effect_submit call rfl rfl rfl rfl number

private theorem effect_notified {sent : Client} {call : Call}
    (accepted : client.notify call = .ok sent) :
    Effect client [.notified call (.ok ())] sent := by
  obtain ⟨-, rfl⟩ := notify_ok accepted
  exact .single rfl rfl rfl rfl rfl

private theorem effect_unnotified (client : Client) (call : Call) (error : Error) :
    Effect client [.notified call (.error error)] client :=
  .single rfl rfl rfl (by simp [Dealing.message?]) rfl

/-! ## Programs -/

private theorem effect_perform (program : Program) (client : Client) :
    Effect client (performDealings program client) (perform program client).2 := by
  induction program generalizing client with
  | finish outcome => exact .none rfl
  | request call next ih =>
    have request := effect_request client call
    rw [performDealings, perform]
    rcases result : client.request call with ⟨reply, after⟩
    rw [result] at request
    cases reply with
    | error error => exact request.cons (ih (.error error) after)
    | ok id =>
      have held : Effect after [] (after.hold id) := .none rfl
      exact request.cons (held.after_none (ih (.ok id) (after.hold id)))
  | notify call next ih =>
    rw [performDealings, perform]
    cases result : client.notify call with
    | ok sent => exact (effect_notified result).cons (ih (.ok ()) sent)
    | error error => exact (effect_unnotified client call error).cons (ih (.error error) client)
  | hook body next bodyIH nextIH =>
    have queued : Effect client [] (client.queueing body) := .none rfl
    cases phase : client.phase with
    | uninitialized =>
      rw [performDealings, perform_hook_early (.inl phase), phase]
      exact queued.after_none (nextIH _)
    | awaiting =>
      rw [performDealings, perform_hook_early (.inr phase), phase]
      exact queued.after_none (nextIH _)
    | initialized =>
      rw [performDealings, perform, phase]
      exact (bodyIH client).append (nextIH _)
    | closed =>
      rw [performDealings, perform, phase]
      exact nextIH client
  | onNotification method handler next _ ih =>
    exact .behind (ih _) rfl
  | onRequest method handler next _ ih =>
    exact .behind (ih _) rfl
  | takeEvents next ih => exact .behind (ih _ _) rfl
  | close next ih => exact (effect_close client).after_none (ih client.close)
  | phase next ih => exact ih client.phase client
  | pending next ih => exact ih client.pending.ids client
  | release id next ih => exact .behind (ih _ _) rfl
  | holds id next ih => exact ih (client.handles.contains id) client
  | note entry next ih => exact .behind (ih _) rfl

private theorem effect_performAll (hooks : List Program) (client : Client) :
    Effect client (performAllDealings hooks client) (performAll hooks client) := by
  induction hooks generalizing client with
  | nil => exact .none rfl
  | cons hook rest ih => exact (effect_perform hook client).append (ih (perform hook client).2)

private theorem effect_drain (client : Client) :
    Effect client client.drainDealings client.drainHooks := by
  fun_induction drainHooks client with
  | case1 client none open? =>
    rw [drainDealings, if_pos none]
    exact .none rfl
  | case2 client none past =>
    rw [drainDealings, if_pos none]
    exact .none rfl
  | case3 client some ih =>
    rw [drainDealings, if_neg some]
    exact .behind ((effect_performAll client.hooks _).append ih) rfl

/-! ## Messages from the peer -/

private theorem effect_send (client : Client) {message : Message} {dealing : Dealing}
    (plain : dealing.reply? = none)
    (said : dealing.message? client.sendsInitialized =
      if client.link.queue.closed then none else some message) :
    Effect client [dealing] (client.sendIfOpen message) := by
  unfold sendIfOpen
  rw [send_eq]
  cases closed : client.link.queue.closed with
  | true =>
    simp only [closed, if_true] at said
    exact .single plain rfl rfl (by simp [said]) rfl
  | false =>
    simp only [closed, Bool.false_eq_true, if_false] at said
    exact .single plain rfl rfl (by simp [said, enqueued]) rfl

/-- Behind a success of the handshake the peer is told when the client is set to and the queue is
open. -/
theorem effect_announcing (client : Client) (live : client.phase ≠ .closed) (id : Id) :
    Effect client [.settled id (!client.link.queue.closed)] client.announcing := by
  unfold announcing
  cases told : client.sendsInitialized with
  | true =>
    have same : client.notifyIfOpen .handshakeDone =
        client.sendIfOpen Call.handshakeDone.toNotification := by
      unfold notifyIfOpen sendIfOpen notify
      rw [if_neg live]
    rw [if_pos rfl, same]
    apply effect_send client rfl
    cases client.link.queue.closed <;> simp [Dealing.message?, told]
  | false =>
    refine .single rfl rfl rfl ?_ rfl
    cases closed : client.link.queue.closed <;> simp [Dealing.message?, told]

private theorem effect_endHandshake (client : Client) (live : client.phase ≠ .closed) (id : Id)
    (outcome : Outcome) :
    Effect client (client.endHandshakeDealings id outcome) (client.endHandshake id outcome) := by
  cases outcome with
  | error error => exact effect_abandon client id
  | ok value =>
    let past : Client := { client with handshake? := none }
    have settled : Effect client [] past := .none rfl
    have told : Effect past [.settled id (!client.link.queue.closed)] past.announcing :=
      effect_announcing past live id
    exact settled.after_none (told.cons (effect_drain past.announcing))

private theorem effect_response (client : Client)
    (alive : ∀ id, client.handshake? = some id → client.phase ≠ .closed)
    (id : Id) (outcome : Outcome) :
    Effect client (client.responseDealings id outcome) (client.acceptResponse id outcome) := by
  have left : Effect client [] (client.leaving id) := .none rfl
  have handed (before : Client) (waited : Bool) :
      Effect before [] (before.handingOver id outcome waited) := by
    cases waited with
    | true => exact .none rfl
    | false => exact .none rfl
  rw [acceptResponse_eq, responseDealings]
  by_cases outstanding : client.handshake? = some id
  · have still : (client.leaving id).handshake? = some id := outstanding
    have ended := effect_endHandshake (client.leaving id) (alive id outstanding) id outcome
    rw [if_pos outstanding, if_pos still]
    exact left.after_none (ended.then_none (handed _ _))
  · have still : (client.leaving id).handshake? ≠ some id := outstanding
    rw [if_neg outstanding, if_neg still]
    exact left.after_none (handed _ _)

private theorem effect_answered (client : Client) (id : Id) (method : String) (outcome : Outcome) :
    Effect client [.answered id method outcome (!client.link.queue.closed)]
      (client.sendIfOpen (.response id outcome)) := by
  apply effect_send client rfl
  cases client.link.queue.closed <;> rfl

private theorem effect_accept (client : Client)
    (alive : ∀ id, client.handshake? = some id → client.phase ≠ .closed) (unit : Bytes) :
    Effect client (client.acceptDealings unit) (client.accept unit) := by
  unfold acceptDealings accept
  cases client.codec.decode unit with
  | error error => exact .none rfl
  | ok message =>
    cases message with
    | response id outcome => exact effect_response client alive id outcome
    | notification method params =>
      dsimp only
      unfold notificationDealings acceptNotification
      cases client.notificationHandlers.lookup method with
      | some handler => exact effect_perform (handler params) client
      | none => exact .none rfl
    | request id method params =>
      dsimp only
      unfold answerDealings acceptRequest
      cases client.requestHandlers.lookup method with
      | some handler =>
        exact (effect_perform (handler params) client).append (effect_answered _ id method _)
      | none => exact effect_answered client id method _

/-! ## Acts -/

private theorem effect_finish (client : Client) (answer : Except Error Value) :
    Effect client (client.finishDealings answer) (client.finishShutdown answer).2 := by
  cases answer with
  | error error => exact effect_close client
  | ok value =>
    have told : Effect client [.notified .exit ((client.notify .exit).map fun _ => ())]
        (client.notifyIfOpen .exit) := by
      unfold notifyIfOpen
      cases result : client.notify .exit with
      | ok sent => exact effect_notified result
      | error error => exact effect_unnotified client .exit error
    exact told.then_none (effect_close _)

namespace World

private theorem effect_waiter (world : World) (now : Duration) (waiter : Waiter) :
    Effect world.client (world.waiterDealings now waiter) (world.pollWaiter now waiter).client := by
  unfold waiterDealings pollWaiter
  rcases polled : world.client.pollAwaited now waiter.awaited with ⟨result, later, after⟩
  cases result with
  | waiting =>
    obtain ⟨rfl, -⟩ := pollAwaited_waiting polled
    exact .none rfl
  | ready result =>
    have before : Effect world.client [] after := by
      obtain ⟨-, rfl⟩ | ⟨timeout, -, -, -, rfl⟩ := pollAwaited_ready polled
      · exact .none rfl
      · exact .behind (effect_abandon _ _) rfl
    dsimp only [dismiss]
    split
    · exact before.after_none (effect_finish after result)
    · exact before

/-- What others do to the link takes units out of the queue or leaves them there. -/
theorem effect_link (world : World) (move : LinkMove) :
    Effect world.client [] (world.act (.link move)).client (world.actPulled (.link move)) := by
  have moved (queue : world.actPulled (.link move) ++ (world.client.link.after move).queue.units =
      world.client.link.queue.units) :
      Effect world.client [] (world.act (.link move)).client (world.actPulled (.link move)) :=
    ⟨rfl, rfl, by rwa [List.filterMap_nil, List.map_nil, List.append_nil],
      by simp [act, manage], by simp⟩
  apply moved
  cases move with
  | pull =>
    obtain ⟨unit, rest, units, taken⟩ | ⟨-, -, same⟩ | ⟨-, -, same⟩ := world.client.link.pull_cases
    · simp only [actPulled, Link.after, taken, units, List.singleton_append]
    · simp only [actPulled, Link.after, same, List.nil_append]
    · simp only [actPulled, Link.after, same, List.nil_append]
  | takeAll => exact List.append_nil _
  | _ => rfl

private theorem effect_intake (world : World)
    (alive : ∀ id, world.client.handshake? = some id → world.client.phase ≠ .closed) :
    Effect world.client (world.actDealings .intake) (world.act .intake).client := by
  cases looping : world.looping with
  | false =>
    rw [(intake_idle looping).2, actDealings, if_neg (by simp [looping])]
    exact .none rfl
  | true =>
    have received : Effect world.client [] world.client.received := .none rfl
    rw [(intake_looping looping).2, actDealings, if_pos looping]
    cases next : world.client.next? with
    | some unit =>
      rw [step_next next]
      exact received.after_none (effect_accept world.client.received alive unit)
    | none =>
      rw [(step_eq world.client).2]
      unfold next? at next
      cases polled : world.client.link.receive.1 with
      | waiting => exact received
      | ready arrived =>
        obtain error | unit? := arrived
        · exact received.after_none (effect_close _)
        · rw [polled] at next
          obtain rfl : unit? = none := next
          exact received.after_none (effect_close _)

private theorem effect_act (world : World) (act : Act)
    (alive : ∀ id, world.client.handshake? = some id → world.client.phase ≠ .closed) :
    Effect world.client (world.actDealings act) (world.act act).client (world.actPulled act) := by
  cases act with
  | call program => exact effect_perform program world.client
  | link move => exact world.effect_link move
  | intake => exact world.effect_intake alive
  | start =>
    obtain ⟨-, -, same⟩ | ⟨-, -, started⟩ := world.start_cases
    · rw [same]
      exact .none rfl
    · rw [started]
      exact .none rfl
  | await id =>
    simp only [World.act, manage]
    split
    · exact .none rfl
    · exact .none rfl
  | shutdown =>
    have asked := effect_request world.client .shutdown
    simp only [World.act, manage, actDealings, actPulled, beginShutdown]
    rcases result : world.client.request .shutdown with ⟨reply, after⟩
    rw [result] at asked
    cases reply with
    | error error => exact asked.then_none (effect_close after)
    | ok id => exact asked
  | poll id now =>
    simp only [World.act, manage, actDealings, actPulled]
    cases world.waiter? id with
    | none => exact .none rfl
    | some waiter => exact world.effect_waiter now waiter
  | cancel | forget => exact .none rfl

/-! ## Runs -/

/-- The handshake of a client that came from nothing is not outstanding any more once the client is
closed. -/
theorem run_alive (config : Config) (acts : List Act) (id : Id)
    (outstanding : ((create config).run acts).client.handshake? = some id) :
    ((create config).run acts).client.phase ≠ .closed := by
  have kept := (run_audited config acts).kept
  intro closed
  have none := (kept.torn closed).handshake
  rw [outstanding] at none
  cases none

/-- The dealings of a run that goes on from one that came from nothing. -/
theorem effect_further (config : Config) (past acts : List Act) :
    Effect ((create config).run past).client (((create config).run past).dealings acts)
      (((create config).run past).run acts).client (((create config).run past).pulled acts) := by
  induction acts generalizing past with
  | nil => exact .none rfl
  | cons next rest ih =>
    have here := ((create config).run past).effect_act next (run_alive config past)
    have later := ih (past ++ [next])
    rw [run_append] at later
    exact here.append later

end World

/-! ## The numbers of the requests that were sent -/

/-- The requests among the messages are the calls that were not refused. -/
theorem requests_said (announces : Bool) (dealings : List Dealing) :
    (dealings.filterMap (Dealing.message? announces)).filterMap Message.request? =
      (dealings.filterMap Dealing.reply?).filterMap Except.toOption := by
  induction dealings with
  | nil => rfl
  | cons dealing rest ih =>
    have one : ((dealing.message? announces).toList).filterMap Message.request? =
        (dealing.reply?.toList).filterMap Except.toOption := by
      cases dealing with
      | requested call reply => cases reply <;> rfl
      | notified call reply => cases reply <;> rfl
      | answered id method outcome opened => cases opened <;> rfl
      | settled id opened => cases opened <;> cases announces <;> rfl
    have split {α : Type} (f : Dealing → Option α) :
        (dealing :: rest).filterMap f = (f dealing).toList ++ rest.filterMap f := by
      cases found : f dealing <;> simp [found]
    rw [split, split, List.filterMap_append, List.filterMap_append, one, ih]

/-- Calls that take the numbers in turn come in the order of their numbers, as long as these
differ. -/
theorem precedes_of_numbers {replies : List (Except Error Id)}
    (numbers : ∀ (k : Nat) (id : Id), replies[k]? = some (.ok id) → id = .nth (k + 1))
    (few : replies.length < 0x8000000000000000) :
    (replies.filterMap Except.toOption).Pairwise fun first second => first.precedes second := by
  rw [List.pairwise_filterMap, List.pairwise_iff_getElem]
  intro i j earlier later before first firstOk second secondOk
  have numbered {k : Nat} {id : Id} (inside : k < replies.length)
      (ok : replies[k].toOption = some id) : id = .nth (k + 1) := by
    apply numbers k id
    rw [List.getElem?_eq_getElem inside]
    cases replied : replies[k] with
    | error error => simp [replied, Except.toOption] at ok
    | ok other =>
      rw [replied] at ok
      cases ok
      rfl
  rw [numbered earlier firstOk, numbered later secondOk]
  exact (Id.nth_precedes (by omega) (by omega)).mpr (Nat.succ_lt_succ before)

namespace World

/-- What goes through the queue in a run is told by the dealings of the run: the units that the far
end took out, and behind them those that are still in the queue, are what the messages of the
dealings encode to, one after the other and nothing else. The calls for requests take the numbers
from one on in turn, also those that are refused, so requests go out in the order of their
numbers. -/
theorem run_dealings (config : Config) (acts : List Act) :
    let world := create config
    let replies := (world.dealings acts).filterMap Dealing.reply?
    let messages := (world.dealings acts).filterMap (Dealing.message? config.sendsInitialized)
    let requests := messages.filterMap Message.request?
    world.pulled acts ++ (world.run acts).client.link.queue.units =
        messages.map config.codec.encode ∧
      world.pulled acts <+: messages.map config.codec.encode ∧
      (∀ (k : Nat) (id : Id), replies[k]? = some (.ok id) → id = .nth (k + 1)) ∧
      (replies.length < 0x8000000000000000 →
        requests.Nodup ∧ requests.Pairwise fun first second => first.precedes second) := by
  intro world replies messages requests
  have effect := effect_further config [] acts
  have queue : world.pulled acts ++ (world.run acts).client.link.queue.units =
      messages.map config.codec.encode := effect.queue
  have numbers (k : Nat) (id : Id) (replied : replies[k]? = some (.ok id)) : id = .nth (k + 1) := by
    have number : id = .number (1 + Int64.ofNat k) := effect.numbers k id replied
    rw [number, Id.nth, Nat.add_comm, Int64.ofNat_add]
    rfl
  refine ⟨queue, ⟨_, queue⟩, numbers, fun few => ?_⟩
  have same : requests = replies.filterMap Except.toOption := requests_said _ _
  have ordered := precedes_of_numbers numbers few
  rw [same]
  exact ⟨ordered.imp Id.ne_of_precedes, ordered⟩

theorem run_dealings_pulled :
    let world := create Config.default
    let acts : List Act :=
      [.call (.request ⟨"ping", .null⟩ fun _ => .notify ⟨"note", .null⟩ fun _ => .skip),
        .link .pull]
    let messages := (world.dealings acts).filterMap (Dealing.message? true)
    world.pulled acts = [Config.default.codec.encode (.request (.nth 1) "ping" .null)] ∧
      messages.filterMap Message.request? = [.nth 1] ∧
      (messages.filterMap Message.request?).Nodup := by
  intro world acts messages
  have few : ((world.dealings acts).filterMap Dealing.reply?).length < 0x8000000000000000 := by
    decide
  exact ⟨rfl, rfl, ((run_dealings Config.default acts).2.2.2 few).1⟩

end World

end Airlock.Client
