import Airlock.Proofs.Channel.Polls
import Airlock.Proofs.Client.Invariant

/-!
# What a client does to its link

An occurrence on the client's own side puts at most one message into the queue. Otherwise it leaves
the link as it is, unless it closes both channels. A chain is a trail of such occurrences. Whatever
a client does by itself is a chain; only a unit that is taken out of the sink, the arrival of the
response that it is, and what others do to the link, are not part of one.
-/

set_option autoImplicit false

namespace Airlock

def Link.gaining (link : Link) (units : List Bytes) : Link :=
  { link with queue := { link.queue with units := link.queue.units ++ units } }

@[simp] theorem Link.gaining_nil (link : Link) : link.gaining [] = link := by
  rw [gaining, List.append_nil]

namespace Client

/-! ## Messages sent -/

def Occurrence.sent : Occurrence → List Message
  | .issued id call => [call.toRequest id]
  | .notified call => [call.toNotification]
  | .announced => [Call.handshakeDone.toNotification]
  | .replied id outcome => [.response id outcome]
  | _ => []

/-- The messages that were put into the queue, the oldest first. -/
def History.sent (history : History) : List Message :=
  history.reverse.flatMap Occurrence.sent

theorem History.sent_cons (occurrence : Occurrence) (history : History) :
    History.sent (occurrence :: history) = history.sent ++ occurrence.sent := by
  simp [sent]

theorem History.sent_silent {occurrence : Occurrence} (silent : occurrence.sent = [])
    (history : History) : History.sent (occurrence :: history) = history.sent := by
  rw [sent_cons, silent, List.append_nil]

/-! ## Occurrences on the client's own side -/

/-- All of a client that an occurrence on its own side is held to, but for its phase. -/
def wiring (client : Client) : Codec × Option Duration × Bool × Link × InFlight :=
  (client.codec, client.timeout?, client.running, client.link, client.pending)

structure Outgoing (client : Client) (occurrence : Occurrence) (after : Client) : Prop where
  own : ∀ id outcome waited, occurrence ≠ .arrived id outcome waited := by
    rintro _ _ _ ⟨⟩
  codec : after.codec = client.codec := by rfl
  timeout : after.timeout? = client.timeout? := by rfl
  running : after.running = client.running := by rfl
  link : after.link = client.link.gaining (occurrence.sent.map client.codec.encode) ∨
    after.link = client.link.close ∧ after.phase = .closed ∧ occurrence.sent = [] := by
    exact .inl (Link.gaining_nil _).symm
  past : client.phase = .closed → after.phase = .closed := by exact fun closed => closed
  ends : after.phase = .closed → client.phase = .closed ∨ after.link = client.link.close := by
    exact .inl
  pending : ∀ id ∈ after.pending.ids,
      id ∈ client.pending.ids ∨ ∃ call, occurrence = .issued id call := by
    exact fun _ member => .inl member
  sealed : client.pending.closed = true → after.pending.closed = true := by
    exact fun closed => closed
  barred : ∀ {id call}, occurrence = .withdrawn id call →
    client.link.queue.closed = true ∨ client.pending.closed = true := by rintro _ _ ⟨⟩
  limited : ∀ {id timeout}, occurrence = .expired id timeout → client.timeout? ≠ none := by
    rintro _ _ ⟨⟩
  mute : client.link.queue.closed = true → occurrence.sent = [] := by exact fun _ => rfl

namespace Outgoing

variable {client after : Client} {occurrence : Occurrence}

theorem queue (outgoing : Outgoing client occurrence after) :
    after.link.queue.units =
      client.link.queue.units ++ occurrence.sent.map client.codec.encode := by
  rcases outgoing.link with gained | ⟨closed, -, silent⟩
  · rw [gained]
    rfl
  · rw [closed, silent, List.map_nil, List.append_nil]
    rfl

theorem sink (outgoing : Outgoing client occurrence after) :
    after.link.sink.units = client.link.sink.units ∧
      after.link.sink.capacity = client.link.sink.capacity := by
  rcases outgoing.link with gained | ⟨closed, -, -⟩
  · rw [gained]
    exact ⟨rfl, rfl⟩
  · rw [closed]
    exact ⟨rfl, rfl⟩

theorem closing (outgoing : Outgoing client occurrence after)
    (closed : after.link.queue.closed = true) :
    client.link.queue.closed = true ∨ after.phase = .closed := by
  rcases outgoing.link with gained | ⟨-, ended, -⟩
  · rw [gained] at closed
    exact .inl closed
  · exact .inr ended

private theorem shut (outgoing : Outgoing client occurrence after)
    (closed : client.link.queue.closed = true) : after.link.queue.closed = true := by
  rcases outgoing.link with gained | ⟨ended, -, -⟩
  · rw [gained]
    exact closed
  · rw [ended]
    rfl

private theorem queue_of_closed (outgoing : Outgoing client occurrence after)
    (closed : client.link.queue.closed = true) : after.link.queue = client.link.queue := by
  rcases outgoing.link with gained | ⟨ended, -, -⟩
  · rw [gained, outgoing.mute closed, List.map_nil, Link.gaining_nil]
  · simp [ended, Link.close, Queue.close, ← closed]

theorem ended (outgoing : Outgoing client occurrence after)
    (closed : client.link.sink.closed = true) : after.link.sink = client.link.sink := by
  rcases outgoing.link with gained | ⟨ended, -, -⟩
  · rw [gained]
    rfl
  · simp [ended, Link.close, Sink.close, ← closed]

private theorem reason (outgoing : Outgoing client occurrence after) :
    after.link.sink.abortReason? = client.link.sink.abortReason? := by
  rcases outgoing.link with gained | ⟨ended, -, -⟩
  · rw [gained]
    rfl
  · rw [ended]
    rfl

end Outgoing

/-! ## Chains -/

inductive Chain : Client → Trail → Client → Prop where
  | nil {client} : Chain client [] client
  | cons {client middle last occurrence rest} : Outgoing client occurrence middle →
      Chain middle rest last → Chain client ((occurrence, middle) :: rest) last

namespace Chain

variable {client middle last : Client} {occurrence : Occurrence} {first second : Trail}

private theorem single (outgoing : Outgoing client occurrence last) :
    Chain client [(occurrence, last)] last :=
  .cons outgoing .nil

theorem append (before : Chain client first middle) (after : Chain middle second last) :
    Chain client (first ++ second) last := by
  induction before with
  | nil => exact after
  | cons outgoing _ ih => exact .cons outgoing (ih after)

/-- Nothing is put into a queue that is closed. -/
theorem queue_of_closed (chain : Chain client first last)
    (closed : client.link.queue.closed = true) : last.link.queue = client.link.queue := by
  induction chain with
  | nil => rfl
  | cons outgoing _ ih =>
    have same := outgoing.queue_of_closed closed
    exact (ih (by rw [same]; exact closed)).trans same

theorem running (chain : Chain client first last) : last.running = client.running := by
  induction chain with
  | nil => rfl
  | cons outgoing _ ih => exact ih.trans outgoing.running

theorem reason (chain : Chain client first last) :
    last.link.sink.abortReason? = client.link.sink.abortReason? := by
  induction chain with
  | nil => rfl
  | cons outgoing _ ih => exact ih.trans outgoing.reason

end Chain

/-- A closed client has closed its link. -/
def Shut (client : Client) : Prop :=
  client.phase = .closed → client.link.Closed

theorem Chain.shut {client last : Client} {trail : Trail} (chain : Chain client trail last)
    (shut : client.Shut) : last.Shut := by
  induction chain with
  | nil => exact shut
  | cons outgoing _ ih =>
    apply ih
    intro closed
    rcases outgoing.ends closed with before | closes
    · exact ⟨outgoing.shut (shut before).queue, by rw [outgoing.ended] <;> exact (shut before).sink⟩
    · rw [closes]
      exact Link.closed_close _

/-! ## Calls -/

private theorem open_of_send {client sent : Client} {message : Message}
    (accepted : client.send message = .ok sent) : client.link.queue.closed = false := by
  rw [send_eq] at accepted
  split at accepted
  · cases accepted
  · rename_i opened
    exact Bool.eq_false_iff.mpr opened

theorem open_of_notify {client sent : Client} {call : Call}
    (accepted : client.notify call = .ok sent) : client.link.queue.closed = false := by
  unfold notify at accepted
  split at accepted
  · cases accepted
  · exact open_of_send accepted

private theorem open_of_submit {client after : Client} {id other : Id} {call : Call}
    (accepted : client.submit id call = (.ok other, after)) :
    client.link.queue.closed = false := by
  unfold submit at accepted
  cases entered : client.enter id call with
  | error error =>
    rw [entered] at accepted
    cases accepted
  | ok sent =>
    unfold enter at entered
    split at entered
    · cases entered
    · have opened := open_of_send entered
      exact opened

theorem submit_error {client after : Client} {id : Id} {call : Call} {error : Error}
    (refused : client.submit id call = (.error error, after)) :
    client.link.queue.closed = true ∨ client.pending.closed = true := by
  unfold submit enter InFlight.add? at refused
  by_cases torn : client.pending.closed = true
  · exact .inr torn
  · simp only [if_neg torn, send_eq] at refused
    by_cases closed : client.link.queue.closed = true
    · exact .inl closed
    · rw [if_neg closed] at refused
      cases refused

private theorem Outgoing.of_silent {client after : Client} {occurrence : Occurrence}
    (silent : occurrence.sent = [])
    (own : ∀ id outcome waited, occurrence ≠ .arrived id outcome waited)
    (barred : ∀ {id call}, occurrence = .withdrawn id call →
      client.link.queue.closed = true ∨ client.pending.closed = true)
    (limited : ∀ {id timeout}, occurrence = .expired id timeout → client.timeout? ≠ none)
    (phase : after.phase = .closed ↔ client.phase = .closed) (same : after.wiring = client.wiring) :
    Outgoing client occurrence after := by
  simp only [wiring, Prod.mk.injEq] at same
  obtain ⟨codec, timeout, running, link, pending⟩ := same
  exact {
    own, codec, timeout, running, barred, limited
    link := .inl (by rw [link, silent, List.map_nil, Link.gaining_nil])
    past := phase.mpr
    ends := .inl ∘ phase.mp
    pending := fun id member => .inl (pending ▸ member)
    sealed := fun closed => pending ▸ closed
    mute := fun _ => silent }

/-- What sends nothing, and is neither an arrival nor the end of a request without an answer. -/
def Occurrence.idle : Occurrence → Bool
  | .issued _ _ | .withdrawn _ _ | .notified _ | .closed | .arrived _ _ _ | .announced
  | .replied _ _ | .expired _ _ => false
  | _ => true

private theorem Outgoing.of_idle {client after : Client} {occurrence : Occurrence}
    (idle : occurrence.idle = true) (phase : after.phase = .closed ↔ client.phase = .closed)
    (same : after.wiring = client.wiring) : Outgoing client occurrence after := by
  have silent : occurrence.sent = [] := by
    cases occurrence <;> first | rfl | cases idle
  refine .of_silent silent ?_ ?_ ?_ phase same
  · rintro _ _ _ rfl
    cases idle
  · rintro _ _ rfl
    cases idle
  · rintro _ _ rfl
    cases idle

/-- One message goes into an open queue. -/
theorem Outgoing.of_sent {client : Client} {occurrence : Occurrence} {message : Message}
    (opened : client.link.queue.closed = false) (sends : occurrence.sent = [message]) :
    Outgoing client occurrence (client.enqueued message) where
  own := by
    rintro _ _ _ rfl
    cases sends
  link := .inl (by rw [sends]; rfl)
  barred := by
    rintro _ _ rfl
    cases sends
  limited := by
    rintro _ _ rfl
    cases sends
  mute closed := absurd (opened.symm.trans closed) nofun

private theorem outgoing_abandon {client : Client} {occurrence : Occurrence} (id : Id)
    (silent : occurrence.sent = [])
    (own : ∀ id outcome waited, occurrence ≠ .arrived id outcome waited)
    (barred : ∀ {id call}, occurrence = .withdrawn id call →
      client.link.queue.closed = true ∨ client.pending.closed = true)
    (limited : ∀ {id timeout}, occurrence = .expired id timeout → client.timeout? ≠ none) :
    Outgoing client occurrence (client.abandonHandshake id) := by
  refine .of_silent silent own barred limited ?_ ?_
  · unfold abandonHandshake
    split
    · rfl
    · dsimp only
      split
      · next awaiting => simp [awaiting]
      · rfl
  · unfold abandonHandshake
    split <;> rfl

private theorem Outgoing.of_leaving {client after : Client} {occurrence : Occurrence} (id : Id)
    (outgoing : Outgoing (client.leaving id) occurrence after) :
    Outgoing client occurrence after :=
  { outgoing with
    pending := fun other member => (outgoing.pending other member).imp_left fun before =>
      (mem_leaving.mp before).1 }

private theorem outgoing_withdraw {client : Client} {call : Call} (id : Id)
    (barred : client.link.queue.closed = true ∨ client.pending.closed = true) :
    Outgoing client (.withdrawn id call) (client.withdraw id call) := by
  unfold withdraw
  dsimp only
  apply Outgoing.of_leaving id
  split
  · exact outgoing_abandon id rfl nofun (fun _ => barred) nofun
  · exact .of_silent rfl nofun (fun _ => barred) nofun Iff.rfl rfl

private theorem outgoing_entered {client : Client} (opened : client.link.queue.closed = false)
    (id : Id)
    (call : Call) :
    Outgoing client (.issued id call) ((client.entering id).enqueued (call.toRequest id)) where
  link := .inl rfl
  mute closed := absurd (opened.symm.trans closed) nofun
  pending other member := by
    rcases mem_entering.mp member with rfl | before
    · exact .inr ⟨call, rfl⟩
    · exact .inl before

/-- A begun request goes into the queue, or is taken back since the queue or the table is closed. -/
theorem chain_submit (client : Client) (id : Id) (call : Call) :
    Chain client [client.submitted id call] (client.submit id call).2 := by
  unfold submitted
  rcases result : client.submit id call with ⟨reply, after⟩
  cases reply with
  | ok _ =>
    have opened := open_of_submit result
    rcases submit_cases client id call with sent | ⟨error, undone⟩
    · obtain ⟨-, rfl⟩ := Prod.mk.inj (result.symm.trans sent)
      exact .single (outgoing_entered opened id call)
    · cases result.symm.trans undone
  | error error =>
    have barred := submit_error result
    rcases submit_cases client id call with sent | ⟨error, undone⟩
    · cases result.symm.trans sent
    · obtain ⟨-, rfl⟩ := Prod.mk.inj (result.symm.trans undone)
      exact .single (outgoing_withdraw id barred)

private theorem Chain.of_numbered {client last : Client} {trail : Trail}
    (chain : Chain client.numbered trail last) (some : trail ≠ []) : Chain client trail last := by
  cases chain with
  | nil => exact absurd rfl some
  | cons outgoing rest => exact .cons { outgoing with } rest

theorem chain_request (client : Client) (call : Call) :
    Chain client (client.requestTrail call) (client.request call).2 := by
  unfold requestTrail request
  rcases result : client.begin call with ⟨reply, begun⟩
  cases reply with
  | error error =>
    obtain ⟨rfl, -⟩ := begin_refused result
    exact .single (.of_idle rfl Iff.rfl rfl)
  | ok id =>
    obtain ⟨rfl, live, ⟨plain, rfl⟩ | ⟨opening, idle, rfl⟩⟩ := begin_ok result
    · dsimp only
      rw [if_neg plain]
      exact (chain_submit client.numbered _ call).of_numbered nofun
    · dsimp only
      rw [if_pos opening]
      exact .cons (.of_idle rfl (iff_of_false nofun live) rfl)
        (chain_submit client.attempting _ call)

theorem chain_close (client : Client) : Chain client client.closeTrail client.close := by
  unfold closeTrail close
  split
  · exact .nil
  · exact .single {
      link := .inr ⟨rfl, rfl, rfl⟩
      past := fun _ => rfl
      ends := fun _ => .inr rfl
      pending := fun _ member => absurd member List.not_mem_nil
      sealed := fun _ => rfl }

private theorem outgoing_notified {client sent : Client} {call : Call}
    (accepted : client.notify call = .ok sent) : Outgoing client (.notified call) sent := by
  have opened := open_of_notify accepted
  obtain ⟨-, rfl⟩ := notify_ok accepted
  exact .of_sent opened rfl

theorem chain_notify (client : Client) (call : Call) :
    Chain client (client.notifyTrail call) (client.notifyIfOpen call) := by
  unfold notifyTrail notifyIfOpen
  cases result : client.notify call with
  | ok sent => exact .single (outgoing_notified result)
  | error error => exact .nil

/-! ## Programs -/

private theorem chain_perform (program : Program) (client : Client) :
    Chain client (performTrail program client) (perform program client).2 := by
  induction program generalizing client with
  | finish outcome => exact .nil
  | request call next ih =>
    have request := chain_request client call
    rw [performTrail, perform]
    rcases result : client.request call with ⟨reply, after⟩
    rw [result] at request
    cases reply with
    | error error => exact request.append (ih (.error error) after)
    | ok id => exact request.append (.cons (.of_idle rfl Iff.rfl rfl) (ih (.ok id) (after.hold id)))
  | notify call next ih =>
    rw [performTrail, perform, notifyTrail]
    cases result : client.notify call with
    | ok sent => exact .cons (outgoing_notified result) (ih (.ok ()) sent)
    | error error => exact ih (.error error) client
  | hook body next bodyIH nextIH =>
    cases phase : client.phase with
    | uninitialized =>
      rw [performTrail_hook_early (.inl phase), perform_hook_early (.inl phase)]
      exact .cons (.of_idle rfl Iff.rfl rfl) (nextIH _)
    | awaiting =>
      rw [performTrail_hook_early (.inr phase), perform_hook_early (.inr phase)]
      exact .cons (.of_idle rfl Iff.rfl rfl) (nextIH _)
    | initialized =>
      rw [performTrail, perform, phase]
      simp only [List.append_assoc]
      exact .cons (.of_idle rfl Iff.rfl rfl) (.cons (.of_idle rfl Iff.rfl rfl)
        ((bodyIH client).append (.cons (.of_idle rfl Iff.rfl rfl) (nextIH _))))
    | closed =>
      rw [performTrail, perform, phase]
      exact .cons (.of_idle rfl Iff.rfl rfl) (nextIH client)
  | onNotification method handler next _ ih => exact .cons (.of_idle rfl Iff.rfl rfl) (ih _)
  | onRequest method handler next _ ih => exact .cons (.of_idle rfl Iff.rfl rfl) (ih _)
  | takeEvents next ih => exact .cons (.of_idle rfl Iff.rfl rfl) (ih _ _)
  | close next ih => exact (chain_close client).append (ih client.close)
  | phase next ih => exact ih client.phase client
  | pending next ih => exact ih client.pending.ids client
  | release id next ih => exact .cons (.of_idle rfl Iff.rfl rfl) (ih _ _)
  | holds id next ih => exact ih (client.handles.contains id) client
  | note entry next ih => exact .cons (.of_idle rfl Iff.rfl rfl) (ih _)

private theorem chain_performAll (hooks : List Program) (client : Client) :
    Chain client (performAllTrail hooks client) (performAll hooks client) := by
  induction hooks generalizing client with
  | nil => exact .nil
  | cons hook rest ih =>
    exact .cons (.of_idle rfl Iff.rfl rfl) ((chain_perform hook client).append
      (.cons (.of_idle rfl Iff.rfl rfl) (ih (perform hook client).2)))

private theorem chain_drain (client : Client) :
    Chain client client.drainTrail client.drainHooks := by
  fun_induction drainHooks client with
  | case1 client none open? =>
    rw [drainTrail, if_pos none, if_pos open?]
    exact .single (.of_idle rfl (by simp [open?]) rfl)
  | case2 client none past =>
    rw [drainTrail, if_pos none, if_neg past]
    exact .nil
  | case3 client some ih =>
    rw [drainTrail, if_neg some]
    exact .cons (.of_idle rfl Iff.rfl rfl) ((chain_performAll client.hooks _).append ih)

/-! ## Messages from the peer -/

private theorem chain_announce (client : Client) :
    Chain client client.announceTrail
      (if client.sendsInitialized then client.notifyIfOpen .handshakeDone else client) := by
  unfold announceTrail notifyIfOpen
  split
  · cases result : client.notify .handshakeDone with
    | ok sent =>
      have opened := open_of_notify result
      obtain ⟨-, rfl⟩ := notify_ok result
      exact .single (.of_sent opened rfl)
    | error error => exact .nil
  · exact .nil

private theorem chain_endHandshake (client : Client) (id : Id) (outcome : Outcome) :
    Chain client (client.endHandshakeTrail id outcome) (client.endHandshake id outcome) := by
  cases outcome with
  | error error => exact .single (outgoing_abandon id rfl nofun nofun nofun)
  | ok value =>
    exact .cons (.of_idle rfl Iff.rfl rfl) ((chain_announce _).append (chain_drain _))

/-- Behind the arrival of a response, which takes its request out. -/
theorem chain_answered (client : Client) (id : Id) (outcome : Outcome) (waited : Bool) :
    Chain client
      ((if client.handshake? = some id then client.endHandshakeTrail id outcome else []) ++
        [(if waited then .delivered id outcome else .orphaned id,
          (if client.handshake? = some id then client.endHandshake id outcome
            else client).handingOver id outcome waited)])
      ((if client.handshake? = some id then client.endHandshake id outcome
        else client).handingOver id outcome waited) := by
  have handed (client : Client) : Outgoing client
      (if waited then .delivered id outcome else .orphaned id)
      (client.handingOver id outcome waited) := by
    cases waited <;> exact .of_idle rfl Iff.rfl rfl
  split
  · exact (chain_endHandshake client id outcome).append (.single (handed _))
  · exact .single (handed client)

private theorem chain_reply (client : Client) (id : Id) (outcome : Outcome) :
    Chain client (client.replyTrail id outcome) (client.sendIfOpen (.response id outcome)) := by
  unfold replyTrail sendIfOpen
  cases result : client.send (.response id outcome) with
  | ok sent =>
    have opened := open_of_send result
    obtain rfl := send_ok result
    exact .single (.of_sent opened rfl)
  | error error => exact .nil

private theorem chain_accept {client : Client} {unit : Bytes}
    (other : ∀ id outcome, client.codec.decode unit ≠ .ok (.response id outcome)) :
    Chain client (client.acceptTrail unit) (client.accept unit) := by
  unfold acceptTrail accept
  cases reads : client.codec.decode unit with
  | error error => exact .single (.of_idle rfl Iff.rfl rfl)
  | ok message =>
    cases message with
    | response id outcome => exact absurd reads (other id outcome)
    | notification method params =>
      dsimp only
      unfold notificationTrail acceptNotification
      cases client.notificationHandlers.lookup method with
      | some handler => exact chain_perform (handler params) client
      | none => exact .nil
    | request id method params =>
      dsimp only
      unfold answerTrail acceptRequest
      cases client.requestHandlers.lookup method with
      | some handler => exact (chain_perform (handler params) client).append (chain_reply _ id _)
      | none => exact chain_reply client id _

def received (client : Client) : Client :=
  { client with link := client.link.receive.2 }

/-- A step of the loop: the next unit is taken out of the sink, and the client acts on it. -/
inductive Takes (client : Client) : Trail → Client → Prop where
  | plain {rest last}
    (other : ∀ unit id outcome, client.link.receive.1 = .ready (.ok (some unit)) →
      client.codec.decode unit ≠ .ok (.response id outcome))
    (chain : Chain client.received rest last) :
    Takes client ((.quiet, client.received) :: rest) last
  | response {unit id outcome waited rest last}
    (taken : client.link.receive.1 = .ready (.ok (some unit)))
    (reads : client.codec.decode unit = .ok (.response id outcome))
    (chain : Chain (client.received.leaving id) rest last) :
    Takes client ((.quiet, client.received) ::
      (.arrived id outcome waited, client.received.leaving id) :: rest) last

theorem step_eq (client : Client) :
    client.stepTrail = (.quiet, client.received) ::
      (match client.link.receive.1 with
        | .waiting => []
        | .ready (.ok (some unit)) => client.received.acceptTrail unit
        | .ready (.ok none) | .ready (.error _) => client.received.closeTrail) ∧
    client.step.2 =
      match client.link.receive.1 with
      | .waiting => client.received
      | .ready (.ok (some unit)) => client.received.accept unit
      | .ready (.ok none) | .ready (.error _) => client.received.close := by
  refine ⟨rfl, ?_⟩
  unfold step received
  rcases client.link.receive with ⟨polled, link⟩
  rcases polled with (error | (_ | unit)) | _ <;> rfl

theorem takes_step (client : Client) : Takes client client.stepTrail client.step.2 := by
  obtain ⟨trail, last⟩ := step_eq client
  rw [trail, last]
  cases polled : client.link.receive.1 with
  | waiting => exact .plain (by simp [polled]) .nil
  | ready arrived =>
    cases arrived with
    | error error => exact .plain (by simp [polled]) (chain_close _)
    | ok unit? =>
      cases unit? with
      | none => exact .plain (by simp [polled]) (chain_close _)
      | some unit =>
        by_cases response : ∃ id outcome, client.codec.decode unit = .ok (.response id outcome)
        · obtain ⟨id, outcome, reads⟩ := response
          have here : client.received.codec.decode unit = .ok (.response id outcome) := reads
          have accepts : client.received.acceptTrail unit =
              client.received.responseTrail id outcome := by
            unfold acceptTrail
            rw [here]
          have accepted : client.received.accept unit =
              client.received.acceptResponse id outcome := by
            unfold accept
            rw [here]
          dsimp only
          rw [accepts, accepted, responseTrail_eq, acceptResponse_eq]
          exact .response polled reads (chain_answered _ id outcome _)
        · have other (id : Id) (outcome : Outcome) :
              client.codec.decode unit ≠ .ok (.response id outcome) :=
            fun reads => response ⟨id, outcome, reads⟩
          refine .plain ?_ (chain_accept other)
          intro again id outcome taken
          rw [polled] at taken
          cases taken
          exact other id outcome

/-! ## Awaited handles -/

theorem chain_poll {client after : Client} {now : Duration} {awaited later : Awaited}
    {result : Except Error Value}
    (polled : client.pollAwaited now awaited = (.ready result, later, after)) :
    Chain client (client.pollTrail now awaited) after := by
  unfold pollTrail
  rw [polled]
  dsimp only
  rcases pollAwaited_ready polled with ⟨decided, rfl⟩ | ⟨timeout, undecided, limited, rfl, rfl⟩
  · rw [decided]
    exact .single (.of_idle rfl Iff.rfl rfl)
  · rw [undecided, limited]
    have timed : client.timeout? ≠ none := by
      rw [limited]
      exact Option.some_ne_none timeout
    refine .cons (Outgoing.of_leaving awaited.id ?_) (.single (.of_idle rfl Iff.rfl rfl))
    exact outgoing_abandon _ rfl nofun nofun fun _ => timed

theorem chain_finish (client : Client) (answer : Except Error Value) :
    Chain client (client.finishTrail answer) (client.finishShutdown answer).2 := by
  unfold finishTrail finishShutdown
  cases answer with
  | ok value => exact (chain_notify client .exit).append (chain_close _)
  | error error => exact chain_close client

/-! ## Acts -/

/-- The acts that neither start the loop, nor take a unit out of the sink, nor are others' acts. -/
def Act.local : Act → Bool
  | .start | .intake | .link _ => false
  | _ => true

namespace World

private theorem chain_waiter (world : World) (now : Duration) (waiter : Waiter) :
    Chain world.client (world.waiterTrail now waiter) (world.pollWaiter now waiter).client := by
  unfold waiterTrail pollWaiter
  rcases polled : world.client.pollAwaited now waiter.awaited with ⟨result, later, after⟩
  cases result with
  | waiting =>
    obtain ⟨rfl, -⟩ := pollAwaited_waiting polled
    unfold pollTrail
    rw [polled]
    exact .nil
  | ready result =>
    apply (chain_poll polled).append
    dsimp only [dismiss]
    split
    · exact chain_finish after result
    · exact .nil

theorem chain_act (world : World) {act : Act} (own : act.local = true) :
    Chain world.client (world.actTrail act) (world.act act).client := by
  cases act with
  | call program => exact chain_perform program world.client
  | cancel => exact .nil
  | await id =>
    unfold actTrail World.act manageTrail manage
    dsimp only
    split
    · exact .single (.of_idle rfl Iff.rfl rfl)
    · exact .nil
  | shutdown =>
    have request := chain_request world.client .shutdown
    unfold actTrail World.act manageTrail manage beginShutdown
    rcases result : world.client.request .shutdown with ⟨reply, after⟩
    rw [result] at request
    cases reply with
    | error error => exact request.append (chain_close after)
    | ok id => exact request.append (.single (.of_idle rfl Iff.rfl rfl))
  | poll id now =>
    unfold actTrail World.act manageTrail manage
    dsimp only
    cases world.waiter? id with
    | none => exact .nil
    | some waiter => exact chain_waiter world now waiter
  | forget id => exact .single (.of_idle rfl Iff.rfl rfl)
  | start | intake | link move => cases own

/-- Starting the loop changes nothing but that it runs, and nothing at all the second time. -/
theorem start_cases (world : World) :
    (world.client.running = true ∧ world.actTrail .start = [] ∧ world.act .start = world) ∨
    world.client.running = false ∧
      world.actTrail .start = [(.quiet, { world.client with running := true })] ∧
      world.act .start =
        { world with client := { world.client with running := true }, looping := true } := by
  simp only [actTrail, World.act, manageTrail, manage, startDrain]
  cases running : world.client.running with
  | true => exact .inl ⟨rfl, rfl, rfl⟩
  | false => exact .inr ⟨rfl, rfl, rfl⟩

end World

/-! ## What is never undone -/

/-- What stays as it is, or stays so once it is so, whatever happens. -/
structure Keeps (client after : Client) : Prop where
  codec : after.codec = client.codec
  timeout : after.timeout? = client.timeout?
  capacity : after.link.sink.capacity = client.link.sink.capacity
  shut : client.link.queue.closed = true → after.link.queue.closed = true
  sealed : client.pending.closed = true → after.pending.closed = true
  running : client.running = true → after.running = true
  ended : client.link.sink.closed = true → after.link.sink.closed = true
  reason : ∀ {reason}, client.link.sink.abortReason? = some reason →
    after.link.sink.abortReason? = some reason
  phase : client.phase = .closed → after.phase = .closed

private theorem Keeps.refl (client : Client) : Keeps client client :=
  ⟨rfl, rfl, rfl, id, id, id, id, id, id⟩

private theorem Keeps.trans {client middle last : Client} (before : Keeps client middle)
    (after : Keeps middle last) : Keeps client last where
  codec := after.codec.trans before.codec
  timeout := after.timeout.trans before.timeout
  capacity := after.capacity.trans before.capacity
  shut closed := after.shut (before.shut closed)
  sealed closed := after.sealed (before.sealed closed)
  running running := after.running (before.running running)
  ended closed := after.ended (before.ended closed)
  reason aborted := after.reason (before.reason aborted)
  phase closed := after.phase (before.phase closed)

private theorem Outgoing.keeps {client after : Client} {occurrence : Occurrence}
    (outgoing : Outgoing client occurrence after) : Keeps client after :=
  ⟨outgoing.codec, outgoing.timeout, outgoing.sink.2, outgoing.shut, outgoing.sealed,
    outgoing.running.trans, fun closed => outgoing.ended closed ▸ closed, outgoing.reason.trans,
    outgoing.past⟩

/-- Why an occurrence was possible: a request is only taken back where nothing can be sent, and only
times out where there is a timeout. -/
def Occurrence.Excused (client : Client) : Occurrence → Prop
  | .withdrawn _ _ => client.link.queue.closed = true ∨ client.pending.closed = true
  | .expired _ _ => client.timeout? ≠ none
  | _ => True

private theorem Occurrence.Excused.later {client after : Client} {occurrence : Occurrence}
    (excused : occurrence.Excused client) (keeps : Keeps client after) :
    occurrence.Excused after := by
  cases occurrence with
  | withdrawn id call => exact excused.imp keeps.shut keeps.sealed
  | expired id timeout =>
    rw [Excused, keeps.timeout]
    exact excused
  | _ => trivial

private theorem Outgoing.excused {client after : Client} {occurrence : Occurrence}
    (outgoing : Outgoing client occurrence after) : occurrence.Excused client := by
  cases occurrence with
  | withdrawn id call => exact outgoing.barred rfl
  | expired id timeout => exact outgoing.limited rfl
  | _ => trivial

theorem Chain.keeps {client last : Client} {trail : Trail} (chain : Chain client trail last) :
    Keeps client last ∧ ∀ entry ∈ trail, entry.1.Excused last := by
  induction chain with
  | nil =>
    refine ⟨.refl _, ?_⟩
    intro entry member
    cases member
  | cons outgoing _ ih =>
    obtain ⟨keeps, excused⟩ := ih
    refine ⟨outgoing.keeps.trans keeps, ?_⟩
    intro entry member
    rcases List.mem_cons.mp member with rfl | further
    · exact outgoing.excused.later (outgoing.keeps.trans keeps)
    · exact excused entry further

private theorem keeps_link (client : Client) (move : LinkMove) :
    Keeps client { client with link := client.link.after move } := by
  refine ⟨rfl, rfl, ?capacity, queue_closed_after move, id, id, sink_closed_after move, ?reason, id⟩
  case capacity =>
    cases move with
    | write unit =>
      change (client.link.write unit).2.sink.capacity = client.link.sink.capacity
      rcases client.link.write_cases unit with ⟨-, error, refused⟩ | accepted | ⟨-, same⟩
      · rw [refused]
      · rw [accepted]
      · rw [same]
    | _ => rfl
  case reason =>
    intro reason aborted
    cases move with
    | write unit =>
      change (client.link.write unit).2.sink.abortReason? = some reason
      rcases client.link.write_cases unit with ⟨-, error, refused⟩ | accepted | ⟨-, same⟩
      · rw [refused, aborted]
      · rw [accepted, ← aborted]
      · rw [same, aborted]
    | abort later =>
      change client.link.sink.abortReason?.or (some later) = some reason
      rw [aborted]
      rfl
    | _ => exact aborted

theorem keeps_received (client : Client) : Keeps client client.received := by
  unfold received
  rcases client.link.receive_cases with
    ⟨_, rest, -, -, taken⟩ | ⟨_, -, dropped⟩ | ⟨-, -, same⟩ | ⟨-, -, -, same⟩
  · rw [taken]
    exact ⟨rfl, rfl, rfl, id, id, id, id, id, id⟩
  · rw [dropped]
    exact ⟨rfl, rfl, rfl, id, id, id, id, id, id⟩
  all_goals
    rw [same]
    exact .refl client

theorem Takes.keeps {client last : Client} {trail : Trail} (takes : Takes client trail last) :
    Keeps client last ∧ ∀ entry ∈ trail, entry.1.Excused last := by
  cases takes with
  | plain other chain =>
    obtain ⟨keeps, excused⟩ := chain.keeps
    refine ⟨(keeps_received client).trans keeps, ?_⟩
    intro entry member
    rcases List.mem_cons.mp member with rfl | further
    · trivial
    · exact excused entry further
  | @response unit answered outcome waited rest last taken reads chain =>
    obtain ⟨keeps, excused⟩ := chain.keeps
    have left : Keeps client.received (client.received.leaving answered) :=
      ⟨rfl, rfl, rfl, id, id, id, id, id, id⟩
    refine ⟨((keeps_received client).trans left).trans keeps, ?_⟩
    intro entry member
    rcases List.mem_cons.mp member with rfl | further
    · trivial
    · rcases List.mem_cons.mp further with rfl | behind
      · trivial
      · exact excused entry behind

private theorem Takes.queue_of_closed {client last : Client} {trail : Trail}
    (takes : Takes client trail last)
    (closed : client.link.queue.closed = true) : last.link.queue = client.link.queue := by
  cases takes with
  | plain other chain => exact chain.queue_of_closed closed
  | response taken reads chain => exact chain.queue_of_closed closed

namespace World

theorem intake_looping {world : World} (looping : world.looping = true) :
    world.actTrail .intake = world.client.stepTrail ∧
      (world.act .intake).client = world.client.step.2 := by
  refine ⟨if_pos looping, ?_⟩
  simp only [World.act, looping, if_true]
  split <;> rename_i stepped <;> rw [stepped]

theorem intake_idle {world : World} (idle : world.looping = false) :
    world.actTrail .intake = [] ∧ world.act .intake = world :=
  ⟨if_neg (by simp [idle]), if_neg (by simp [idle])⟩

/-- A closed queue is left as it is by everything that is done to the client itself. -/
theorem units_act {world : World} (closed : world.client.link.queue.closed = true) {act : Act}
    (own : ∀ move, act ≠ .link move) :
    (world.act act).client.link.queue.units = world.client.link.queue.units := by
  cases act with
  | link move => exact absurd rfl (own move)
  | start => rcases world.start_cases with ⟨-, -, same⟩ | ⟨-, -, after⟩ <;> simp [*]
  | intake =>
    cases looping : world.looping with
    | false => rw [(intake_idle looping).2]
    | true =>
      rw [(intake_looping looping).2, (takes_step world.client).queue_of_closed closed]
  | call | cancel | await | shutdown | poll | forget =>
    rw [(world.chain_act rfl).queue_of_closed closed]

theorem keeps_act (world : World) (act : Act) :
    Keeps world.client (world.act act).client ∧
      ∀ entry ∈ world.actTrail act, entry.1.Excused (world.act act).client := by
  by_cases own : act.local = true
  · exact (world.chain_act own).keeps
  cases act with
  | link move =>
    refine ⟨keeps_link world.client move, ?_⟩
    intro entry member
    obtain rfl := List.mem_singleton.mp member
    trivial
  | intake =>
    cases looping : world.looping with
    | true =>
      obtain ⟨trail, after⟩ := intake_looping looping
      rw [trail, after]
      exact (takes_step world.client).keeps
    | false =>
      obtain ⟨trail, after⟩ := intake_idle looping
      rw [trail, after]
      refine ⟨.refl _, ?_⟩
      intro entry member
      cases member
  | start =>
    rcases world.start_cases with ⟨-, trail, same⟩ | ⟨-, trail, after⟩
    · rw [trail, same]
      refine ⟨.refl _, ?_⟩
      intro entry member
      cases member
    · rw [trail, after]
      refine ⟨⟨rfl, rfl, rfl, id, id, fun _ => rfl, id, id, id⟩, ?_⟩
      intro entry member
      obtain rfl := List.mem_singleton.mp member
      trivial
  | call | cancel | await | shutdown | poll | forget => exact absurd rfl own

theorem keeps_run (world : World) (acts : List Act) :
    Keeps world.client (world.run acts).client ∧
      ∀ entry ∈ world.trail acts, entry.1.Excused (world.run acts).client := by
  induction acts generalizing world with
  | nil =>
    refine ⟨.refl _, ?_⟩
    intro entry member
    cases member
  | cons next rest ih =>
    obtain ⟨keeps, excused⟩ := world.keeps_act next
    obtain ⟨later, further⟩ := ih (world.act next)
    refine ⟨keeps.trans later, ?_⟩
    intro entry member
    rcases List.mem_append.mp member with here | behind
    · exact (excused entry here).later later
    · exact further entry behind

end World

end Client

end Airlock
