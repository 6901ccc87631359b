import Airlock.Host
import Airlock.Proofs.Client.Plain
import Airlock.Proofs.Session.Service

/-!
# A host that answers a script

A client has sent a script of messages and waits; nobody does anything else. Then whatever the
handlers and the loop did so far, each message of the script is in one place: queued, answered and
on its way back, or done with. Every round in which something moves takes work off the host, and a
round in which nothing moves finds no work left. So polling the host once brings every answer home,
and the answers are those that the handlers give to the script by themselves.
-/

set_option autoImplicit false

namespace Airlock

variable {σ : Type}

/-! ## Answers to a script -/

namespace Handlers

/-- What the handlers answer to a message, if it is a request. -/
def reply? (handlers : Handlers σ) (core : σ) : Message → Option (Id × Outcome)
  | .request id method params => some (id, (handlers.answer method params core).1)
  | .notification _ _ | .response _ _ => none

/-- The answers to the requests among messages, when one message is acted on after the other. -/
def answers (handlers : Handlers σ) (core : σ) : List Message → List (Id × Outcome)
  | [] => []
  | message :: rest =>
    (handlers.reply? core message).toList ++ answers handlers (handlers.after core [message]) rest

variable {handlers : Handlers σ}

theorem answers_append (core : σ) (first second : List Message) :
    handlers.answers core (first ++ second) =
      handlers.answers core first ++ handlers.answers (handlers.after core first) second := by
  induction first generalizing core with
  | nil => rfl
  | cons message rest ih =>
    rw [List.cons_append, answers, ih, answers, List.append_assoc]
    rfl

private theorem answers_last (core : σ) (messages : List Message) (message : Message) :
    handlers.answers core (messages ++ [message]) =
      handlers.answers core messages ++
        (handlers.reply? (handlers.after core messages) message).toList := by
  rw [answers_append, answers, answers, List.append_nil]

private theorem request_of_answer {core : σ} {messages : List Message} {answer : Id × Outcome}
    (given : answer ∈ handlers.answers core messages) :
    ∃ method params, .request answer.1 method params ∈ messages := by
  induction messages generalizing core with
  | nil => cases given
  | cons message rest ih =>
    obtain here | behind := List.mem_append.mp given
    · cases message with
      | request id method params =>
        obtain rfl := List.mem_singleton.mp here
        exact ⟨method, params, List.mem_cons_self⟩
      | notification | response => cases here
    · obtain ⟨method, params, member⟩ := ih behind
      exact ⟨method, params, List.mem_cons_of_mem _ member⟩

/-- Every answer is what the handlers come to for some params in some state. -/
theorem outcome_of_answer {core : σ} {messages : List Message} {answer : Id × Outcome}
    (given : answer ∈ handlers.answers core messages) :
    ∃ method params before, answer.2 = (handlers.answer method params before).1 := by
  induction messages generalizing core with
  | nil => cases given
  | cons message rest ih =>
    obtain here | behind := List.mem_append.mp given
    · cases message with
      | request id method params =>
        obtain rfl := List.mem_singleton.mp here
        exact ⟨method, params, core, rfl⟩
      | notification | response => cases here
    · exact ih behind

private theorem respond_eq (core : σ) (message : Message) :
    handlers.respond message core =
      ((handlers.reply? core message).map fun answer => .response answer.1 answer.2,
        handlers.after core [message]) := by
  cases message <;> rfl

theorem after_request (core : σ) (id : Id) (method : String) (params : Value) :
    handlers.after core [.request id method params] = (handlers.answer method params core).2 :=
  rfl

theorem after_notification (core : σ) (method : String) (params : Value) :
    handlers.after core [.notification method params] =
      (handlers.answer method params core).2 := by
  show (if handlers.contains method then (handlers.answer method params core).2 else core) = _
  unfold Handlers.contains Handlers.answer
  cases handlers.get? method <;> rfl

/-- Notifications are not answered. -/
theorem answers_silent (core : σ) {messages : List Message}
    (silent : ∀ message ∈ messages, message = Call.handshakeDone.toNotification) :
    handlers.answers core messages = [] := by
  induction messages generalizing core with
  | nil => rfl
  | cons message rest ih =>
    obtain ⟨first, others⟩ := List.forall_mem_cons.mp silent
    rw [answers, ih _ others, first]
    rfl

end Handlers

/-! ## Where the messages of a script are -/

/-- The unit of an answer. -/
def Codec.replyUnit (codec : Codec) (answer : Id × Outcome) : Bytes :=
  codec.encode (.response answer.1 answer.2)

/-- The units that a responder is about to write. -/
def Stage.units : Stage → List Bytes
  | .replying reply => [reply]
  | .pulling | .finished _ => []

/-- Each message arrives as what it is read as, which is a request only if the message is. -/
structure Codec.ReadsAs (codec : Codec) (asRead : Message → Message) (sent : List Message) :
    Prop where
  reads : ∀ message ∈ sent, codec.decode (codec.encode message) = .ok (asRead message)
  asks : ∀ message ∈ sent, ∀ {id method params}, asRead message = .request id method params →
    ∃ others, message = .request id method others

/-- The answers to a script arrive as they are, and no two of its requests have the same
identifier. -/
structure Arrives (handlers : Handlers σ) (core : σ) (codec : Codec) (script : List Message) :
    Prop where
  announcement : codec.decode (codec.encode Call.handshakeDone.toNotification) =
    .ok Call.handshakeDone.toNotification
  answers : ∀ answer ∈ handlers.answers core script,
    codec.decode (codec.replyUnit answer) = .ok (.response answer.1 answer.2)
  distinct : ((handlers.answers core script).map (·.1)).Nodup

/-- The handlers acted on the first messages, the others are read from the queue; of the answers to
the first ones some were delivered, and the others are on their way back. -/
structure Midway (handlers : Handlers σ) (core : σ) (codec : Codec) (script : List Message)
    (router : Responding σ) (client : Client) (past behind : List Message)
    (given due : List (Id × Outcome)) : Prop where
  plain : client.Plain
  spoken : client.codec = codec
  sent : ∃ told, past ++ behind = script ++ told ∧
    ∀ message ∈ told, message = Call.handshakeDone.toNotification
  queue : client.link.queue.units.map codec.decode = behind.map .ok
  state : router.core = handlers.after core past
  serving : ∀ result, router.stage ≠ .finished result
  answers : handlers.answers core past = given ++ due
  flow : due.map codec.replyUnit = client.link.sink.units ++ router.stage.units
  delivered : client.delivered = given.reverse
  waiting : ∀ answer ∈ handlers.answers core script,
    answer.1 ∉ given.map (·.1) → answer.1 ∈ client.pending.ids

/-- What is still to do for the messages that are under way: each step takes one off, or turns one
into the next. -/
def load (router : Responding σ) (client : Client) : Nat :=
  client.link.queue.size + client.link.sink.size + router.stage.units.length + client.outstanding

namespace Midway

variable {handlers : Handlers σ} {core : σ} {codec : Codec} {script : List Message}
  {router : Responding σ} {client : Client} {past behind : List Message}
  {given due : List (Id × Outcome)}

/-- Whatever was answered so far is the first part of the answers to the script. -/
theorem answered (midway : Midway handlers core codec script router client past behind given due) :
    ∃ later, handlers.answers core script = given ++ due ++ later := by
  obtain ⟨told, sent, silent⟩ := midway.sent
  have all : handlers.answers core (past ++ behind) = handlers.answers core script := by
    rw [sent, Handlers.answers_append, Handlers.answers_silent _ silent, List.append_nil]
  refine ⟨handlers.answers (handlers.after core past) behind, ?_⟩
  rw [← all, Handlers.answers_append, midway.answers]

private theorem takeUp_reads {unit : Bytes} {message : Message}
    (reads : codec.decode unit = .ok message)
    (core : σ) :
    handlers.responder.takeUp codec core (some unit) =
      ⟨handlers.after core [message],
        match handlers.reply? core message with
        | some answer => .replying (codec.replyUnit answer)
        | none => .pulling⟩ := by
  have responds : handlers.responder.respond message core = _ := Handlers.respond_eq core message
  simp only [Responder.takeUp, reads, responds]
  cases handlers.reply? core message <;> rfl

/-- The handlers take up the next message. -/
theorem pull (midway : Midway handlers core codec script router client past behind given due)
    (pulling : router.stage = .pulling) {unit : Bytes} {rest : List Bytes}
    (units : client.link.queue.units = unit :: rest) :
    ∃ message others more,
      Midway handlers core codec script
        (handlers.responder.takeUp codec router.core (some unit))
        { client with link := { client.link with
            queue := { client.link.queue with units := rest } } }
        (past ++ [message]) others given (due ++ more) ∧
      (handlers.responder.takeUp codec router.core (some unit)).stage.units.length ≤ 1 := by
  have queued := midway.queue
  rw [units, List.map_cons] at queued
  obtain ⟨message, others, rfl, reads, queuedRest⟩ := List.map_eq_cons_iff.mp queued.symm
  have flow := midway.flow
  have answers : handlers.answers core (past ++ [message]) = _ :=
    Handlers.answers_last core past message
  rw [pulling, Stage.units, List.append_nil] at flow
  rw [midway.answers, ← midway.state, List.append_assoc] at answers
  have state : handlers.after router.core [message] = handlers.after core (past ++ [message]) := by
    rw [Handlers.after_append, midway.state]
  obtain ⟨told, sent, silent⟩ := midway.sent
  have sentStill : past ++ [message] ++ others = script ++ told := by
    rw [List.append_assoc]
    exact sent
  rw [takeUp_reads reads.symm]
  refine ⟨message, others, (handlers.reply? router.core message).toList,
    { midway with
      plain := { midway.plain with }
      sent := ⟨told, sentStill, silent⟩
      queue := queuedRest.symm
      state
      serving := ?_
      answers
      flow := ?_ }, ?_⟩
  · intro result finished
    cases reply : handlers.reply? router.core message <;> rw [reply] at finished <;> cases finished
  · rw [List.map_append, flow]
    cases handlers.reply? router.core message <;> rfl
  · cases handlers.reply? router.core message
    · exact Nat.zero_le 1
    · exact Nat.le_refl 1

/-- The handlers write the reply that is due. -/
theorem write (midway : Midway handlers core codec script router client past behind given due)
    {reply : Bytes} (replying : router.stage = .replying reply) :
    Midway handlers core codec script ⟨router.core, .pulling⟩
      { client with link := { client.link with
          sink := { client.link.sink with units := client.link.sink.units ++ [reply] } } }
      past behind given due := by
  have flow := midway.flow
  rw [replying] at flow
  exact { midway with
    plain := { midway.plain with }
    serving := nofun
    flow := flow.trans (List.append_nil _).symm }

/-- The loop takes in the next response. -/
theorem receive (arrives : Arrives handlers core codec script)
    (midway : Midway handlers core codec script router client past behind given due)
    {unit : Bytes} {rest : List Bytes} (units : client.link.sink.units = unit :: rest) :
    ∃ answer others told,
      let received : Client := { client with link := { client.link with
          sink := { client.link.sink with units := rest } } }
      Midway handlers core codec script router (received.accept unit) past (behind ++ told)
        (given ++ [answer]) others ∧
      (received.accept unit).nextId = client.nextId ∧
      load router (received.accept unit) + 1 ≤ load router client := by
  have flow := midway.flow
  rw [units, List.cons_append] at flow
  obtain ⟨answer, others, rfl, rfl, flowRest⟩ := List.map_eq_cons_iff.mp flow
  obtain ⟨later, whole⟩ := midway.answered
  have inScript : answer ∈ handlers.answers core script :=
    whole ▸ List.mem_append_left later (List.mem_append_right given List.mem_cons_self)
  -- The identifiers of a script differ, so this one was not delivered before and is in flight.
  have ids := arrives.distinct
  rw [whole, List.append_assoc, List.map_append, List.nodup_append] at ids
  have fresh : answer.1 ∉ given.map (·.1) := fun before =>
    ids.2.2 answer.1 before answer.1 (by simp) rfl
  have waits := midway.waiting answer inScript fresh
  let received : Client := { client with link := { client.link with
    sink := { client.link.sink with units := rest } } }
  have receivedPlain : received.Plain := { midway.plain with }
  have reads : received.codec.decode (codec.replyUnit answer) =
      .ok (.response answer.1 answer.2) := by
    rw [show received.codec = codec from midway.spoken]
    exact arrives.answers answer inScript
  obtain ⟨more, hears⟩ := receivedPlain.accept reads waits
  obtain ⟨told, sent, silent⟩ := midway.sent
  have sentMore : past ++ (behind ++ more) = script ++ (told ++ more) := by
    rw [← List.append_assoc, sent, List.append_assoc]
  refine ⟨answer, others, more, ?_, hears.nextId, ?_⟩
  · refine
      { plain := hears.plain
        spoken := hears.codec.trans midway.spoken
        sent := ⟨told ++ more, sentMore, List.forall_mem_append.mpr ⟨silent, hears.silent⟩⟩
        queue := ?_
        state := midway.state
        serving := midway.serving
        answers := midway.answers.trans (List.append_cons given answer others)
        flow := ?_
        delivered := ?_
        waiting := ?_ }
    · have announced : (more.map client.codec.encode).map codec.decode = more.map .ok := by
        rw [List.map_map, midway.spoken]
        refine List.map_congr_left fun message member => ?_
        rw [hears.silent message member]
        exact arrives.announcement
      rw [hears.queue, List.map_append, announced, List.map_append]
      exact congrArg (· ++ _) midway.queue
    · rw [hears.sink]
      exact flowRest
    · rw [hears.delivered, List.reverse_append]
      exact congrArg (List.cons answer) midway.delivered
    · intro other asked new
      rw [List.map_append, List.mem_append, not_or] at new
      exact hears.pending other.1 (midway.waiting other asked new.1)
        fun same => new.2 (List.mem_singleton.mpr same)
  · have queue : (received.accept (codec.replyUnit answer)).link.queue.size =
        client.link.queue.size + more.length := by
      rw [Queue.size, hears.queue, List.length_append, List.length_map]
      rfl
    have sink : (received.accept (codec.replyUnit answer)).link.sink.size + 1 =
        client.link.sink.size := by
      rw [Sink.size, hears.sink, Sink.size, units]
      rfl
    have fewer : more.length + (received.accept (codec.replyUnit answer)).outstanding ≤
        client.outstanding := hears.fewer
    change load router (received.accept (codec.replyUnit answer)) + 1 ≤ load router client
    unfold load
    omega

end Midway

/-! ## Sending more -/

/-- Further messages were sent. What stands behind the script by then are only announcements. -/
theorem Midway.send {handlers : Handlers σ} {core : σ} {codec : Codec} {script : List Message}
    {router : Responding σ} {client after : Client} {past behind : List Message}
    {given due : List (Id × Outcome)}
    (midway : Midway handlers core codec script router client past behind given due)
    {asRead : Message → Message} {sent : List Message} (sends : client.Sends after sent)
    (readsAs : codec.ReadsAs asRead sent) :
    ∃ told, past ++ behind = script ++ told ∧
      (∀ message ∈ told, message = Call.handshakeDone.toNotification) ∧
      Midway handlers core codec (script ++ told ++ sent.map asRead) router after past
        (behind ++ sent.map asRead) given due := by
  obtain ⟨told, earlier, silent⟩ := midway.sent
  have units : (sent.map codec.encode).map codec.decode = (sent.map asRead).map .ok := by
    rw [List.map_map, List.map_map]
    exact List.map_congr_left readsAs.reads
  refine ⟨told, earlier, silent, ?_⟩
  exact {
    plain := sends.plain
    spoken := sends.codec.trans midway.spoken
    sent := by
      refine ⟨[], ?_, List.forall_mem_nil _⟩
      rw [← List.append_assoc, earlier, List.append_nil]
    queue := by
      rw [sends.queue, List.map_append, midway.queue, midway.spoken, units, List.map_append]
    state := midway.state
    serving := midway.serving
    answers := midway.answers
    flow := by
      rw [sends.sink]
      exact midway.flow
    delivered := sends.delivered.trans midway.delivered
    waiting := by
      intro answer owed fresh
      rw [List.append_assoc, Handlers.answers_append, Handlers.answers_append,
        Handlers.answers_silent _ silent, List.nil_append] at owed
      obtain early | late := List.mem_append.mp owed
      · exact sends.pending _ (midway.waiting answer early fresh)
      · obtain ⟨method, params, asked⟩ := Handlers.request_of_answer late
        obtain ⟨message, member, read⟩ := List.mem_map.mp asked
        obtain ⟨others, rfl⟩ := readsAs.asks message member read
        exact sends.asked member }

/-! ## Both sides at work -/

/-- A host is midway through a script, wherever that is. -/
def Answering (handlers : Handlers σ) (core : σ) (codec : Codec) (script : List Message)
    (router : Responding σ) (client : Client) : Prop :=
  ∃ past behind given due, Midway handlers core codec script router client past behind given due

namespace Answering

variable {handlers : Handlers σ} {core : σ} {codec : Codec} {script : List Message}
  {router : Responding σ} {client : Client}

/-- The handlers make a move, unless they wait. With an empty sink they only wait for a message. -/
theorem advance (answering : Answering handlers core codec script router client) :
    (∃ next link, handlers.peer.advance codec router client.link = .moved next link ∧
      Answering handlers core codec script next { client with link } ∧
      load next { client with link } ≤ load router client) ∨
    handlers.peer.advance codec router client.link = .waiting ∧
      (client.link.sink.units = [] → router.stage = .pulling ∧ client.link.queue.units = []) := by
  obtain ⟨past, behind, given, due, midway⟩ := answering
  rw [Peer.advance, Handlers.peer, Responder.peer]
  dsimp only
  cases stage : router.stage with
  | pulling =>
    rcases client.link.pull_cases with
      ⟨unit, rest, units, taken⟩ | ⟨-, ended, -⟩ | ⟨none, -, same⟩
    · left
      obtain ⟨message, others, more, taking, few⟩ := midway.pull stage units
      dsimp only
      rw [taken]
      refine ⟨_, _, rfl, ⟨_, _, _, _, taking⟩, ?_⟩
      unfold load Queue.size
      rw [units, List.length_cons]
      dsimp only [Client.outstanding]
      omega
    · rw [midway.plain.queue] at ended
      cases ended
    · dsimp only
      rw [same]
      exact .inr ⟨rfl, fun _ => ⟨rfl, none⟩⟩
  | replying reply =>
    dsimp only
    rcases client.link.write_cases reply with ⟨ended, -⟩ | accepted | ⟨full, same⟩
    · rw [midway.plain.sink] at ended
      cases ended
    · left
      rw [accepted]
      refine ⟨_, _, rfl, ⟨_, _, _, _, midway.write stage⟩, ?_⟩
      unfold load Sink.size
      rw [stage, List.length_append]
      exact Nat.le_of_eq rfl
    · right
      rw [same]
      refine ⟨rfl, ?_⟩
      intro empty
      have room := midway.plain.room
      rw [Sink.size, empty] at full
      exact absurd room (Nat.not_lt.mpr full)
  | finished result => exact absurd stage (midway.serving result)

/-- The handlers go as far as they can. -/
theorem serve (answering : Answering handlers core codec script router client) :
    ∃ next link, handlers.peer.run codec router client.link = (.waiting, next, link) ∧
      Answering handlers core codec script next { client with link } ∧
      load next { client with link } ≤ load router client ∧
      (link.sink.units = [] → next.stage = .pulling ∧ link.queue.units = []) := by
  generalize linked : client.link = far
  fun_induction Peer.run handlers.peer codec router far generalizing client with
  | case1 router far next link advanced ih =>
    subst linked
    obtain ⟨_, _, moved, still, less⟩ | ⟨waits, -⟩ := answering.advance
    · cases advanced.symm.trans moved
      obtain ⟨last, end_, ran, after, fewer, idle⟩ := ih still rfl
      exact ⟨last, end_, ran, after, Nat.le_trans fewer less, idle⟩
    · cases advanced.symm.trans waits
  | case2 router far advanced =>
    subst linked
    obtain ⟨_, _, moved, -⟩ | ⟨-, idle⟩ := answering.advance
    · cases advanced.symm.trans moved
    · exact ⟨router, client.link, rfl, answering, Nat.le_refl _, idle⟩
  | case3 router far result advanced =>
    subst linked
    obtain ⟨_, _, moved, -⟩ | ⟨waits, -⟩ := answering.advance
    · cases advanced.symm.trans moved
    · cases advanced.symm.trans waits

/-- The loop takes in a response, unless the sink is empty. -/
theorem step (arrives : Arrives handlers core codec script)
    (answering : Answering handlers core codec script router client) :
    (∃ after, client.step = (.accepted, after) ∧
      Answering handlers core codec script router after ∧ after.nextId = client.nextId ∧
      load router after + 1 ≤ load router client) ∨
    client.step = (.waiting, client) ∧ client.link.sink.units = [] := by
  obtain ⟨past, behind, given, due, midway⟩ := answering
  unfold Client.step
  rcases client.link.receive_cases with
    ⟨unit, rest, -, units, taken⟩ | ⟨reason, aborted, -⟩ | ⟨-, ended, -⟩ | ⟨-, empty, -, waits⟩
  · left
    obtain ⟨answer, others, told, receiving, nextId, less⟩ := midway.receive arrives units
    rw [taken]
    exact ⟨_, rfl, ⟨_, _, _, _, receiving⟩, nextId, less⟩
  · rw [midway.plain.whole] at aborted
    cases aborted
  · rw [midway.plain.sink] at ended
    cases ended
  · rw [waits]
    exact .inr ⟨rfl, empty⟩

/-- The loop takes in whatever is in the sink. -/
theorem drain (arrives : Arrives handlers core codec script)
    (answering : Answering handlers core codec script router client) :
    ∃ after, client.drain = (.waiting, after) ∧
      Answering handlers core codec script router after ∧ after.nextId = client.nextId ∧
      load router after + client.link.sink.size ≤ load router client ∧
      after.link.sink.units = [] ∧ (client.link.sink.units = [] → after = client) := by
  fun_induction Client.drain client with
  | case1 client next stepped ih =>
    obtain ⟨_, moved, still, nextId, less⟩ | ⟨waits, -⟩ := answering.step arrives
    · cases stepped.symm.trans moved
      obtain ⟨after, drained, last, further, fewer, empty, -⟩ := ih still
      have taken := Client.size_step stepped
      refine ⟨after, drained, last, further.trans nextId, by omega, empty, ?_⟩
      intro none
      rw [Sink.size, none] at taken
      cases taken
    · cases stepped.symm.trans waits
  | case2 client next stepped =>
    obtain ⟨_, moved, -⟩ | ⟨waits, empty⟩ := answering.step arrives
    · cases stepped.symm.trans moved
    · cases stepped.symm.trans waits
      refine ⟨client, rfl, answering, rfl, ?_, empty, fun _ => rfl⟩
      rw [Sink.size, empty]
      exact Nat.le_refl _
  | case3 client next result stepped =>
    obtain ⟨_, moved, -⟩ | ⟨waits, -⟩ := answering.step arrives
    · cases stepped.symm.trans moved
    · cases stepped.symm.trans waits

end Answering

/-! ## Hosts that come to rest -/

namespace Host

/-- A host serves the handlers and is midway through a script. -/
structure Works (host : Host (Responding σ)) (handlers : Handlers σ) (core : σ) (codec : Codec)
    (script : List Message) : Prop where
  serves : host.peer = handlers.peer
  spoken : host.codec = codec
  answering : Answering handlers core codec script host.state host.client

/-- Nothing is under way in a host. -/
structure Rests (host : Host (Responding σ)) : Prop where
  pulling : host.state.stage = .pulling
  queue : host.client.link.queue.units = []
  sink : host.client.link.sink.units = []

variable {handlers : Handlers σ} {core : σ} {codec : Codec} {script : List Message}
  {host : Host (Responding σ)}

/-- A host that further messages were sent to is midway through all of them. -/
theorem Works.send {asRead : Message → Message} {sent : List Message} {client : Client}
    (works : host.Works handlers core codec script) (sends : host.client.Sends client sent)
    (readsAs : codec.ReadsAs asRead sent) :
    ∃ told, (∀ message ∈ told, message = Call.handshakeDone.toNotification) ∧
      ({ host with client } : Host (Responding σ)).Works handlers core codec
        (script ++ told ++ sent.map asRead) := by
  obtain ⟨past, behind, given, due, midway⟩ := works.answering
  obtain ⟨told, -, silent, further⟩ := midway.send sends readsAs
  exact ⟨told, silent, works.serves, works.spoken, past, _, given, due, further⟩

private theorem Rests.load_eq (rests : host.Rests) :
    load host.state host.client = host.client.outstanding := by
  rw [load, Queue.size, Sink.size, rests.pulling, rests.queue, rests.sink]
  exact Nat.zero_add _

/-- A host that rests has delivered the answers to the whole script. -/
theorem Works.delivered (works : host.Works handlers core codec script) (rests : host.Rests) :
    host.client.delivered = (handlers.answers core script).reverse := by
  obtain ⟨past, behind, given, due, midway⟩ := works.answering
  have queue := midway.queue
  have flow := midway.flow
  rw [rests.queue, List.map_nil] at queue
  rw [rests.sink, rests.pulling] at flow
  obtain rfl := List.map_eq_nil_iff.mp queue.symm
  obtain rfl := List.map_eq_nil_iff.mp flow
  obtain ⟨told, sent, silent⟩ := midway.sent
  have all := midway.answers
  rw [List.append_nil] at sent all
  rw [sent, Handlers.answers_append, Handlers.answers_silent _ silent, List.append_nil] at all
  rw [midway.delivered, all]

/-- A round in which nothing moves ends at rest, and any other one leaves less to do. -/
theorem Works.round (arrives : Arrives handlers core codec script)
    (works : host.Works handlers core codec script) :
    ∃ moved after, host.round {} = (moved, {}, after) ∧ after.Works handlers core codec script ∧
      after.client.nextId = host.client.nextId ∧
      (moved = true → load after.state after.client < load host.state host.client) ∧
      (moved = false → after.Rests) := by
  obtain ⟨next, link, served, between, less, idle⟩ := works.answering.serve
  obtain ⟨client, drained, answering, nextId, fewer, empty, idler⟩ := between.drain arrives
  rw [← works.serves, ← works.spoken] at served
  let middle : Host (Responding σ) :=
    { host with state := next, client := { host.client with link } }
  let after : Host (Responding σ) := { middle with client }
  have first : host.serve {} = ({}, middle) := by
    rw [Host.serve, if_neg (by nofun), served]
  have second : middle.drain {} = ({}, after) := by
    have drained : middle.client.drain = (.waiting, client) := drained
    rw [Host.drain, if_neg (by nofun), drained]
  have passed : host.round {} =
      (host.trace {} ≠ middle.trace {} || middle.trace {} ≠ after.trace {}, {}, after) := by
    rw [Host.round, first]
    dsimp only
    rw [second]
  refine ⟨_, after, passed, ⟨works.serves, works.spoken, answering⟩, nextId, ?_⟩
  rw [Bool.or_eq_true, Bool.or_eq_false_iff, decide_eq_true_iff, decide_eq_true_iff]
  cases units : link.sink.units with
  | nil =>
    obtain ⟨pulling, queue⟩ := idle units
    obtain rfl : client = middle.client := idler units
    have rests : after.Rests := ⟨pulling, queue, units⟩
    refine ⟨?_, fun _ => rests⟩
    rintro (moved | moved)
    · -- What is left is what it was, but for units that were in a channel.
      apply Nat.lt_of_not_le
      intro least
      have outstanding : host.client.outstanding = after.client.outstanding := rfl
      have empty : middle.trace {} = (0, 0, false, false) := by
        rw [Host.trace, Queue.size, Sink.size, rests.queue, rests.sink]
        rfl
      rw [rests.load_eq, load] at least
      apply moved
      rw [empty, Host.trace, show host.client.link.queue.size = 0 by omega,
        show host.client.link.sink.size = 0 by omega]
      rfl
    · exact absurd rfl moved
  | cons unit rest =>
    have some : middle.client.link.sink.size = rest.length + 1 := congrArg List.length units
    have none : after.client.link.sink.size = 0 := congrArg List.length empty
    have fewer : load after.state after.client + middle.client.link.sink.size ≤
      load next middle.client := fewer
    have less : load next middle.client ≤ load host.state host.client := less
    refine ⟨fun _ => by omega, ?_⟩
    rintro ⟨-, still⟩
    have same := Decidable.of_not_not (of_decide_eq_false still)
    have size : middle.client.link.sink.size = after.client.link.sink.size :=
      congrArg (fun seen => seen.2.1) same
    omega

/-- With rounds enough, a host comes to rest. -/
theorem Works.rounds (arrives : Arrives handlers core codec script)
    (works : host.Works handlers core codec script) {limit : Nat}
    (enough : load host.state host.client < limit) :
    ∃ moved after, rounds limit host {} = (moved, {}, after) ∧
      after.Works handlers core codec script ∧ after.client.nextId = host.client.nextId ∧
      after.Rests := by
  induction limit generalizing host with
  | zero => cases enough
  | succ limit ih =>
    obtain ⟨moved, next, round, worksOn, nextId, less, rests⟩ := works.round arrives
    rw [Host.rounds, round]
    cases moved with
    | false => exact ⟨false, next, rfl, worksOn, nextId, rests rfl⟩
    | true =>
      obtain ⟨_, after, further, worked, nextIdStill, resting⟩ :=
        ih worksOn (Nat.lt_of_lt_of_le (less rfl) (Nat.le_of_lt_succ enough))
      dsimp only
      rw [further]
      exact ⟨true, after, rfl, worked, nextIdStill.trans nextId, resting⟩

/-- A host has patience enough for whatever is under way in it. -/
theorem load_lt (host : Host (Responding σ)) :
    load host.state host.client < host.patience := by
  have stage : host.state.stage.units.length ≤ 1 := by
    cases host.state.stage with
    | replying reply => exact Nat.le_refl 1
    | pulling | finished => exact Nat.zero_le 1
  have outstanding : host.client.outstanding ≤ 1 := by
    unfold Client.outstanding
    split <;> decide
  unfold load patience Schedule.patience
  omega

/-- Polling a host once brings every answer home. -/
theorem Works.run (arrives : Arrives handlers core codec script)
    (works : host.Works handlers core codec script) :
    ∃ moved after, host.run {} = (moved, {}, after) ∧ after.Works handlers core codec script ∧
      after.client.nextId = host.client.nextId ∧
      after.client.delivered = (handlers.answers core script).reverse := by
  obtain ⟨moved, after, ran, worked, nextId, rests⟩ := works.rounds arrives host.load_lt
  exact ⟨moved, after, ran, worked, nextId, worked.delivered rests⟩

end Host

end Airlock
