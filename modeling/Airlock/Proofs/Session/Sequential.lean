import Airlock.Proofs.Client.Accounting
import Airlock.Proofs.Codec.RoundTrip
import Airlock.Proofs.Session.Service

/-!
# Sessions as sequences

What a service did so far is what its handlers do by themselves, applied to the first messages that
the client sent, one after the other: nothing is lost, nothing done twice, and nothing out of order
on the way there and back. Each answer is that of one position in this order. So neither the codec
nor the room in the sink nor the order of the acts shows in what handlers answer.
-/

set_option autoImplicit false

namespace Airlock

open Client (Trail History Occurrence Outgoing Chain Takes)

/-! ## Messages that arrive as they are -/

namespace Codec

/-- The message is within the limits of the codec, and JSON reads each of its doubles as itself. -/
structure Carries (codec : Codec) (message : Message) : Prop where
  fits : codec.Fits message
  back : codec.format = .json → ∀ d ∈ message.toValue.doubles, d.ReadsBack

private theorem Carries.decode {codec : Codec} {message : Message}
    (carries : codec.Carries message) :
    codec.decode (codec.encode message) = .ok message.normalized :=
  decode_encode_fits carries.fits.wellFormed carries.back carries.fits.short carries.fits.shallow

/-- What is read from the units of messages. A unit that cannot be read is skipped. -/
def readings (codec : Codec) (messages : List Message) : List Message :=
  messages.filterMap fun message => (codec.decode (codec.encode message)).toOption

private theorem readings_carried {codec : Codec} {messages : List Message}
    (carries : ∀ message ∈ messages, codec.Carries message) :
    codec.readings messages = messages.map Message.normalized := by
  induction messages with
  | nil => rfl
  | cons message rest ih =>
    have here := (carries message List.mem_cons_self).decode
    have further := ih fun other member => carries other (List.mem_cons_of_mem _ member)
    rw [readings, List.filterMap_cons_some (by rw [here]; rfl), List.map_cons, ← further]
    rfl

end Codec

variable {σ : Type} {handlers : Handlers σ} {core : σ}

/-- The outcome as the client gets it: null data of an error is no data. -/
def Outcome.normalized : Outcome → Outcome
  | .error error => .error error.normalized
  | outcome => outcome

private theorem Message.normalized_response (id : Id) (outcome : Outcome) :
    Message.normalized (.response id outcome) = .response id (Outcome.normalized outcome) := by
  cases outcome <;> rfl

namespace Handlers

private theorem respond_normalized (message : Message) (core : σ) :
    handlers.respond message.normalized core = handlers.respond message core := by
  cases message with
  | request | notification => rfl
  | response id outcome => cases outcome <;> rfl

private theorem after_normalized (messages : List Message) (core : σ) :
    handlers.after core (messages.map Message.normalized) = handlers.after core messages := by
  induction messages generalizing core with
  | nil => rfl
  | cons message rest ih =>
    rw [List.map_cons, after, List.foldl_cons, respond_normalized]
    exact ih _

private theorem Replies.of_normalized {messages : List Message} {reply : Message}
    (replies : handlers.Replies core (messages.map Message.normalized) reply) :
    handlers.Replies core messages reply := by
  obtain ⟨before, message, later, split, given⟩ := replies
  obtain ⟨first, others, rfl, rfl, rest⟩ := List.map_eq_append_iff.mp split
  obtain ⟨same, last, rfl, rfl, rfl⟩ := List.map_eq_cons_iff.mp rest
  rw [respond_normalized, after_normalized] at given
  exact ⟨first, same, last, rfl, given⟩

/-- Only a request is replied to, with the outcome of its own answer. -/
theorem Replies.position {messages : List Message} {reply : Message}
    (replies : handlers.Replies core messages reply) :
    ∃ position id method params, messages[position]? = some (.request id method params) ∧
      reply = .response id
        (handlers.answer method params (handlers.after core (messages.take position))).1 := by
  obtain ⟨before, message, later, rfl, given⟩ := replies
  cases message with
  | request id method params =>
    refine ⟨before.length, id, method, params, by simp, ?_⟩
    rw [List.take_left]
    exact (Option.some.inj given).symm
  | notification | response => cases given

/-- The unit of a reply that the handlers gave to what was read of messages. -/
def Written (handlers : Handlers σ) (core : σ) (codec : Codec) (past : List Message)
    (unit : Bytes) : Prop :=
  ∃ reply, handlers.Replies core (codec.readings past) reply ∧ unit = codec.encode reply

private theorem takeUp_next (codec : Codec) (past : List Message) (message : Message) :
    let next := handlers.responder.takeUp codec (handlers.after core (codec.readings past))
      (some (codec.encode message))
    next.core = handlers.after core (codec.readings (past ++ [message])) ∧
      (∀ unit, next.stage = .replying unit →
        handlers.Written core codec (past ++ [message]) unit) ∧
      ∀ result, next.stage ≠ .finished result := by
  have readings : codec.readings (past ++ [message]) =
      codec.readings past ++ codec.readings [message] := List.filterMap_append
  unfold Written
  rw [readings, Responder.takeUp]
  cases reads : codec.decode (codec.encode message) with
  | error error =>
    have skipped : codec.readings [message] = [] := List.filterMap_cons_none (by rw [reads]; rfl)
    rw [skipped, List.append_nil]
    exact ⟨rfl, nofun, nofun⟩
  | ok read =>
    have one : codec.readings [message] = [read] := List.filterMap_cons_some (by rw [reads]; rfl)
    rw [one, after_append]
    dsimp only [responder]
    rcases given : handlers.respond read (handlers.after core (codec.readings past)) with
      ⟨reply?, next⟩
    have acted : handlers.after (handlers.after core (codec.readings past)) [read] = next :=
      congrArg Prod.snd given
    rw [acted]
    cases reply? with
    | none => exact ⟨rfl, nofun, nofun⟩
    | some reply =>
      refine ⟨rfl, ?_, nofun⟩
      intro unit replying
      exact ⟨reply, replies_last (congrArg Prod.fst given), (Stage.replying.inj replying).symm⟩

private theorem Written.append {codec : Codec} {past : List Message} {unit : Bytes}
    (written : handlers.Written core codec past unit) (more : List Message) :
    handlers.Written core codec (past ++ more) unit := by
  obtain ⟨reply, replies, named⟩ := written
  refine ⟨reply, ?_, named⟩
  rw [Codec.readings, List.filterMap_append]
  exact replies.append _

end Handlers

/-! ## What goes over the link -/

/-- Neither channel closes before the client, and the handlers are served until then. -/
structure Joined (client : Client) (router : Responding σ) : Prop where
  queue : client.link.queue.closed = true → client.phase = .closed
  sink : client.link.sink.closed = true → client.phase = .closed
  router : ∀ result, router.stage = .finished result → client.phase = .closed

private theorem Joined.of_closed {client : Client} (router : Responding σ)
    (closed : client.phase = .closed) : Joined client router :=
  ⟨fun _ => closed, fun _ => closed, fun _ _ => closed⟩

private theorem Joined.outgoing {client after : Client} {router : Responding σ}
    {occurrence : Occurrence}
    (joined : Joined client router) (outgoing : Outgoing client occurrence after) :
    Joined after router := by
  refine ⟨?_, ?_, fun result ended => outgoing.past (joined.router result ended)⟩
  · intro closed
    rcases outgoing.closing closed with before | ended
    · exact outgoing.past (joined.queue before)
    · exact ended
  · intro closed
    rcases outgoing.link with gained | ⟨-, ended, -⟩
    · rw [gained] at closed
      exact outgoing.past (joined.sink closed)
    · exact ended

private theorem Joined.same {client after : Client} {router next : Responding σ}
    (joined : Joined client router) (phase : after.phase = client.phase)
    (queue : after.link.queue.closed = client.link.queue.closed)
    (sink : after.link.sink.closed = client.link.sink.closed)
    (ended : ∀ result, next.stage = .finished result → client.phase = .closed) :
    Joined after next where
  queue closed := phase.trans (joined.queue (queue ▸ closed))
  sink closed := phase.trans (joined.sink (sink ▸ closed))
  router result finished := phase.trans (ended result finished)

/-- The messages that were sent are those that the handlers took, and behind them those that wait in
the queue. The handlers are where the first ones lead them, and all that comes back is theirs. -/
structure Flow (handlers : Handlers σ) (core : σ) (codec : Codec) (past : List Message)
    (history : History) (client : Client) (router : Responding σ) : Prop where
  speaks : client.codec = codec
  queue : ∃ behind, history.sent = past ++ behind ∧
    client.link.queue.units = behind.map codec.encode
  acted : router.core = handlers.after core (codec.readings past)
  stage : ∀ unit, router.stage = .replying unit → handlers.Written core codec past unit
  sink : ∀ unit ∈ client.link.sink.units, handlers.Written core codec past unit
  arrivals : ∀ id outcome, history.Answered id outcome →
    ∃ unit, handlers.Written core codec past unit ∧ codec.decode unit = .ok (.response id outcome)
  joined : Joined client router

namespace Flow

variable {codec : Codec} {past : List Message} {history : History} {client after last : Client}
  {router : Responding σ}

private theorem outgoing {occurrence : Occurrence}
    (flow : Flow handlers core codec past history client router)
    (outgoing : Outgoing client occurrence after) :
    Flow handlers core codec past (occurrence :: history) after router := by
  obtain ⟨behind, sent, queue⟩ := flow.queue
  constructor
  case speaks => exact outgoing.codec.trans flow.speaks
  case queue =>
    refine ⟨behind ++ occurrence.sent, ?_, ?_⟩
    · rw [History.sent_cons, sent, List.append_assoc]
    · rw [outgoing.queue, queue, flow.speaks, List.map_append]
  case acted => exact flow.acted
  case stage => exact flow.stage
  case sink =>
    rw [outgoing.sink.1]
    exact flow.sink
  case arrivals =>
    exact fun id outcome answered => flow.arrivals id outcome (answered.before outgoing.own)
  case joined => exact flow.joined.outgoing outgoing

private theorem chain {trail : Trail} (flow : Flow handlers core codec past history client router)
    (chain : Chain client trail last) :
    Flow handlers core codec past (history.extend trail) last router := by
  induction chain generalizing history with
  | nil => exact flow
  | cons outgoing _ ih =>
    rw [History.extend_cons]
    exact ih (flow.outgoing outgoing)

/-- Nothing is put into either channel, and nothing is taken out of the queue. -/
theorem quiet (flow : Flow handlers core codec past history client router)
    (same : after.codec = client.codec)
    (queue : after.link.queue.units = client.link.queue.units)
    (sink : ∀ unit ∈ after.link.sink.units, unit ∈ client.link.sink.units)
    (joined : Joined after router) :
    Flow handlers core codec past (.quiet :: history) after router := by
  obtain ⟨behind, sent, units⟩ := flow.queue
  constructor
  case speaks => exact same.trans flow.speaks
  case queue => exact ⟨behind, (History.sent_silent rfl history).trans sent, queue.trans units⟩
  case acted => exact flow.acted
  case stage => exact flow.stage
  case sink => exact fun unit member => flow.sink unit (sink unit member)
  case arrivals =>
    exact fun id outcome answered => flow.arrivals id outcome (answered.before nofun)
  case joined => exact joined

private theorem still (flow : Flow handlers core codec past history client router) :
    Flow handlers core codec past (.quiet :: history) client router :=
  flow.quiet rfl rfl (fun _ member => member) flow.joined

private theorem received (flow : Flow handlers core codec past history client router) :
    Flow handlers core codec past (.quiet :: history) client.received router := by
  have sink : ∀ unit ∈ client.received.link.sink.units, unit ∈ client.link.sink.units := by
    intro unit member
    unfold Client.received at member
    rcases client.link.receive_cases with
      ⟨first, rest, -, units, taken⟩ | ⟨_, -, dropped⟩ | ⟨-, -, same⟩ | ⟨-, -, -, same⟩
    · rw [taken] at member
      rw [units]
      exact List.mem_cons_of_mem first member
    · rw [dropped] at member
      cases member
    all_goals rwa [same] at member
  exact flow.quiet rfl rfl sink
    (flow.joined.same rfl rfl (Sink.closed_read client.link.sink) flow.joined.router)

private theorem arrived {unit : Bytes} {id : Id} {outcome : Outcome} {waited : Bool}
    (flow : Flow handlers core codec past history client router)
    (written : handlers.Written core codec past unit)
    (reads : codec.decode unit = .ok (.response id outcome)) :
    Flow handlers core codec past (.arrived id outcome waited :: history) (client.leaving id)
      router := by
  obtain ⟨behind, sent, units⟩ := flow.queue
  constructor
  case speaks => exact flow.speaks
  case queue => exact ⟨behind, (History.sent_silent rfl history).trans sent, units⟩
  case acted => exact flow.acted
  case stage => exact flow.stage
  case sink => exact flow.sink
  case arrivals =>
    rintro other answer ⟨waits, member⟩
    rcases List.mem_cons.mp member with here | before
    · cases here
      exact ⟨unit, written, reads⟩
    · exact flow.arrivals other answer ⟨waits, before⟩
  case joined => exact flow.joined.same rfl rfl rfl flow.joined.router

private theorem takes {trail : Trail} (flow : Flow handlers core codec past history client router)
    (takes : Takes client trail last) :
    Flow handlers core codec past (history.extend trail) last router := by
  cases takes with
  | plain other chain =>
    rw [History.extend_cons]
    exact flow.received.chain chain
  | @response unit id outcome waited rest last taken reads chain =>
    have buffered : unit ∈ client.link.sink.units := by
      have polled : client.link.receive = (.ready (.ok (some unit)), client.link.receive.2) :=
        Prod.ext taken rfl
      rw [Link.units_receive polled]
      exact List.mem_cons_self
    rw [History.extend_cons, History.extend_cons]
    rw [flow.speaks] at reads
    exact (flow.received.arrived (flow.sink unit buffered) reads).chain chain

private theorem world {world : Client.World}
    (flow : Flow handlers core codec past history world.client router) {act : Client.Act}
    (unlinked : ∀ move, act ≠ .link move) :
    Flow handlers core codec past (history.extend (world.actTrail act)) (world.act act).client
      router := by
  by_cases own : act.local = true
  · exact flow.chain (world.chain_act own)
  cases act with
  | link move => exact absurd rfl (unlinked move)
  | intake =>
    cases looping : world.looping with
    | true =>
      obtain ⟨trail, after⟩ := Client.World.intake_looping looping
      rw [trail, after]
      exact flow.takes (Client.takes_step world.client)
    | false =>
      obtain ⟨trail, after⟩ := Client.World.intake_idle looping
      rw [trail, after]
      exact flow
  | start =>
    rcases world.start_cases with ⟨-, trail, same⟩ | ⟨-, trail, after⟩
    · rw [trail, same]
      exact flow
    · rw [trail, after]
      exact flow.quiet rfl rfl (fun _ member => member) { flow.joined with }
  | call | cancel | await | shutdown | poll | forget => exact absurd rfl own

private theorem pulled {unit : Bytes} {units : List Bytes}
    (flow : Flow handlers core codec past history client router)
    (waits : client.link.queue.units = unit :: units) :
    ∃ message, Flow handlers core codec (past ++ [message]) (.quiet :: history)
      { client with
        link := { client.link with queue := { client.link.queue with units } } }
      (handlers.responder.takeUp codec router.core (some unit)) := by
  obtain ⟨behind, sent, encoded⟩ := flow.queue
  rw [waits] at encoded
  obtain ⟨message, later, rfl, rfl, rfl⟩ := List.map_eq_cons_iff.mp encoded.symm
  refine ⟨message, ?_⟩
  obtain ⟨acted, replying, serves⟩ := @Handlers.takeUp_next _ handlers core codec past message
  rw [← flow.acted] at acted replying serves
  constructor
  case speaks => exact flow.speaks
  case queue => exact ⟨later, (History.sent_silent rfl history).trans (by simp [sent]), rfl⟩
  case acted => exact acted
  case stage => exact replying
  case sink => exact fun unit member => (flow.sink unit member).append _
  case arrivals =>
    intro id outcome answered
    obtain ⟨unit, written, reads⟩ := flow.arrivals id outcome (answered.before nofun)
    exact ⟨unit, written.append _, reads⟩
  case joined =>
    exact flow.joined.same rfl rfl rfl fun result ended => absurd ended (serves result)

private theorem written {unit : Bytes} (flow : Flow handlers core codec past history client router)
    (replying : router.stage = .replying unit) :
    Flow handlers core codec past (.quiet :: history)
      { client with
        link := { client.link with
          sink := { client.link.sink with units := client.link.sink.units ++ [unit] } } }
      ⟨router.core, .pulling⟩ := by
  obtain ⟨behind, sent, units⟩ := flow.queue
  constructor
  case speaks => exact flow.speaks
  case queue => exact ⟨behind, (History.sent_silent rfl history).trans sent, units⟩
  case acted => exact flow.acted
  case stage => exact nofun
  case sink =>
    intro other member
    rcases List.mem_append.mp member with before | here
    · exact flow.sink other before
    · obtain rfl := List.mem_singleton.mp here
      exact flow.stage other replying
  case arrivals =>
    exact fun id outcome answered => flow.arrivals id outcome (answered.before nofun)
  case joined => exact flow.joined.same rfl rfl rfl nofun

private theorem finished (flow : Flow handlers core codec past history client router)
    (closed : client.phase = .closed) (result : Except Error Unit) :
    Flow handlers core codec past history client ⟨router.core, .finished result⟩ where
  speaks := flow.speaks
  queue := flow.queue
  acted := flow.acted
  stage := nofun
  sink := flow.sink
  arrivals := flow.arrivals
  joined := .of_closed _ closed

private theorem serve {service : Service σ}
    (flow : Flow handlers core codec past history service.client service.router) :
    ∃ taken, Flow handlers core codec taken
      (history.extend (service.world.trail (service.moves .serve)))
      (service.act handlers .serve).client (service.act handlers .serve).router := by
  have speaks := flow.speaks
  rw [Service.act_serve, Service.moves]
  -- Handlers only end on a closed channel, and the channels only close with the client.
  cases stage : service.router.stage with
  | pulling =>
    dsimp only
    rcases service.client.link.pull_cases with
      ⟨unit, units, waits, taken⟩ | ⟨-, closed, ended⟩ | ⟨-, -, same⟩
    · obtain ⟨message, pulled⟩ := flow.pulled waits
      rw [taken, speaks]
      exact ⟨past ++ [message], pulled⟩
    · rw [ended]
      have ended := flow.finished (flow.joined.queue closed) (.ok ())
      exact ⟨past, ended.still⟩
    · rw [same]
      exact ⟨past, flow.still⟩
  | replying reply =>
    refine ⟨past, ?_⟩
    dsimp only
    rcases service.client.link.write_cases reply with
      ⟨closed, error, refused⟩ | accepted | ⟨-, same⟩
    · rw [refused]
      have ended := flow.finished (flow.joined.sink closed) (handlers.responder.refused error)
      exact ended.still
    · rw [accepted]
      exact flow.written stage
    · rw [same]
      exact flow.still
  | finished result =>
    have closed : service.client.phase = .closed := flow.joined.router result stage
    refine ⟨past, ?_⟩
    dsimp only
    split
    · exact flow
    · have first : Flow handlers core codec past (.quiet :: history)
          { service.client with link := service.client.link.closeSink } service.router :=
        flow.quiet rfl rfl (fun _ member => member) (.of_closed _ closed)
      exact first.quiet rfl rfl (fun _ member => member) (.of_closed _ closed)

private theorem act {service : Service σ} (next : Service.Act)
    (flow : Flow handlers core codec past history service.client service.router) :
    ∃ taken, Flow handlers core codec taken
      (history.extend (service.world.trail (service.moves next)))
      (service.act handlers next).client (service.act handlers next).router := by
  cases next with
  | serve => exact flow.serve
  | near act =>
    refine ⟨past, ?_⟩
    by_cases linked : ∃ move, act = .link move
    · obtain ⟨move, rfl⟩ := linked
      exact flow
    · have single : service.moves (.near act) = [act] ∧
          service.act handlers (.near act) = { service with world := service.world.act act } := by
        cases act with
        | link move => exact absurd ⟨move, rfl⟩ linked
        | _ => exact ⟨rfl, rfl⟩
      rw [single.1, single.2, Client.World.trail, Client.World.trail, List.append_nil]
      exact flow.world fun move here => linked ⟨move, here⟩

private theorem run {service : Service σ} (acts : List Service.Act)
    (flow : Flow handlers core codec past history service.client service.router) :
    ∃ taken, Flow handlers core codec taken (history.extend (service.trail handlers acts))
      (service.run handlers acts).client (service.run handlers acts).router := by
  induction acts generalizing service past history with
  | nil => exact ⟨past, flow⟩
  | cons next rest ih =>
    obtain ⟨taken, after⟩ := flow.act next
    rw [Service.trail, History.extend_append]
    exact ih after

end Flow

/-! ## Sessions -/

namespace Service

private theorem flow_create (core : σ) (config : Config) :
    Flow handlers core config.codec [] [] (create core config).client
      (create core config).router where
  speaks := rfl
  queue := ⟨[], rfl, rfl⟩
  acted := rfl
  stage := nofun
  sink := nofun
  arrivals _ _ answered := nomatch answered
  joined := ⟨nofun, nofun, nofun⟩

variable (handlers : Handlers σ) (core : σ) (config : Config) (acts : List Act)

def history : History :=
  ((create core config).trail handlers acts).history

def reached : Service σ :=
  (create core config).run handlers acts

/-- The messages that were sent and do not wait in the queue any more. -/
def taken : List Message :=
  let sent := (history handlers core config acts).sent
  sent.take (sent.length - (reached handlers core config acts).client.link.queue.size)

/-- The client is not closed, no request timed out, and every message arrives as it is: those that
were taken, and the replies to them. -/
structure Undisturbed : Prop where
  live : (reached handlers core config acts).client.phase ≠ .closed
  prompt : ∀ id timeout, .expired id timeout ∉ history handlers core config acts
  messages : ∀ message ∈ taken handlers core config acts, config.codec.Carries message
  replies : ∀ reply, handlers.Replies core (taken handlers core config acts) reply →
    config.codec.Carries reply

variable {handlers core config acts}

private theorem flow_reached :
    Flow handlers core config.codec (taken handlers core config acts)
      (history handlers core config acts) (reached handlers core config acts).client
      (reached handlers core config acts).router := by
  obtain ⟨past, flow⟩ := (@flow_create _ handlers core config).run acts
  obtain ⟨behind, sent, queue⟩ := flow.queue
  have size : (reached handlers core config acts).client.link.queue.size = behind.length := by
    rw [Queue.size, reached, queue, List.length_map]
  have same : taken handlers core config acts = past := by
    have split : (history handlers core config acts).sent = past ++ behind := sent
    simp [taken, split, size]
  rw [same]
  exact flow

private theorem audited_reached : Client.Audited (history handlers core config acts)
    (reached handlers core config acts).client := by
  obtain ⟨moves, world, trail⟩ := (create core config).run_world acts
  have around : (reached handlers core config acts).client =
      ((Client.World.create config).run moves).client := congrArg (·.client) world
  rw [around, history, trail]
  exact Client.World.run_audited config moves

private theorem Undisturbed.readings (undisturbed : Undisturbed handlers core config acts) :
    config.codec.readings (taken handlers core config acts) =
      (taken handlers core config acts).map Message.normalized :=
  Codec.readings_carried undisturbed.messages

private theorem Undisturbed.acted (undisturbed : Undisturbed handlers core config acts) :
    (reached handlers core config acts).router.core =
      handlers.after core (taken handlers core config acts) := by
  rw [flow_reached.acted, undisturbed.readings, Handlers.after_normalized]

private theorem sent_of_taken {position : Nat} {message : Message}
    (there : (taken handlers core config acts)[position]? = some message) :
    position < (taken handlers core config acts).length ∧
      (history handlers core config acts).sent[position]? = some message ∧
      (taken handlers core config acts).take position =
        (history handlers core config acts).sent.take position := by
  obtain ⟨below, -⟩ := List.getElem?_eq_some_iff.mp there
  obtain ⟨waiting, sent, -⟩ := (@flow_reached _ handlers core config acts).queue
  refine ⟨below, ?_, ?_⟩
  · rw [sent, List.getElem?_append_left below]
    exact there
  · rw [sent, List.take_append_of_le_length (Nat.le_of_lt below)]

private theorem Undisturbed.resolved (undisturbed : Undisturbed handlers core config acts) {id : Id}
    {found : Except Error Value} (member : .resolved id found ∈ history handlers core config acts) :
    ∃ position method params, position < (taken handlers core config acts).length ∧
      (history handlers core config acts).sent[position]? = some (.request id method params) ∧
      found = Client.result (Outcome.normalized (handlers.answer method params
        (handlers.after core ((history handlers core config acts).sent.take position))).1) := by
  obtain ⟨kept, accounted, -, excused⟩ := @audited_reached _ handlers core config acts
  have flow := @flow_reached _ handlers core config acts
  rcases accounted.resolved id found member with dropped | ⟨outcome, answered, rfl⟩
  · exfalso
    rcases dropped with closed | ⟨timeout, expired⟩ | ⟨call, withdrawn⟩
    · exact undisturbed.live (accounted.closed closed)
    · exact undisturbed.prompt id timeout expired
    · rcases excused _ withdrawn with shut | sealed
      · exact undisturbed.live (flow.joined.queue shut)
      · exact undisturbed.live (kept.closed.mpr sealed)
  · obtain ⟨unit, ⟨reply, replies, rfl⟩, reads⟩ := flow.arrivals id outcome answered
    rw [undisturbed.readings] at replies
    have given := replies.of_normalized
    rw [(undisturbed.replies reply given).decode] at reads
    obtain ⟨position, asked, method, params, there, rfl⟩ := given.position
    rw [Message.normalized_response] at reads
    cases reads
    obtain ⟨below, sent, before⟩ := sent_of_taken there
    rw [before]
    exact ⟨position, method, params, below, sent, rfl⟩

private theorem Undisturbed.noted (undisturbed : Undisturbed handlers core config acts) :
    let noted := Service.reached handlers.logged (core, []) config acts
    noted.unlogged = reached handlers core config acts ∧
      noted.router.core = ((reached handlers core config acts).router.core,
        handlers.calls (taken handlers core config acts)) := by
  intro noted
  obtain ⟨same, trail⟩ := @run_unlogged _ handlers (create (core, []) config) acts
  refine ⟨same, ?_⟩
  have history : Service.history handlers.logged (core, []) config acts =
      Service.history handlers core config acts := congrArg Trail.history trail
  have client : noted.client = (reached handlers core config acts).client :=
    congrArg Service.client same
  have messages :
      taken handlers.logged (core, []) config acts = taken handlers core config acts := by
    unfold taken
    rw [history, ← client]
  have flow := @flow_reached _ handlers.logged (core, []) config acts
  rw [undisturbed.acted, flow.acted, messages, undisturbed.readings, Handlers.after_normalized,
    Handlers.after_logged, List.nil_append]

/-- Where two sessions sent the same messages, what a request resolved with is the same. -/
theorem Undisturbed.agree {otherConfig : Config} {otherActs : List Act}
    (undisturbed : Undisturbed handlers core config acts)
    (other : Undisturbed handlers core otherConfig otherActs)
    (same : (history handlers core otherConfig otherActs).sent =
      (history handlers core config acts).sent)
    (few : (history handlers core config acts).calls < 0x8000000000000000) {id : Id}
    {found again : Except Error Value}
    (here : .resolved id found ∈ history handlers core config acts)
    (there : .resolved id again ∈ history handlers core otherConfig otherActs) :
    again = found := by
  obtain ⟨first, method, params, -, asked, rfl⟩ := undisturbed.resolved here
  obtain ⟨second, otherMethod, otherParams, -, askedAgain, rfl⟩ := other.resolved there
  rw [same] at askedAgain ⊢
  obtain rfl := audited_reached.distinct.position few asked askedAgain
  rw [asked] at askedAgain
  cases askedAgain
  rfl

/-- In every session over handlers, while the client is not closed and no request timed out: the
handlers were called for the first messages that the client sent, each once and in order, and the
others wait in the queue; the core is where these calls lead it, and each request resolved with what
its own call gave. All this is said without the codec, the sink and the order of the acts, so
sessions that sent the same agree on it. -/
theorem run_sequential (undisturbed : Undisturbed handlers core config acts) :
    let sent := (history handlers core config acts).sent
    let taken := taken handlers core config acts
    let reached := reached handlers core config acts
    let noted := Service.reached handlers.logged (core, []) config acts
    (∃ waiting, sent = taken ++ waiting ∧
      reached.client.link.queue.units = waiting.map config.codec.encode) ∧
    (noted.unlogged = reached ∧
      noted.router.core = (reached.router.core, handlers.calls taken)) ∧
    reached.router.core = handlers.after core taken ∧
    (∀ id found, .resolved id found ∈ history handlers core config acts →
      ∃ position method params, position < taken.length ∧
        sent[position]? = some (.request id method params) ∧
        found = Client.result (Outcome.normalized
          (handlers.answer method params (handlers.after core (sent.take position))).1)) ∧
    (∀ otherConfig otherActs, Undisturbed handlers core otherConfig otherActs →
      (history handlers core otherConfig otherActs).sent = sent →
      (Service.taken handlers core otherConfig otherActs = taken →
        (Service.reached handlers core otherConfig otherActs).router.core = reached.router.core) ∧
      ((history handlers core config acts).calls < 0x8000000000000000 →
        ∀ id found again, .resolved id found ∈ history handlers core config acts →
          .resolved id again ∈ history handlers core otherConfig otherActs → again = found)) := by
  intro sent taken reached noted
  obtain ⟨waiting, split, units⟩ := (@flow_reached _ handlers core config acts).queue
  refine ⟨⟨waiting, split, units⟩, undisturbed.noted, undisturbed.acted,
    fun id found member => undisturbed.resolved member, ?_⟩
  intro otherConfig otherActs other same
  refine ⟨?_, fun few id found again here there => undisturbed.agree other same few here there⟩
  intro alike
  rw [other.acted, alike]
  exact undisturbed.acted.symm

def counting : Handlers Nat :=
  .insert .empty "count" fun _ count => (.ok (.ofNat count), count + 1)

theorem run_sequential_counting :
    let acts : List Act :=
      [.near .start, .near (.call (.request ⟨"count", .null⟩ fun _ => .skip)),
        .near (.call (.request ⟨"count", .null⟩ fun _ => .skip)), .serve, .serve, .serve, .serve,
        .near .intake, .near .intake, .near (.await (.nth 2)), .near (.poll (.nth 2) ⟨0⟩)]
    Undisturbed counting 0 Config.default acts ∧
      .resolved (.nth 2) (.ok (.ofNat 1)) ∈ history counting 0 Config.default acts ∧
      (reached counting.logged (0, []) Config.default acts).router.core =
        (2, [("count", .null), ("count", .null)]) := by
  intro acts
  have took : taken counting 0 Config.default acts =
      [.request (.nth 1) "count" .null, .request (.nth 2) "count" .null] := by
    rfl
  have last : (history counting 0 Config.default acts).head? =
      some (.resolved (.nth 2) (.ok (.ofNat 1))) := by
    rfl
  have plain {message : Message} (fits : Config.default.codec.Fits message)
      (none : message.toValue.doubles = []) : Config.default.codec.Carries message := by
    refine ⟨fits, ?_⟩
    rw [none]
    exact fun _ => nofun
  have undisturbed : Undisturbed counting 0 Config.default acts := by
    constructor
    case live => exact nofun
    case prompt =>
      intro id timeout member
      exact audited_reached.excused _ member rfl
    case messages =>
      rw [took]
      intro message member
      rcases List.mem_pair.mp member with rfl | rfl
      · exact plain ⟨trivial, by decide, by decide⟩ (by decide)
      · exact plain ⟨trivial, by decide, by decide⟩ (by decide)
    case replies =>
      rw [took]
      intro reply replies
      obtain ⟨position, id, method, params, there, given⟩ := replies.position
      obtain rfl | rfl : reply = .response (.nth 1) (.ok (.ofNat 0)) ∨
          reply = .response (.nth 2) (.ok (.ofNat 1)) := by
        rcases position with _ | _ | position
        · cases there
          exact .inl given
        · cases there
          exact .inr given
        · cases there
      · exact plain ⟨trivial, by decide, by decide⟩ (by decide)
      · exact plain ⟨trivial, by decide, by decide⟩ (by decide)
  obtain ⟨-, ⟨-, noted⟩, -⟩ := run_sequential undisturbed
  rw [took] at noted
  exact ⟨undisturbed, List.mem_of_mem_head? last, noted⟩

end Service

end Airlock
