import Airlock.Peer.Responder
import Airlock.Session.Waiting
import Airlock.Proofs.Session.Closing

/-!
# Handlers at work

The peer of a session serves handlers that answer at once. On a closed link a unit that is pulled
may still be acted on, but its reply is refused, which is the end of the handlers and no failure. So
they have a good end after no more moves than there are units left, and with them the session is
over.
-/

set_option autoImplicit false

namespace Airlock

/-! ## Responders -/

namespace Responder

variable {σ : Type} (responder : Responder σ) (codec : Codec)

private theorem takeUp_stage (core : σ) (unit? : Option Bytes) :
    (responder.takeUp codec core unit?).stage = .pulling ∨
      (∃ reply, (responder.takeUp codec core unit?).stage = .replying reply) ∨
      unit? = none ∧ (responder.takeUp codec core unit?).stage = .finished (.ok ()) := by
  unfold takeUp
  split
  · exact .inr (.inr ⟨rfl, rfl⟩)
  · split
    · exact .inl rfl
    · split
      · exact .inr (.inl ⟨_, rfl⟩)
      · exact .inl rfl

/-- Everything that a move of a responder can do. -/
theorem advance_cases (state : Responding σ) (link : Link) :
    (state.stage = .pulling ∧ ∃ unit?, link.pull.1 = .ready unit? ∧
      responder.peer.advance codec state link =
        .moved (responder.takeUp codec state.core unit?) link.pull.2) ∨
    (∃ reply result, state.stage = .replying reply ∧ (link.write reply).1 = .ready result ∧
      responder.peer.advance codec state link =
        .moved (responder.afterReply state.core result) (link.write reply).2) ∨
    (∃ result, state.stage = .finished result ∧
      responder.peer.advance codec state link = .finished result) ∨
    responder.peer.advance codec state link = .waiting := by
  cases stage : state.stage with
  | pulling =>
    rcases polled : link.pull with ⟨unit? | _, rest⟩
    · exact .inl ⟨rfl, unit?, rfl, by simp [Peer.advance, peer, stage, polled]⟩
    · exact .inr (.inr (.inr (by simp [Peer.advance, peer, stage, polled])))
  | replying reply =>
    rcases polled : link.write reply with ⟨result | _, rest⟩
    · exact .inr (.inl ⟨reply, result, rfl, by rw [polled],
        by simp [Peer.advance, peer, stage, polled]⟩)
    · exact .inr (.inr (.inr (by simp [Peer.advance, peer, stage, polled])))
  | finished result =>
    exact .inr (.inr (.inl ⟨result, rfl, by simp [Peer.advance, peer, stage]⟩))

end Responder

/-- How many moves are left at a stage, once the link is closed with so many units in the queue. -/
def Stage.left (queued : Nat) : Stage → Nat
  | .pulling => queued + 2
  | .replying _ => 2
  | .finished _ => 1

private theorem Stage.left_mono (stage : Stage) {fewer more : Nat} (le : fewer ≤ more) :
    stage.left fewer ≤ stage.left more := by
  cases stage with
  | pulling => exact Nat.add_le_add_right le 2
  | replying | finished => exact Nat.le_refl _

/-! ## How handlers end -/

namespace Hosting

variable {σ : Type} {handlers : Handlers σ} {hosting : Hosting (Responding σ)}

/-- A host whose peer serves handlers. If they have come to an end, it was a good one. -/
structure Serves (handlers : Handlers σ) (hosting : Hosting (Responding σ)) : Prop where
  peer : hosting.peer = handlers.peer
  ended : ∀ result, hosting.state.stage = .finished result → result = .ok ()

theorem serves_create (handlers : Handlers σ) (core : σ) (config : Config) :
    Serves handlers (create handlers.peer { core } config) :=
  ⟨rfl, nofun⟩

theorem written_terminal {link : Link} {unit : Bytes} {error : Error}
    (refused : (link.write unit).1 = .ready (.error error)) : error.isTerminal = true := by
  have polled : (link.sink.write unit).1 = .ready (.error error) := refused
  unfold Sink.write at polled
  split at polled
  · obtain rfl := Except.error.inj (Poll.ready.inj polled)
    exact Link.isTerminal_refusal link.sink
  · split at polled <;> cases polled

/-- What handlers come to, if they come to an end. -/
theorem advance_ended (handlers : Handlers σ) {codec : Codec} {state next : Responding σ}
    {link after : Link} (moved : handlers.peer.advance codec state link = .moved next after)
    {result : Except Error Unit} (ended : next.stage = .finished result) : result = .ok () := by
  rcases handlers.responder.advance_cases codec state link with
    ⟨-, unit?, -, took⟩ | ⟨reply, written, -, polled, wrote⟩ | ⟨_, -, finished⟩ | waits
  · cases moved.symm.trans took
    rcases handlers.responder.takeUp_stage codec state.core unit? with
      pulling | ⟨reply, replying⟩ | ⟨-, done⟩
    · cases pulling.symm.trans ended
    · cases replying.symm.trans ended
    · cases done.symm.trans ended
      rfl
  · cases moved.symm.trans wrote
    rcases written with error | ⟨⟩
    · have terminal := written_terminal polled
      have stage : (handlers.responder.afterReply state.core (.error error)).stage =
          .finished (.ok ()) := congrArg Stage.finished (if_pos terminal)
      cases stage.symm.trans ended
      rfl
    · cases ended
  · cases moved.symm.trans finished
  · cases moved.symm.trans waits

theorem Serves.act (serves : Serves handlers hosting) (next : Act) :
    Serves handlers (hosting.act next) := by
  refine ⟨(hosting.peer_act next).trans serves.peer, ?_⟩
  cases serving : next.serves with
  | false =>
    rw [(served_aside serving).1]
    exact serves.ended
  | true =>
    obtain rfl : next = .serve := by cases next <;> first | rfl | cases serving
    rcases hosting.act_serve_cases with same | ⟨progress, -, -, after⟩
    · rw [same]
      exact serves.ended
    · rw [after, Hosting.serve, serves.peer]
      cases advanced : handlers.peer.advance hosting.codec hosting.state hosting.client.link with
      | moved next link => exact fun result => advance_ended handlers advanced
      | waiting => exact serves.ended
      | finished result => exact serves.ended

theorem Serves.run (serves : Serves handlers hosting) (acts : List Act) :
    Serves handlers (hosting.run acts) := by
  induction acts generalizing hosting with
  | nil => exact serves
  | cons next rest ih => exact ih (serves.act next)

/-! ## Every move uses something up -/

/-- How many moves of a responder are left at most, once the link is closed. -/
def movesLeft (hosting : Hosting (Responding σ)) : Nat :=
  if hosting.served?.isSome then 0
  else hosting.state.stage.left hosting.client.link.queue.size

private theorem takeUp_left (responder : Responder σ) (codec : Codec) (core : σ) (unit : Bytes)
    (queued : Nat) :
    (responder.takeUp codec core (some unit)).stage.left queued ≤ queued + 2 := by
  rcases responder.takeUp_stage codec core (some unit) with
    pulling | ⟨reply, replying⟩ | ⟨none, -⟩
  · rw [pulling]
    exact Nat.le_refl _
  · rw [replying]
    exact Nat.le_add_left 2 queued
  · cases none

/-- A move of handlers on a closed link brings them nearer to their end. -/
theorem advance_left (handlers : Handlers σ) {codec : Codec} {state next : Responding σ}
    {link after : Link} (closed : link.Closed)
    (moved : handlers.peer.advance codec state link = .moved next after) :
    next.stage.left after.queue.size + 1 ≤ state.stage.left link.queue.size := by
  rcases handlers.responder.advance_cases codec state link with
    ⟨pulling, unit?, polled, took⟩ | ⟨reply, written, replying, polled, wrote⟩ |
      ⟨_, -, finished⟩ | waits
  · cases moved.symm.trans took
    rw [pulling]
    rcases link.pull_cases with ⟨unit, rest, units, taken⟩ | ⟨none, -, ended⟩ | ⟨-, opened, -⟩
    · rw [taken] at polled ⊢
      cases polled
      have left := takeUp_left handlers.responder codec state.core unit rest.length
      have size : link.queue.size = rest.length + 1 := congrArg List.length units
      rw [size]
      exact Nat.add_le_add_right left 1
    · rw [ended] at polled
      cases polled
      exact Nat.le_add_left 2 _
    · cases closed.queue.symm.trans opened
  · cases moved.symm.trans wrote
    rw [replying]
    rw [closed.write_refused] at polled
    cases polled
    exact Nat.le_refl 2
  · cases moved.symm.trans finished
  · cases moved.symm.trans waits

private theorem Serves.moves_serve (serves : Serves handlers hosting)
    (begun : hosting.progress? ≠ none)
    (closed : hosting.client.link.Closed) :
    (hosting.act .serve).movesLeft ≤ hosting.movesLeft - 1 := by
  obtain ⟨progress, here⟩ := Option.ne_none_iff_exists'.mp begun
  cases served : progress.served? with
  | some result =>
    have same : hosting.act .serve = hosting := by simp [Hosting.act, here, served]
    simp [same, movesLeft, Hosting.served?, here, served]
  | none =>
    have unserved : hosting.served? = none := by simp [Hosting.served?, here, served]
    rw [act_serve here served, Hosting.serve, serves.peer]
    cases advanced : handlers.peer.advance hosting.codec hosting.state hosting.client.link with
    | moved next link =>
      have nearer := advance_left handlers closed advanced
      simp only [movesLeft, Hosting.served?, here, served, Option.bind_some, Option.isSome_none,
        Bool.false_eq_true, if_false]
      exact Nat.le_sub_of_add_le nearer
    | waiting => exact absurd advanced (handlers.peer.advance_closed _ _ closed)
    | finished result => simp [movesLeft, Hosting.served?]

private theorem Serves.moves_act (serves : Serves handlers hosting) (sound : hosting.Sound)
    (begun : hosting.progress? ≠ none) (closed : hosting.client.link.Closed) (next : Act) :
    (hosting.act next).movesLeft ≤ hosting.movesLeft - (if next.serves then 1 else 0) := by
  cases serving : next.serves with
  | true =>
    obtain rfl : next = .serve := by cases next <;> first | rfl | cases serving
    exact serves.moves_serve begun closed
  | false =>
    obtain ⟨state, served⟩ := @served_aside _ hosting next serving
    obtain ⟨gone, split, -⟩ := sound.queue_act closed next
    have fewer : (hosting.act next).client.link.queue.size ≤ hosting.client.link.queue.size := by
      unfold Queue.size
      rw [split, List.length_append]
      exact Nat.le_add_left _ _
    unfold movesLeft
    rw [state, served]
    split
    · exact Nat.le_refl 0
    · exact Stage.left_mono _ fewer

private theorem Serves.moves_run (serves : Serves handlers hosting) (sound : hosting.Sound)
    (begun : hosting.progress? ≠ none) (closed : hosting.client.link.Closed) (acts : List Act) :
    (hosting.run acts).movesLeft ≤ hosting.movesLeft - acts.countP Act.serves := by
  induction acts generalizing hosting with
  | nil => exact Nat.le_refl _
  | cons next rest ih =>
    have here := serves.moves_act sound begun closed next
    have later := ih (serves.act next) (sound.act next) (begun_act begun next)
      (sound.closed_act closed next)
    rw [List.countP_cons]
    change ((hosting.act next).run rest).movesLeft ≤ _
    omega

/-! ## What a run returns -/

private theorem client_intake (progress : Progress) :
    (hosting.intake progress).client = hosting.client.step.2 := by
  unfold Hosting.intake
  rcases hosting.client.step with ⟨_ | _ | _, after⟩ <;> rfl

/-- Neither handlers nor the loop abort anything. -/
theorem Serves.reason_own (serves : Serves handlers hosting) {next : Act}
    (own : next.own = true) :
    (hosting.act next).client.link.sink.abortReason? =
      hosting.client.link.sink.abortReason? := by
  cases next with
  | near | start => cases own
  | serve =>
    rcases hosting.act_serve_cases with same | ⟨progress, -, -, after⟩
    · rw [same]
    · rw [after, Hosting.serve, serves.peer]
      rcases handlers.responder.advance_cases hosting.codec hosting.state hosting.client.link with
        ⟨-, unit?, -, took⟩ | ⟨reply, written, -, -, wrote⟩ | ⟨_, -, finished⟩ | waits
      · rw [Handlers.peer, took]
        rfl
      · rw [Handlers.peer, wrote]
        rcases hosting.client.link.write_cases reply with
          ⟨-, error, refused⟩ | accepted | ⟨-, same⟩
        · rw [refused]
          rfl
        · rw [accepted]
          rfl
        · rw [same]
          rfl
      · rw [Handlers.peer, finished]
        rfl
      · rw [Handlers.peer, waits]
  | intake =>
    rcases hosting.act_intake_cases with same | ⟨progress, -, -, after⟩
    · rw [same]
    · rw [after, client_intake]
      exact (Client.takes_step hosting.client).reason

theorem Serves.reason_run (serves : Serves handlers hosting) {acts : List Act}
    (own : ∀ act ∈ acts, act.own = true) :
    (hosting.run acts).client.link.sink.abortReason? =
      hosting.client.link.sink.abortReason? := by
  induction acts generalizing hosting with
  | nil => rfl
  | cons next rest ih =>
    have here := serves.reason_own (own next List.mem_cons_self)
    have later := ih (serves.act next) fun act member => own act (List.mem_cons_of_mem _ member)
    exact later.trans here

/-- The handlers end well, and so does the loop unless the sink was aborted. -/
theorem Serves.results (serves : Serves handlers hosting) (sound : hosting.Sound)
    {served drained : Except Error Unit}
    (complete : hosting.progress? = some ⟨some served, some drained⟩) :
    served = .ok () ∧ (drained = .ok () ∨ ∃ reason, drained = .error (.aborted reason) ∧
      hosting.client.link.sink.abortReason? = some reason) := by
  obtain ⟨finished, -⟩ := sound.served _ served complete rfl
  obtain ⟨-, why⟩ := sound.drained _ drained complete rfl
  refine ⟨serves.ended served ?_, why⟩
  rw [serves.peer] at finished
  simp only [Handlers.peer, Responder.peer] at finished
  split at finished
  · cases finished
  · cases finished
  · rename_i stage
    cases finished
    exact stage

/-- The session that runs a host. -/
def session (hosting : Hosting (Responding σ)) (config : Config) : Session (Responding σ) :=
  ⟨config, .running hosting.host⟩

/-- Once the link is closed, a poll of the run goes through to the end. -/
theorem Serves.run_closed (serves : Serves handlers hosting) (sound : hosting.Sound)
    {progress : Progress} (begun : hosting.progress? = some progress)
    (closed : hosting.client.link.Closed) :
    ∃ drained after, (hosting.host.run progress).2 = (⟨some (.ok ()), some drained⟩, after) ∧
      (drained = .ok () ∨ ∃ reason, drained = .error (.aborted reason) ∧
        hosting.client.link.sink.abortReason? = some reason) := by
  have still : hosting.host.client.link.Closed := closed
  obtain ⟨served, drained, after, ran⟩ := Host.run_closed still progress
  obtain ⟨acts, own, -, complete⟩ := reaches_run begun
  rw [ran] at complete
  obtain ⟨rfl, why⟩ := (serves.run acts).results (sound.run acts) complete
  rw [serves.reason_run own] at why
  exact ⟨drained, after, ran, why⟩

theorem goOn_session (hosting : Hosting (Responding σ))
    (advance : Host (Responding σ) → Progress → Bool × Progress × Host (Responding σ))
    (config : Config) (progress : Progress) :
    (hosting.session config).goOn advance progress =
      ((advance hosting.host progress).1, (advance hosting.host progress).2.1,
        ⟨config, .running (advance hosting.host progress).2.2⟩) :=
  rfl

/-- Through the session a poll of the run terminates it, once the link is closed. -/
theorem Serves.turn_closed (serves : Serves handlers hosting) (sound : hosting.Sound)
    {progress : Progress} (begun : hosting.progress? = some progress)
    (closed : hosting.client.link.Closed) (now : Duration) {config : Config}
    {world : Session.World (Responding σ)} (runs : world.session = hosting.session config) :
    ∃ result after, Session.Task.turn now (.start progress) world =
        (.finished (.ended result), { world with session := ⟨config, .terminated after⟩ }) ∧
      (hosting.client.link.sink.abortReason? = none → result = .ok ()) := by
  obtain ⟨drained, after, ran, why⟩ := serves.run_closed sound begun closed
  refine ⟨drained, after, ?_, ?_⟩
  · have polled := hosting.goOn_session Host.run config progress
    rw [ran, ← runs] at polled
    rw [Session.Task.turn, polled]
    rcases why with rfl | ⟨reason, rfl, -⟩ <;> rfl
  · intro whole
    rcases why with well | ⟨reason, -, aborted⟩
    · exact well
    · cases whole.symm.trans aborted

/-! ## Closing -/

/-- What comes of it when the client is closed, whatever happens later. -/
structure Closes (hosting : Hosting (Responding σ)) (progress : Progress) : Prop where
  /-- nothing waits any more -/
  ready : ∀ later unit, (hosting.run later).client.link.pull.1 ≠ .waiting ∧
    ((hosting.run later).client.link.write unit).1 ≠ .waiting ∧
    (hosting.run later).client.link.receive.1 ≠ .waiting
  /-- the queue only loses units, and the handlers take up none but these -/
  queue : ∀ later, ∃ gone, hosting.client.link.queue.units =
      gone ++ (hosting.run later).client.link.queue.units ∧
    (hosting.handled later).Sublist gone
  /-- the sink only loses units, and the loop acts on none but these, in their order -/
  sink : ∀ later, hosting.dispatched later ++ (hosting.run later).client.link.sink.units <+:
    hosting.client.link.sink.units
  /-- both end after so many moves and steps, whatever goes on in between -/
  ends : ∀ later, hosting.client.link.queue.size + 2 ≤ later.countP Act.serves →
    hosting.client.link.sink.size + 1 ≤ later.countP Act.takes →
    ∃ served drained, (hosting.run later).progress? = some ⟨some served, some drained⟩
  result : ∀ later ended result, (hosting.run later).progress? = some ended →
    Host.result? ended = some result →
    (hosting.run later).client.link.sink.abortReason? = none → result = .ok ()
  /-- the next poll of the run through the session ends both, and terminates the session -/
  turn : ∀ now config world, world.session = hosting.session config →
    ∃ result after, Session.Task.turn now (.start progress) world =
        (.finished (.ended result), { world with session := ⟨config, .terminated after⟩ }) ∧
      (hosting.client.link.sink.abortReason? = none → result = .ok ())

/-- Where no move and no step is left, both have ended. -/
theorem over_of_left (noMoves : hosting.movesLeft = 0) (noSteps : hosting.stepsLeft = 0) :
    ∃ served drained, hosting.progress? = some ⟨some served, some drained⟩ := by
  have served : hosting.served?.isSome := by
    unfold movesLeft at noMoves
    split at noMoves
    · assumption
    · cases stage : hosting.state.stage <;> rw [stage] at noMoves <;> cases noMoves
  have drained : hosting.drained?.isSome := by
    unfold stepsLeft at noSteps
    split at noSteps
    · assumption
    · cases noSteps
  unfold served? at served
  unfold drained? at drained
  rcases begun : hosting.progress? with _ | ⟨_ | result, _ | other⟩
  · rw [begun] at served
    cases served
  · rw [begun] at served
    cases served
  · rw [begun] at served
    cases served
  · rw [begun] at drained
    cases drained
  · exact ⟨result, other, rfl⟩

private theorem movesLeft_le (hosting : Hosting (Responding σ)) :
    hosting.movesLeft ≤ hosting.client.link.queue.size + 2 := by
  unfold movesLeft
  split
  · exact Nat.zero_le _
  · cases hosting.state.stage with
    | pulling => exact Nat.le_refl _
    | replying | finished => simp [Stage.left]

private theorem stepsLeft_le (hosting : Hosting (Responding σ)) :
    hosting.stepsLeft ≤ hosting.client.link.sink.size + 1 := by
  unfold stepsLeft
  split
  · exact Nat.zero_le _
  · exact Nat.le_refl _

theorem Serves.closes (serves : Serves handlers hosting) (sound : hosting.Sound)
    {progress : Progress} (begun : hosting.progress? = some progress)
    (closed : hosting.client.link.Closed) : Closes hosting progress := by
  have started : hosting.progress? ≠ none := by
    rw [begun]
    nofun
  constructor
  case ready =>
    intro later unit
    have still := sound.closed_run closed later
    refine ⟨still.pull_ready, ?_, still.receive_ready⟩
    rw [still.write_refused]
    nofun
  case queue => exact sound.queue_run closed
  case sink => exact sound.sink_run closed
  case ends =>
    intro later moves steps
    have noMoves : (hosting.run later).movesLeft = 0 := by
      have most := movesLeft_le hosting
      have left := serves.moves_run sound started closed later
      omega
    have noSteps : (hosting.run later).stepsLeft = 0 := by
      have most := stepsLeft_le hosting
      have left := sound.steps_run started closed later
      omega
    exact over_of_left noMoves noSteps
  case result =>
    intro later ended result here complete whole
    obtain ⟨served, drained, rfl, first⟩ := result_some complete
    obtain ⟨rfl, why⟩ := (serves.run later).results (sound.run later) here
    rcases why with rfl | ⟨reason, -, aborted⟩
    · exact first
    · cases whole.symm.trans aborted
  case turn => exact fun now config world => serves.turn_closed sound begun closed now

end Hosting

end Airlock
