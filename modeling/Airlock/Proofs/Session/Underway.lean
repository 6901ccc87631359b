import Airlock.Proofs.Channel.Polls
import Airlock.Proofs.Client.Accounting
import Airlock.Proofs.Client.Outgoing
import Airlock.Proofs.Codec.RoundTrip
import Airlock.Proofs.Session.Dialogue

/-!
# Requests underway

As long as a client is not closed and its router serves, a request in flight is somewhere: in the
queue, with the router, in the sink, or being acted on. This takes a request and a reply that can be
read from their own units, because either side drops a unit that it cannot read. A unit that is
dropped concerns no other request, so everything here is said of the identifiers that are followed.
-/

set_option autoImplicit false

namespace Airlock

open Client (Trail History Occurrence Outgoing Chain)

/-! ## Where a request is -/

structure Client.Live (client : Client) : Prop where
  phase : client.phase ≠ .closed
  sink : client.link.sink.abortReason? = none

/-- Where the request with an identifier, or its response, is on its way. -/
inductive Underway (serving : Serving) (client : Client) (id : Id) : Prop where
  | queued {unit : Bytes} {method : String} {params : Value}
      (waits : unit ∈ client.link.queue.units)
      (reads : client.codec.decode unit = .ok (.request id method params))
  | handled {method : String} {params : Value}
      (here : serving = .handling (.request id method params))
  | answered {outcome : Outcome} (here : serving = .replying id outcome)
  | buffered {unit : Bytes} {outcome : Outcome} (waits : unit ∈ client.link.sink.units)
      (reads : client.codec.decode unit = .ok (.response id outcome))

/-- The next unit in the sink is a response with the identifier. -/
def Client.Receives (client : Client) (id : Id) : Prop :=
  ∃ unit outcome, client.link.receive.1 = .ready (.ok (some unit)) ∧
    client.codec.decode unit = .ok (.response id outcome)

/-- Of the identifiers that are followed, every request in flight is on its way. -/
def Carried (followed : Id → Prop) (serving : Serving) (client : Client) : Prop :=
  client.Live → serving ≠ .finished → ∀ id ∈ client.pending.ids, followed id →
    Underway serving client id

variable {followed : Id → Prop} {serving : Serving} {client after last : Client}

private theorem Underway.mono {id : Id} (underway : Underway serving client id)
    (codec : after.codec = client.codec)
    (queue : ∀ unit ∈ client.link.queue.units, unit ∈ after.link.queue.units)
    (sink : ∀ unit ∈ client.link.sink.units, unit ∈ after.link.sink.units) :
    Underway serving after id := by
  cases underway with
  | queued waits reads => exact .queued (queue _ waits) (codec ▸ reads)
  | handled here => exact .handled here
  | answered here => exact .answered here
  | buffered waits reads => exact .buffered (sink _ waits) (codec ▸ reads)

/-! ## What the client does -/

private theorem Client.Outgoing.live {occurrence : Occurrence}
    (outgoing : Outgoing client occurrence after) (live : after.Live) : client.Live where
  phase closed := live.phase (outgoing.past closed)
  sink := by
    have sink := live.sink
    rcases outgoing.link with gained | ⟨closed, -, -⟩
    · rwa [gained] at sink
    · rwa [closed] at sink

/-- The unit of the message reads as a request with the identifier. -/
def Codec.ReadsRequest (codec : Codec) (id : Id) (message : Message) : Prop :=
  ∃ method params, codec.decode (codec.encode message) = .ok (.request id method params)

/-- A request that is sent goes into the queue, where it can be read. -/
theorem Carried.outgoing {occurrence : Occurrence} (carried : Carried followed serving client)
    (outgoing : Outgoing client occurrence after)
    (legible : ∀ id call, occurrence = .issued id call → followed id →
      client.codec.ReadsRequest id (call.toRequest id)) :
    Carried followed serving after := by
  intro live serves id flies follow
  rcases outgoing.pending id flies with before | ⟨call, rfl⟩
  · apply (carried (outgoing.live live) serves id before follow).mono outgoing.codec
    · intro unit waits
      rw [outgoing.queue]
      exact List.mem_append_left _ waits
    · intro unit waits
      rwa [outgoing.sink.1]
  · obtain ⟨method, params, reads⟩ := legible id call rfl follow
    have waits : client.codec.encode (call.toRequest id) ∈ after.link.queue.units := by
      rw [outgoing.queue]
      exact List.mem_append_right _ List.mem_cons_self
    rw [← outgoing.codec] at waits reads
    exact .queued waits reads

/-- Of the identifiers that are followed, every request of the trail can be read. -/
def Client.Trail.Legible (codec : Codec) (followed : Id → Prop) (trail : Trail) : Prop :=
  ∀ entry ∈ trail, ∀ id call, entry.1 = .issued id call → followed id →
    codec.ReadsRequest id (call.toRequest id)

private theorem Carried.chain {trail : Trail} (carried : Carried followed serving client)
    (chain : Chain client trail last) (legible : trail.Legible client.codec followed) :
    (∀ entry ∈ trail, Carried followed serving entry.2) ∧ Carried followed serving last := by
  induction chain with
  | nil =>
    refine ⟨?_, carried⟩
    intro entry member
    cases member
  | @cons client middle last occurrence rest outgoing chain ih =>
    have here : Carried followed serving middle :=
      carried.outgoing outgoing (legible _ List.mem_cons_self)
    have later : Client.Trail.Legible middle.codec followed rest := by
      intro entry member
      rw [outgoing.codec]
      exact legible entry (List.mem_cons_of_mem _ member)
    obtain ⟨points, final⟩ := ih here later
    refine ⟨?_, final⟩
    intro entry member
    rcases List.mem_cons.mp member with rfl | further
    · exact here
    · exact points entry further

/-! ## What the loop does -/

/-- Taking a unit out concerns only the request that the unit answers. -/
theorem Carried.received (carried : Carried followed serving client)
    (live : client.received.Live) (serves : serving ≠ .finished) {id : Id}
    (flies : id ∈ client.pending.ids) (follow : followed id) :
    Underway serving client.received id ∨ client.Receives id := by
  have open? := live.sink
  unfold Client.received at open? ⊢
  rcases client.link.receive_cases with
    ⟨first, rest, aborted, units, taken⟩ | ⟨reason, aborted, dropped⟩ | ⟨-, -, same⟩ |
      ⟨-, -, -, same⟩
  · rw [taken]
    cases carried ⟨live.phase, aborted⟩ serves id flies follow with
    | queued waits reads => exact .inl (.queued waits reads)
    | handled here => exact .inl (.handled here)
    | answered here => exact .inl (.answered here)
    | @buffered unit outcome waits reads =>
      rw [units] at waits
      -- The unit that is taken out may be the very response that the request waits for.
      rcases List.mem_cons.mp waits with rfl | further
      · exact .inr ⟨unit, outcome, congrArg Prod.fst taken, reads⟩
      · exact .inl (.buffered further reads)
  · rw [dropped] at open?
    exact nomatch aborted.symm.trans open?
  all_goals
    rw [same] at open? ⊢
    exact .inl (carried ⟨live.phase, open?⟩ serves id flies follow)

/-- At a point of an act with this client, every request that is followed is on its way, but for
those that arrive. -/
def Passing (followed arrives : Id → Prop) (serving : Serving) (client : Client) : Prop :=
  client.Live → serving ≠ .finished → ∀ id ∈ client.pending.ids, followed id →
    Underway serving client id ∨ arrives id

private theorem Carried.passing (carried : Carried followed serving client) (arrives : Id → Prop) :
    Passing followed arrives serving client :=
  fun live serves id flies follow => .inl (carried live serves id flies follow)

/-- In a step of the loop every request stays on its way, but for the one that is answered. -/
theorem Carried.takes {trail : Trail} (carried : Carried followed serving client)
    (takes : Client.Takes client trail last) (legible : trail.Legible client.codec followed) :
    (∀ entry ∈ trail, Passing followed client.Receives serving entry.2) ∧
      Carried followed serving last := by
  cases takes with
  | @plain rest last other chain =>
    have still : Carried followed serving client.received := by
      intro live serves id flies follow
      apply (carried.received live serves flies follow).resolve_right
      rintro ⟨unit, outcome, taken, reads⟩
      exact other unit id outcome taken reads
    have later : Client.Trail.Legible client.received.codec followed rest := fun entry member =>
      legible entry (List.mem_cons_of_mem _ member)
    obtain ⟨points, final⟩ := still.chain chain later
    refine ⟨?_, final⟩
    intro entry member
    rcases List.mem_cons.mp member with rfl | further
    · exact still.passing _
    · exact (points entry further).passing _
  | @response unit id outcome waited rest last taken reads chain =>
    have left : Carried followed serving (client.received.leaving id) := by
      intro live serves other member follow
      obtain ⟨flies, different⟩ := Client.mem_leaving.mp member
      rcases carried.received ⟨live.phase, live.sink⟩ serves flies follow with underway | arrives
      · exact underway.mono rfl (fun _ waits => waits) (fun _ waits => waits)
      · -- One unit was taken out, so it answers no second request.
        obtain ⟨again, answer, same, found⟩ := arrives
        rw [taken] at same
        cases same
        rw [reads] at found
        cases found
        exact absurd rfl different
    have later : Client.Trail.Legible (client.received.leaving id).codec followed rest :=
      fun entry member =>
        legible entry (List.mem_cons_of_mem _ (List.mem_cons_of_mem _ member))
    obtain ⟨points, final⟩ := left.chain chain later
    refine ⟨?_, final⟩
    intro entry member
    rcases List.mem_cons.mp member with rfl | further
    · exact fun live serves _ flies follow => carried.received live serves flies follow
    rcases List.mem_cons.mp further with rfl | behind
    · exact left.passing _
    · exact (points entry behind).passing _

/-! ## What others do to the link -/

theorem Link.after_units {link : Link} {move : LinkMove} (stays : move.passes = false) :
    (link.after move).queue.units = link.queue.units ∧
      (link.after move).sink.units = link.sink.units ∧
      ((link.after move).sink.abortReason? = none → link.sink.abortReason? = none) := by
  cases move with
  | pull | takeAll | write => cases stays
  | abort reason =>
    refine ⟨rfl, rfl, ?_⟩
    intro none
    cases held : link.sink.abortReason? with
    | none => rfl
    | some earlier => simp [Link.after, Link.abort, Sink.abort, held] at none
  | closeSink | addPeer | dropPeer | addClient | dropClient => exact ⟨rfl, rfl, id⟩

private theorem Carried.linked (carried : Carried followed serving client) {move : LinkMove}
    (stays : move.passes = false) :
    Carried followed serving { client with link := client.link.after move } := by
  obtain ⟨queue, sink, aborted⟩ := @Link.after_units client.link move stays
  intro live serves id flies follow
  refine (carried ⟨live.phase, aborted live.sink⟩ serves id flies follow).mono rfl ?_ ?_
  · intro unit waits
    rwa [queue]
  · intro unit waits
    rwa [sink]

/-! ## What the router does -/

private theorem Carried.pulled (carried : Carried followed .pulling client) :
    Carried followed (.afterPull client.codec client.link.pull.1)
      { client with link := client.link.pull.2 } := by
  rcases client.link.pull_cases with ⟨first, rest, units, taken⟩ | ⟨-, -, ended⟩ | ⟨-, -, same⟩
  · rw [taken]
    intro live serves id flies follow
    cases carried ⟨live.phase, live.sink⟩ nofun id flies follow with
    | @queued unit method params waits reads =>
      rw [units] at waits
      rcases List.mem_cons.mp waits with rfl | further
      · have next : Serving.afterPull client.codec (.ready (some unit)) =
            .handling (.request id method params) := by
          rw [Serving.afterPull, reads]
        exact .handled next
      · exact .queued further reads
    | handled here | answered here => cases here
    | buffered waits reads => exact .buffered waits reads
  · rw [ended]
    exact fun _ serves => absurd rfl serves
  · rw [same]
    exact carried

private theorem Carried.handled {message : Message}
    (carried : Carried followed (.handling message) client) (outcome : Outcome) :
    Carried followed (.afterHandler outcome message) client := by
  intro live serves id flies follow
  cases carried live nofun id flies follow with
  | queued waits reads => exact .queued waits reads
  | handled here =>
    cases here
    exact .answered rfl
  | answered here => cases here
  | buffered waits reads => exact .buffered waits reads

/-- The unit of a reply reads as a response to the identifier. -/
def Codec.ReadsReply (codec : Codec) (id : Id) (outcome : Outcome) : Prop :=
  ∃ read, codec.decode (codec.encode (.response id outcome)) = .ok (.response id read)

private theorem Carried.written {id : Id} {outcome : Outcome}
    (carried : Carried followed (.replying id outcome) client)
    (legible : followed id → client.codec.ReadsReply id outcome) :
    let written := client.link.write (client.codec.encode (.response id outcome))
    Carried followed (.afterWrite id outcome written.1) { client with link := written.2 } := by
  intro written
  rcases client.link.write_cases (client.codec.encode (.response id outcome)) with
    ⟨-, error, refused⟩ | accepted | ⟨-, same⟩
  · -- A refused write ends the router, and nothing is asked of a router that ended.
    rw [show written = _ from refused]
    exact fun _ serves => absurd rfl serves
  · rw [show written = _ from accepted]
    intro live serves other flies follow
    cases carried ⟨live.phase, live.sink⟩ nofun other flies follow with
    | queued waits reads => exact .queued waits reads
    | handled here => cases here
    | answered here =>
      cases here
      obtain ⟨read, reads⟩ := legible follow
      exact .buffered (List.mem_append_right _ List.mem_cons_self) reads
    | buffered waits reads => exact .buffered (List.mem_append_left _ waits) reads
  · rw [show written = _ from same]
    exact carried

/-! ## Dialogues -/

/-- What is carried after the only occurrence of an act is carried at every point of it. -/
theorem Carried.alone {arrives : Id → Prop} (carried : Carried followed serving client) :
    (∀ entry ∈ ([(.quiet, client)] : Client.Trail), Passing followed arrives serving entry.2) ∧
      Carried followed serving client :=
  ⟨List.forall_mem_singleton.mpr (carried.passing arrives), carried⟩

/-- Whatever happens to the client, every request stays on its way, but for the one whose response
is taken out of the sink. -/
theorem Carried.world {world : Client.World} (carried : Carried followed serving world.client)
    (act : Client.Act) (stays : ∀ move, act = .link move → move.passes = false)
    (legible : (world.actTrail act).Legible world.client.codec followed) :
    (∀ entry ∈ world.actTrail act,
      Passing followed (fun id => act = .intake ∧ world.client.Receives id) serving entry.2) ∧
    Carried followed serving (world.act act).client := by
  by_cases own : act.local = true
  · obtain ⟨points, final⟩ := carried.chain (world.chain_act own) legible
    exact ⟨fun entry member => (points entry member).passing _, final⟩
  cases act with
  | link move =>
    exact (carried.linked (stays move rfl)).alone
  | intake =>
    cases looping : world.looping with
    | true =>
      obtain ⟨trail, after⟩ := Client.World.intake_looping looping
      rw [trail] at legible ⊢
      rw [after]
      obtain ⟨points, final⟩ := carried.takes (Client.takes_step _) legible
      refine ⟨?_, final⟩
      intro entry member live serves id flies follow
      exact (points entry member live serves id flies follow).imp_right fun here => ⟨rfl, here⟩
    | false =>
      obtain ⟨trail, after⟩ := Client.World.intake_idle looping
      rw [trail, after]
      refine ⟨?_, carried⟩
      intro entry member
      cases member
  | start =>
    rcases world.start_cases with ⟨-, trail, same⟩ | ⟨-, trail, after⟩
    · rw [trail, same]
      refine ⟨?_, carried⟩
      intro entry member
      cases member
    · have started : Carried followed serving { world.client with running := true } := by
        intro live serves id flies follow
        exact (carried { live with } serves id flies follow).mono rfl (fun _ waits => waits)
          fun _ waits => waits
      rw [trail, after]
      exact started.alone
  | call | cancel | await | shutdown | poll | forget => exact absurd rfl own

namespace Dialogue

variable {dialogue : Dialogue}

/-- At a point of an act, every request that is followed is on its way, but for the one whose
response is taken out of the sink. -/
def Passes (dialogue : Dialogue) (followed : Id → Prop) (next : Act) (client : Client) : Prop :=
  Passing followed (fun id => next = .near .intake ∧ dialogue.client.Receives id)
    (dialogue.act next).serving client

variable {next : Act}

theorem carried_act (carried : Carried followed dialogue.serving dialogue.client)
    (requests : (dialogue.actTrail next).Legible dialogue.client.codec followed)
    (replies : ∀ reply ∈ (dialogue.act next).replies, followed reply.1 →
      dialogue.client.codec.ReadsReply reply.1 reply.2) :
    (∀ entry ∈ dialogue.actTrail next, dialogue.Passes followed next entry.2) ∧
      Carried followed (dialogue.act next).serving (dialogue.act next).client := by
  have step := dialogue.step_act next
  unfold Passes
  generalize dialogue.actTrail next = trail at step requests ⊢
  generalize dialogue.act next = after at step replies ⊢
  cases step with
  | still idle => exact ⟨List.forall_mem_nil _, carried⟩
  | @near act stays =>
    obtain ⟨points, final⟩ := Carried.world carried act stays requests
    refine ⟨?_, final⟩
    intro entry member live serves id flies follow
    exact (points entry member live serves id flies follow).imp_right
      fun here => ⟨by rw [here.1], here.2⟩
  | pull pulling =>
    rw [pulling] at carried
    exact carried.pulled.alone
  | @answer message outcome handling =>
    rw [handling] at carried
    exact ⟨List.forall_mem_nil _, carried.handled outcome⟩
  | @write id outcome unit replying encoded =>
    rw [replying] at carried
    subst encoded
    exact (carried.written (replies (id, outcome) List.mem_cons_self)).alone

end Dialogue

end Airlock
