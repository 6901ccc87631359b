import Airlock.Proofs.Session.Underway

/-!
# Quiet dialogues

A dialogue is quiet once its router waits and there is nothing in the sink for the client. No
request is lost on the way whose own unit can be read and whose reply can be read: a quiet dialogue
has answered all of these, whatever other units were dropped. A request that only the router cannot
read is lost.
-/

set_option autoImplicit false

namespace Airlock.Dialogue

open Client (History Occurrence)

variable {followed : Id → Prop} {dialogue : Dialogue}

/-! ## Runs -/

theorem keeps_run (dialogue : Dialogue) (acts : List Act) :
    Client.Keeps dialogue.client (dialogue.run acts).client := by
  obtain ⟨moves, world, -⟩ := dialogue.run_world acts
  unfold client
  rw [world]
  exact (dialogue.world.keeps_run moves).1

private theorem run_audited (config : Config) (acts : List Act) :
    Client.Audited ((create config).trail acts).history ((create config).run acts).client := by
  obtain ⟨moves, world, trail⟩ := (create config).run_world acts
  have around : ((create config).run acts).client =
      ((Client.World.create config).run moves).client := congrArg (·.client) world
  rw [around, trail]
  exact Client.World.run_audited config moves

private theorem mem_replies_run {reply : Id × Outcome} (acts : List Act)
    (member : reply ∈ dialogue.replies) : reply ∈ (dialogue.run acts).replies := by
  induction acts generalizing dialogue with
  | nil => exact member
  | cons next rest ih =>
    apply ih
    unfold act repliesAfter
    dsimp only
    split
    · split
      · exact List.mem_cons_of_mem _ member
      · exact member
    · exact member

/-- Every act of a run keeps the requests that are followed on their way. -/
theorem carried_run {codec : Codec} (same : dialogue.client.codec = codec) (acts : List Act)
    (carried : Carried followed dialogue.serving dialogue.client)
    (requests : (dialogue.trail acts).Legible codec followed)
    (replies : ∀ reply ∈ (dialogue.run acts).replies, followed reply.1 →
      codec.ReadsReply reply.1 reply.2) :
    (∀ earlier next later, acts = earlier ++ next :: later →
      ∀ entry ∈ (dialogue.run earlier).actTrail next,
        (dialogue.run earlier).Passes followed next entry.2) ∧
    Carried followed (dialogue.run acts).serving (dialogue.run acts).client := by
  induction acts generalizing dialogue with
  | nil =>
    refine ⟨?_, carried⟩
    intro earlier next later split
    simp at split
  | cons first rest ih =>
    have here : (dialogue.actTrail first).Legible dialogue.client.codec followed := by
      intro entry member
      rw [same]
      exact requests entry (List.mem_append_left _ member)
    have written : ∀ reply ∈ (dialogue.act first).replies, followed reply.1 →
        dialogue.client.codec.ReadsReply reply.1 reply.2 := by
      intro reply member
      rw [same]
      exact replies reply (mem_replies_run rest member)
    obtain ⟨points, after⟩ := carried_act carried here written
    have codecAfter : (dialogue.act first).client.codec = codec :=
      (dialogue.keeps_run [first]).codec.trans same
    have further : ((dialogue.act first).trail rest).Legible codec followed :=
      fun entry member => requests entry (List.mem_append_right _ member)
    obtain ⟨later, final⟩ := ih codecAfter after further replies
    refine ⟨?_, final⟩
    intro earlier next behind split
    rcases List.cons_eq_append_iff.mp split with ⟨rfl, found⟩ | ⟨others, rfl, found⟩
    · obtain ⟨rfl, -⟩ := List.cons.inj found
      exact points
    · exact later others next behind found

/-! ## Quiet dialogues -/

/-- The router waits, and so does whoever reads the sink. -/
structure Quiet (dialogue : Dialogue) : Prop where
  router : dialogue.Waits
  reader : dialogue.client.link.receive.1 = .waiting

private theorem Quiet.sink (quiet : dialogue.Quiet) :
    dialogue.client.link.sink.units = [] ∧ dialogue.client.link.sink.abortReason? = none := by
  have reader := quiet.reader
  rcases dialogue.client.link.receive_cases with
    ⟨_, _, -, -, taken⟩ | ⟨_, -, dropped⟩ | ⟨-, -, ended⟩ | ⟨aborted, empty, -, -⟩
  · rw [taken] at reader
    cases reader
  · rw [dropped] at reader
    cases reader
  · rw [ended] at reader
    cases reader
  · exact ⟨empty, aborted⟩

/-- With room in an empty sink, a router can only wait for the queue. -/
theorem Quiet.queue (quiet : dialogue.Quiet) (room : 0 < dialogue.client.link.sink.capacity) :
    dialogue.serving = .pulling ∧ dialogue.client.link.queue.units = [] ∧
      dialogue.client.link.queue.closed = false := by
  have router := quiet.router
  unfold Waits at router
  cases serving : dialogue.serving with
  | pulling =>
    rw [serving] at router
    dsimp only at router
    rcases dialogue.client.link.pull_cases with
      ⟨_, _, -, taken⟩ | ⟨-, -, ended⟩ | ⟨empty, stays, -⟩
    · rw [taken] at router
      cases router
    · rw [ended] at router
      cases router
    · exact ⟨rfl, empty, stays⟩
  | replying id outcome =>
    rw [serving] at router
    dsimp only at router
    rcases dialogue.client.link.write_cases (dialogue.client.codec.encode (.response id outcome))
      with ⟨-, _, refused⟩ | accepted | ⟨full, -⟩
    · rw [refused] at router
      cases router
    · rw [accepted] at router
      cases router
    · rw [Sink.size, quiet.sink.1] at full
      exact absurd room (Nat.not_lt.mpr full)
  | handling | finished =>
    rw [serving] at router
    exact router.elim

/-- Where a request is on its way, something can move. -/
theorem Quiet.not_underway (quiet : dialogue.Quiet)
    (room : 0 < dialogue.client.link.sink.capacity) (id : Id) :
    ¬ Underway dialogue.serving dialogue.client id := by
  obtain ⟨pulling, queue, -⟩ := quiet.queue room
  rw [pulling]
  intro underway
  cases underway with
  | queued waits reads => simp [queue] at waits
  | handled here => cases here
  | answered here => cases here
  | buffered waits reads => simp [quiet.sink.1] at waits

private theorem Quiet.not_pending {id : Id} (quiet : dialogue.Quiet)
    (room : 0 < dialogue.client.link.sink.capacity) (phase : dialogue.client.phase ≠ .closed)
    (carried : Carried followed dialogue.serving dialogue.client) (follow : followed id) :
    id ∉ dialogue.client.pending.ids := by
  intro flies
  have serves : dialogue.serving ≠ .finished := by
    rw [(quiet.queue room).1]
    rintro ⟨⟩
  exact quiet.not_underway room id (carried ⟨phase, quiet.sink.2⟩ serves id flies follow)

/-- A quiet dialogue has answered every request that was issued and is not in flight. -/
theorem Quiet.answered {history : History} {id : Id} (quiet : dialogue.Quiet)
    (room : 0 < dialogue.client.link.sink.capacity) (phase : dialogue.client.phase ≠ .closed)
    (untimed : dialogue.client.timeout? = none)
    (audited : Client.Audited history dialogue.client)
    (landed : id ∉ dialogue.client.pending.ids) (issued : history.Issued id) :
    ∃ outcome, history.Answered id outcome := by
  obtain ⟨kept, accounted, -, excused⟩ := audited
  cases accounted.issued id issued with
  | pending flies => exact absurd flies landed
  | dropped gone =>
    exfalso
    rcases gone with closed | ⟨timeout, expired⟩ | ⟨call, withdrawn⟩
    · exact phase (accounted.closed closed)
    · exact excused _ expired untimed
    · rcases excused _ withdrawn with shut | sealed
      · rw [(quiet.queue room).2.2] at shut
        cases shut
      · exact phase (kept.closed.mpr sealed)
  | @delivered outcome handed => exact ⟨outcome, accounted.delivered id outcome handed⟩
  | answering mode => exact ⟨_, accounted.answering mode⟩

/-! ## Sessions -/

/-- In a run, every request under the identifier can be read from its unit, and so can every reply
to it. -/
structure Legible (dialogue : Dialogue) (acts : List Act) (id : Id) : Prop where
  request : ∀ call, .issued id call ∈ (dialogue.trail acts).history →
    dialogue.client.codec.ReadsRequest id (call.toRequest id)
  reply : ∀ outcome, (id, outcome) ∈ (dialogue.run acts).replies →
    dialogue.client.codec.ReadsReply id outcome

/-- Units within the limits of the codec can be read. -/
theorem Legible.of_fits {acts : List Act} {id : Id}
    (requests : ∀ call, .issued id call ∈ (dialogue.trail acts).history →
      dialogue.client.codec.Fits (call.toRequest id))
    (replies : ∀ outcome, (id, outcome) ∈ (dialogue.run acts).replies →
      dialogue.client.codec.Fits (.response id outcome)) : dialogue.Legible acts id where
  request call issued := ⟨call.method, (requests call issued).request⟩
  reply outcome written := (replies outcome written).response

/-- At every point of every act, and at the end, a request in flight that can be read, and whose
reply can be read, is on its way, as long as the client is not closed, the sink not aborted, and the
router serves. Without a timeout, no such request is in flight in a quiet dialogue, and each one
that was issued was answered. What becomes of other units makes no difference. -/
theorem run_lossless (config : Config) (acts : List Act) :
    let start := create config
    let reached := start.run acts
    let history := (start.trail acts).history
    let legible := start.Legible acts
    (∀ earlier next later, acts = earlier ++ next :: later →
      ∀ entry ∈ (start.run earlier).actTrail next,
        (start.run earlier).Passes legible next entry.2) ∧
    (reached.client.Live → reached.serving ≠ .finished → ∀ id ∈ reached.client.pending.ids,
      legible id → Underway reached.serving reached.client id) ∧
    (config.timeout? = none → reached.client.phase ≠ .closed → reached.Quiet → ∀ id, legible id →
      id ∉ reached.client.pending.ids ∧
        (history.Issued id → ∃ outcome, history.Answered id outcome)) := by
  intro start reached history legible
  have carried : Carried legible start.serving start.client := by
    intro _ _ id flies
    cases flies
  have requests : (start.trail acts).Legible config.codec legible := by
    intro entry member id call issued follow
    refine follow.request call (Client.Trail.mem_history.mpr ?_)
    rw [← issued]
    exact List.mem_map_of_mem member
  obtain ⟨points, final⟩ := carried_run rfl acts carried requests
    fun reply member follow => follow.reply reply.2 member
  refine ⟨points, final, ?_⟩
  intro untimed phase quiet id follow
  have keeps : Client.Keeps start.client reached.client := start.keeps_run acts
  have room : 0 < reached.client.link.sink.capacity := by
    rw [keeps.capacity]
    exact Nat.lt_of_lt_of_le Nat.zero_lt_one (Nat.le_max_right _ _)
  have landed := quiet.not_pending room phase final follow
  exact ⟨landed, quiet.answered room phase (keeps.timeout.trans untimed)
    (run_audited config acts) landed⟩

/-! ## Requests that are lost -/

/-- A router skips a unit that it cannot read. -/
theorem act_pull_unread {unit : Bytes} {rest : List Bytes} {error : DecodeError}
    (pulling : dialogue.serving = .pulling)
    (first : dialogue.client.link.queue.units = unit :: rest)
    (unread : dialogue.client.codec.decode unit = .error error) :
    dialogue.act .pull =
      { dialogue with world := dialogue.world.act (.link .pull), serving := .pulling } := by
  have pulled : dialogue.client.link.pull.1 = .ready (some unit) := by
    simp only [Link.pull, Queue.pull, first]
  rw [act_pull pulling, pulled]
  simp only [Serving.afterPull, unread]

/-- Arrays inside of each other. -/
def boxes : Nat → Value
  | 0 => .array []
  | count + 1 => .array [boxes count]

private theorem boxes_spec (count : Nat) :
    (boxes count).WellFormed ∧ (boxes count).doubles = [] ∧ (boxes count).nesting = count + 1 := by
  induction count with
  | zero => exact ⟨trivial, rfl, rfl⟩
  | succ count ih =>
    obtain ⟨wellFormed, doubles, nesting⟩ := ih
    refine ⟨⟨wellFormed, trivial⟩, ?_, ?_⟩
    · simp [boxes, Value.doubles, Value.doublesOfItems, doubles]
    · simp [boxes, Value.nesting, Value.nestingOfItems, nesting]

/-- The default codec cannot read a request with so many arrays inside of each other. -/
theorem boxes_unread :
    let request : Message := .request (.nth 1) "echo" (boxes 126)
    ∃ error, Codec.default.decode (Codec.default.encode request) = .error error := by
  intro request
  obtain ⟨wellFormed, -, -⟩ := boxes_spec 126
  have requestWellFormed : request.WellFormed := wellFormed
  have back : request.toValue.doubles = [] := by decide +kernel
  obtain ⟨reason, stopped⟩ := @Codec.readPayload_writePayload_tooDeep .json _
    (Message.toValue_wellFormed requestWellFormed) (by simp [back]) (by decide +kernel)
    (by decide +kernel)
  have unread : Codec.default.decode (Codec.default.encode request) = .error (.payload reason) := by
    rw [Codec.decode_encode_short (by decide +kernel)]
    exact congrArg (·.bind Codec.readMessage) stopped
  exact ⟨_, unread⟩

/-- Two requests at once, of which only the second one can be read. -/
def asking : Program :=
  .request ⟨"echo", boxes 126⟩ fun _ => .request ⟨"greet", .array [.string "hello"]⟩ fun _ => .skip

/-- Both requests were sent, and the router skipped the first one. -/
def skipped : Dialogue where
  world := ((create Config.default).act (.near (.call asking))).world.act (.link .pull)

def answering : List Act :=
  [.pull, .answer (.ok (.string "hi")), .write, .near .start, .near .intake]

private theorem skips :
    ((create Config.default).act (.near (.call asking))).act .pull = skipped := by
  obtain ⟨error, unread⟩ := boxes_unread
  exact act_pull_unread rfl rfl unread

private theorem occurrences_asking :
    ((create Config.default).trail (.near (.call asking) :: .pull :: answering)).map (·.1) =
      [.issued (.nth 1) ⟨"echo", boxes 126⟩, .held (.nth 1),
        .issued (.nth 2) ⟨"greet", .array [.string "hello"]⟩, .held (.nth 2),
        .quiet, .quiet, .quiet, .quiet, .quiet, .arrived (.nth 2) (.ok (.string "hi")) true,
        .delivered (.nth 2) (.ok (.string "hi"))] := by
  rw [trail, trail, skips]
  rfl

/-- A request is answered behind another one, which only the router cannot read. -/
theorem run_lossless_greeting :
    let acts : List Act := .near (.call asking) :: .pull :: answering
    let reached := (create Config.default).run acts
    let history := ((create Config.default).trail acts).history
    ((create Config.default).Legible acts (.nth 2) ∧ reached.Quiet) ∧
      reached.client.pending.ids = [.nth 1] ∧ history.Issued (.nth 2) ∧
      ∃ outcome, history.Answered (.nth 2) outcome := by
  intro acts reached history
  have reaches : reached = skipped.run answering := by
    simp only [reached, acts, run, List.foldl_cons, skips]
  have written : reached.replies = [(.nth 2, .ok (.string "hi"))] := by
    rw [reaches]
    rfl
  have quiet : reached.Quiet := by
    rw [reaches]
    exact ⟨by rw [Waits]; rfl, rfl⟩
  have lost : reached.client.pending.ids = [.nth 1] := by
    rw [reaches]
    rfl
  have stays : reached.client.phase ≠ .closed := by
    rw [reaches]
    rintro ⟨⟩
  have issued : history.Issued (.nth 2) := by
    refine ⟨⟨"greet", .array [.string "hello"]⟩, Client.Trail.mem_history.mpr ?_⟩
    rw [occurrences_asking]
    exact .tail _ (.tail _ (.head _))
  have legible : (create Config.default).Legible acts (.nth 2) := by
    refine .of_fits ?requests ?replies
    case requests =>
      intro call issued
      rw [Client.Trail.mem_history, occurrences_asking] at issued
      obtain rfl : call = ⟨"greet", .array [.string "hello"]⟩ := by
        have apart : Id.nth 2 ≠ .nth 1 := by decide
        simpa [apart] using issued
      exact ⟨⟨trivial, trivial⟩, by decide, by decide⟩
    case replies =>
      intro outcome replied
      rw [written] at replied
      obtain rfl : outcome = .ok (.string "hi") := by simpa using replied
      exact ⟨trivial, by decide, by decide⟩
  obtain ⟨-, -, settled⟩ := run_lossless Config.default acts
  exact ⟨⟨legible, quiet⟩, lost, issued,
    (settled rfl stays quiet (.nth 2) legible).2 issued⟩

/-- Params can be read as such that cannot be read as part of a request. The request is accepted,
the router skips it, and it stays unanswered in a quiet dialogue. -/
theorem request_lost :
    let acts : List Act :=
      [.near .start, .near (.call (.request ⟨"echo", boxes 126⟩ fun _ => .skip)), .pull]
    let reached := (create Config.default).run acts
    Json.parse (Json.encode (boxes 126)) = .ok (boxes 126) ∧
    Config.default.timeout? = none ∧ reached.client.Live ∧
    reached.client.link.sink.closed = false ∧ reached.serving ≠ .finished ∧ reached.Quiet ∧
    reached.client.pending.ids = [.nth 1] ∧
    ¬ Underway reached.serving reached.client (.nth 1) := by
  intro acts reached
  obtain ⟨wellFormed, doubles, nesting⟩ := boxes_spec 126
  have params : Json.parse (Json.encode (boxes 126)) = .ok (boxes 126) := by
    rw [Json.parse, Json.decode_encode wellFormed (by simp [doubles]) (by rw [nesting]; decide)]
    rfl
  let sent := (create Config.default).run
    [.near .start, .near (.call (.request ⟨"echo", boxes 126⟩ fun _ => .skip))]
  obtain ⟨error, unread⟩ := boxes_unread
  have skips : reached = { sent with world := sent.world.act (.link .pull), serving := .pulling } :=
    @act_pull_unread sent _ _ _ rfl rfl unread
  have quiet : reached.Quiet := by
    rw [skips]
    exact ⟨by rw [Waits]; rfl, rfl⟩
  have room : 0 < reached.client.link.sink.capacity := Nat.zero_lt_succ 15
  have live : reached.client.Live := ⟨by rintro ⟨⟩, rfl⟩
  have serves : reached.serving ≠ .finished := by
    rw [(quiet.queue room).1]
    rintro ⟨⟩
  exact ⟨params, rfl, live, rfl, serves, quiet, rfl, quiet.not_underway room _⟩

end Airlock.Dialogue
