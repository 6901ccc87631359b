import Airlock.Proofs.Client.Dispatch

/-!
# The end of the stream

The peer ends its stream by closing the sink or by aborting it. After a close the loop acts on the
units that still wait, in order, and ends well; after an abort it acts on none of them and fails
with the reason. Either way the client is closed, the requests that are still in flight come to
nothing, and the loop is never started again. In between anything else may go on, within handlers
and elsewhere.
-/

set_option autoImplicit false

namespace Airlock.Client

/-! ## Ends of a stream -/

/-- How the peer ends its stream. -/
inductive Ending where
  | close
  | abort (reason : String)

namespace Ending

def move : Ending → LinkMove
  | .close => .closeSink
  | .abort reason => .abort reason

def reason? : Ending → Option String
  | .close => none
  | .abort reason => some reason

/-- What the loop ends with. -/
def result : Ending → Except Error Unit
  | .close => .ok ()
  | .abort reason => .error (.aborted reason)

/-- The units that are still acted on, of those that wait. -/
def due (units : List Bytes) : Ending → List Bytes
  | .close => units
  | .abort _ => []

/-- A stream has ended, and nothing came on top of it. -/
structure Ended (ending : Ending) (sink : Sink) : Prop where
  closed : sink.closed = true
  reason : sink.abortReason? = ending.reason?

end Ending

variable {client last : Client} {trail : Trail} {ending : Ending}

/-! ## What is left of the sink -/

theorem Chain.ended (chain : Chain client trail last) (closed : client.link.sink.closed = true) :
    last.link.sink = client.link.sink := by
  induction chain with
  | nil => rfl
  | cons outgoing _ ih =>
    have same := outgoing.ended closed
    rw [ih (by rw [same]; exact closed), same]

theorem Takes.ended (takes : Takes client trail last) (closed : client.link.sink.closed = true) :
    last.link.sink = client.received.link.sink := by
  have still : client.received.link.sink.closed = true := (keeps_received client).ended closed
  cases takes with
  | plain other chain => exact chain.ended still
  | response taken reads chain => exact chain.ended still

namespace Ending.Ended

/-- While units are due, the loop acts on the first of them. -/
theorem next (ended : ending.Ended client.link.sink) {unit : Bytes} {rest : List Bytes}
    (due : ending.due client.link.sink.units = unit :: rest) :
    client.next? = some unit ∧
      client.received.link.sink = { client.link.sink with units := rest } := by
  cases ending with
  | abort reason => cases due
  | close =>
    have reason := ended.reason
    have units : client.link.sink.units = unit :: rest := due
    simp [next?, received, Link.receive, Sink.read, reason, units, reason?]

/-- Once no unit is due, the loop ends. -/
theorem finish (ended : ending.Ended client.link.sink)
    (none : ending.due client.link.sink.units = []) :
    client.next? = .none ∧ client.step = (.ended ending.result, client.received.close) ∧
      client.stepTrail = (.quiet, client.received) :: client.received.closeTrail ∧
      ending.due client.received.link.sink.units = [] := by
  have reason := ended.reason
  cases ending with
  | abort reason =>
    simp [next?, step, stepTrail, received, Link.receive, Sink.read, reason, result, reason?, due]
  | close =>
    have units : client.link.sink.units = [] := none
    simp [next?, step, stepTrail, received, Link.receive, Sink.read, reason, units, ended.closed,
      result, reason?, due]

end Ending.Ended

private theorem Ending.due_tail {units rest : List Bytes} {unit : Bytes}
    (due : ending.due units = unit :: rest) : ending.due rest = rest := by
  cases ending with
  | close => rfl
  | abort reason => cases due

theorem units_after {link : Link} (move : LinkMove) (closed : link.sink.closed = true) :
    (link.after move).sink.units = link.sink.units := by
  cases move with
  | write unit => simp [Link.after, Link.write, Sink.write, closed]
  | _ => rfl

namespace World

variable {world : World}

/-- What is due is acted on, or is due afterwards. -/
theorem due_act (ended : ending.Ended world.client.link.sink) (act : Act) :
    ending.due world.client.link.sink.units =
      world.taken act ++ ending.due (world.act act).client.link.sink.units := by
  cases act with
  | intake =>
    cases looping : world.looping with
    | false =>
      rw [(intake_idle looping).2, taken, if_neg (by simp [looping])]
      rfl
    | true =>
      have left := (takes_step world.client).ended ended.closed
      rw [(intake_looping looping).2, left, taken, if_pos looping]
      cases due : ending.due world.client.link.sink.units with
      | nil =>
        obtain ⟨next, -, -, none⟩ := ended.finish due
        rw [next, none]
        rfl
      | cons unit rest =>
        obtain ⟨next, sink⟩ := ended.next due
        rw [next, sink, Ending.due_tail due]
        rfl
  | link move => exact congrArg ending.due (units_after move ended.closed).symm
  | start => rcases world.start_cases with ⟨-, -, same⟩ | ⟨-, -, after⟩ <;> simp only [*] <;> rfl
  | call | cancel | await | shutdown | poll | forget =>
    exact congrArg ending.due (congrArg Sink.units ((world.chain_act rfl).ended ended.closed)).symm

/-- A stream that has ended in a way has ended in this way at every point before, since it did. -/
theorem due_run (ended : ending.Ended world.client.link.sink) {acts : List Act}
    (stands : (world.run acts).client.link.sink.abortReason? = ending.reason?) :
    ending.Ended (world.run acts).client.link.sink ∧
      ending.due world.client.link.sink.units =
        world.dispatched acts ++ ending.due (world.run acts).client.link.sink.units := by
  induction acts generalizing world with
  | nil => exact ⟨ended, rfl⟩
  | cons act rest ih =>
    have keeps := (world.keeps_act act).1
    have later := ((world.act act).keeps_run rest).1
    have reason : (world.act act).client.link.sink.abortReason? = ending.reason? := by
      cases here : (world.act act).client.link.sink.abortReason? with
      | some reason => exact (later.reason here).symm.trans stands
      | none =>
        cases due : ending.reason? with
        | none => rfl
        | some reason => exact here.symm.trans (keeps.reason (ended.reason.trans due))
    obtain ⟨final, split⟩ := ih ⟨keeps.ended ended.closed, reason⟩ stands
    refine ⟨final, ?_⟩
    rw [due_act ended act, split, dispatched, List.append_assoc]
    rfl

end World

/-! ## The loop at the end of the stream -/

private theorem drain_accepted {next : Client} (stepped : client.step = (.accepted, next)) :
    client.drain = next.drain := by
  rw [drain]
  split <;> rename_i taken <;> rw [stepped] at taken <;> cases taken
  rfl

private theorem drain_ended {next : Client} {result : Except Error Unit}
    (stepped : client.step = (.ended result, next)) : client.drain = (.ready result, next) := by
  rw [drain]
  split <;> rename_i taken <;> rw [stepped] at taken <;> cases taken
  rfl

namespace World

variable {world : World}

private theorem act_intake_accepted {next : Client} (looping : world.looping = true)
    (stepped : world.client.step = (.accepted, next)) :
    world.act .intake = { world with client := next } := by
  simp only [act, looping, if_true, stepped]

private theorem act_intake_ended {next : Client} {result : Except Error Unit}
    (looping : world.looping = true) (stepped : world.client.step = (.ended result, next)) :
    world.act .intake = { world with client := next, looping := false } := by
  simp only [act, looping, if_true, stepped]

/-- A poll of the loop does not wait any more: it acts on all that is due, and ends. -/
theorem drain_due (ended : ending.Ended world.client.link.sink) (looping : world.looping = true) :
    let last := world.run (List.replicate (ending.due world.client.link.sink.units).length .intake)
    world.client.drain = (.ready ending.result, (last.act .intake).client) ∧
      last.looping = true ∧ ending.Ended last.client.link.sink ∧
      ending.due last.client.link.sink.units = [] := by
  generalize units : ending.due world.client.link.sink.units = left
  induction left generalizing world with
  | nil =>
    obtain ⟨-, stepped, -⟩ := ended.finish units
    refine ⟨?_, looping, ended, units⟩
    rw [drain_ended stepped]
    exact congrArg _ (congrArg World.client (act_intake_ended looping stepped)).symm
  | cons unit rest ih =>
    obtain ⟨next, sink⟩ := ended.next units
    have stepped := step_next next
    have here := act_intake_accepted looping stepped
    have left : (world.act .intake).client.link.sink =
        { world.client.link.sink with units := rest } := by
      rw [(intake_looping looping).2, (takes_step world.client).ended ended.closed, sink]
    have further := @ih (world.act .intake) (by rw [left]; exact ⟨ended.closed, ended.reason⟩)
      (by rw [here]; exact looping) (by rw [left]; exact Ending.due_tail units)
    rw [drain_accepted stepped]
    have client : (world.act .intake).client = world.client.received.accept unit := by rw [here]
    rw [client] at further
    exact further

end World

/-! ## Started once -/

/-- The acts that start, advance or stop the loop. -/
def Act.loops : Act → Bool
  | .start | .intake | .cancel => true
  | _ => false

namespace World

variable {world : World}

theorem looping_act {act : Act} (aside : act.loops = false) :
    (world.act act).looping = world.looping := by
  cases act with
  | call | forget | link => rfl
  | await id => simp only [World.act, manage]; split <;> rfl
  | shutdown => simp only [World.act, manage]; split <;> rfl
  | poll id now =>
    simp only [World.act, manage]
    split
    · simp only [pollWaiter]
      split <;> rfl
    · rfl
  | start | intake | cancel => cases aside

/-- The loop goes on only where it was started. -/
theorem running_act (act : Act) (started : world.looping = true → world.client.running = true)
    (looping : (world.act act).looping = true) : (world.act act).client.running = true := by
  by_cases already : world.looping = true
  · exact (world.keeps_act act).1.running (started already)
  cases act with
  | start =>
    rcases world.start_cases with ⟨running, -, same⟩ | ⟨-, -, after⟩
    · rw [same]
      exact running
    · rw [after]
  | intake =>
    rw [(intake_idle (by simpa using already)).2] at looping
    exact absurd looping already
  | cancel => cases looping
  | call | await | shutdown | poll | forget | link =>
    exact absurd ((looping_act rfl).symm.trans looping) already

private theorem running_run (acts : List Act)
    (started : world.looping = true → world.client.running = true)
    (looping : (world.run acts).looping = true) : (world.run acts).client.running = true := by
  induction acts generalizing world with
  | nil => exact started looping
  | cons act rest ih => exact ih (running_act act started) looping

private theorem startDrain_running (running : client.running = true) :
    client.startDrain = .error .alreadyStarted :=
  if_pos running

/-- Where the loop was started, starting it again changes nothing. -/
theorem act_start_running (running : world.client.running = true) : world.act .start = world := by
  simp only [act, manage, startDrain_running running]

/-- A loop that has ended never acts on anything again. -/
theorem idle_run (running : world.client.running = true) (idle : world.looping = false)
    (acts : List Act) : (world.run acts).looping = false ∧ world.dispatched acts = [] := by
  induction acts generalizing world with
  | nil => exact ⟨idle, rfl⟩
  | cons act rest ih =>
    have still : (world.act act).looping = false ∧ world.taken act = [] := by
      cases act with
      | start => rw [act_start_running running]; exact ⟨idle, rfl⟩
      | intake => rw [(intake_idle idle).2]; exact ⟨idle, if_neg (by simp [idle])⟩
      | cancel => exact ⟨rfl, rfl⟩
      | call | await | shutdown | poll | forget | link => exact ⟨(looping_act rfl).trans idle, rfl⟩
    obtain ⟨later, none⟩ := ih ((world.keeps_act act).1.running running) still.1
    exact ⟨later, by rw [dispatched, still.2, none]; rfl⟩

/-- A world in which the loop is over for good. -/
structure Over (world : World) : Prop where
  idle : world.looping = false
  phase : world.client.phase = .closed
  pending : world.client.pending.ids = []
  queue : world.client.link.queue.closed = true
  sink : world.client.link.sink.closed = true
  /-- at any later point the loop cannot be started, and up to there nothing was acted on -/
  final : ∀ later, (world.run later).client.startDrain = .error .alreadyStarted ∧
    (world.run later).act .start = world.run later ∧ world.dispatched later = []

private theorem over_of_ended {history : History} (kept : Kept history world.client)
    (phase : world.client.phase = .closed) (running : world.client.running = true)
    (idle : world.looping = false) : world.Over where
  idle
  phase
  pending := (kept.torn phase).pending
  queue := (kept.torn phase).queue
  sink := (kept.torn phase).sink
  final later := by
    have still := (world.keeps_run later).1.running running
    exact ⟨startDrain_running still, act_start_running still, (idle_run running idle later).2⟩

end World

/-! ## What becomes of requests -/

/-- A request has come to a result, which is what its handle resolves or has resolved with. -/
structure ComesTo (history : History) (client : Client) (id : Id) (found : Except Error Value) :
    Prop where
  verdict : history.verdict id = .decided found
  ahead : id ∉ history.resolutions → client.result? id = some found
  resolved : ∀ other, .resolved id other ∈ history → other = found

namespace World

variable {world : World}

/-- What is known of a run in which no number was used twice. -/
structure Told (history : History) (client : Client) : Prop where
  tracked : Tracked history client
  resting : history.frame.mode = .resting
  resolved : ∀ id found, .resolved id found ∈ history → history.verdict id = .decided found

theorem run_told {config : Config} {acts : List Act}
    (few : ((create config).trail acts).history.calls < 0x8000000000000000) :
    Told ((create config).trail acts).history ((create config).run acts).client := by
  obtain ⟨path, follows⟩ := path_trail (follows_create config) acts
  obtain ⟨along, -, tracked⟩ :=
    tracked_path path few (kept_create config _) (tracked_create config _)
  exact ⟨tracked, follows.calm.mode, verdict_of_resolved along nofun⟩

theorem Told.comesTo {history : History} {id : Id} {found : Except Error Value}
    (told : Told history client) (decided : history.verdict id = .decided found) :
    ComesTo history client id found where
  verdict := decided
  ahead fresh := by
    have known : history.verdict id ≠ .unissued := by
      rw [decided]
      nofun
    rw [told.tracked.result told.resting known fresh, decided]
  resolved other member := by
    have same := (told.resolved id other member).symm.trans decided
    injection same

/-- Behind the moment at which a request was in flight, only three things decide it. -/
theorem Told.verdict_trail {history : History} {id : Id} (told : Told history world.client)
    (flies : id ∈ world.client.pending.ids) {acts : List Act}
    (timely : ∀ timeout, .expired id timeout ∉ (world.trail acts).history) :
    ((history.extend (world.trail acts)).verdict id =
      match world.client.codec.answer? (world.dispatched acts) id with
      | some outcome => .decided (Client.result outcome)
      | none => .undecided) ∨
    .closed ∈ (world.trail acts).history ∧
      (history.extend (world.trail acts)).verdict id = .decided (.error .closed) := by
  have undecided := (told.tracked.pending id).mp flies
  simp only [Trail.mem_history] at timely ⊢
  have verdict := verdict_extend undecided timely
  rw [arrivals_trail] at verdict
  exact verdict

/-- What becomes of the requests that are in flight when the peer ends its stream, after a history.
Acts follow, and then the last step of the loop. -/
structure Settles (ending : Ending) (earlier : History) (world : World) (acts : List Act) :
    Prop where
  /-- a response that is still due is what its request comes to, unless the client closes before -/
  answered : ∀ id ∈ world.client.pending.ids, ∀ outcome,
    world.client.codec.answer? (ending.due world.client.link.sink.units) id = some outcome →
    (∀ timeout, .expired id timeout ∉ (world.trail acts).history) →
    (world.run acts).client.phase ≠ .closed →
    ComesTo (earlier.extend (world.trail (acts ++ [.intake])))
      ((world.run acts).act .intake).client id (Client.result outcome)
  unanswered : ∀ id ∈ world.client.pending.ids,
    world.client.codec.answer? (ending.due world.client.link.sink.units) id = none →
    (∀ timeout, .expired id timeout ∉ (world.trail acts).history) →
    ComesTo (earlier.extend (world.trail (acts ++ [.intake])))
      ((world.run acts).act .intake).client id (.error .closed)
  /-- whatever is in flight up to the end, of whatever age, comes to nothing -/
  left : ∀ id ∈ (world.run acts).client.pending.ids,
    ComesTo (earlier.extend (world.trail (acts ++ [.intake])))
      ((world.run acts).act .intake).client id (.error .closed)

/-- What comes of it when the peer ends its stream. -/
structure Concludes (ending : Ending) (earlier : History) (world : World) (acts : List Act) :
    Prop where
  inOrder : world.dispatched acts = ending.due world.client.link.sink.units
  looping : (world.run acts).looping = true
  result : (world.run acts).client.step.1 = .ended ending.result
  complete : ((world.run acts).act .intake).Over
  settles : (earlier.extend (world.trail (acts ++ [.intake]))).calls < 0x8000000000000000 →
    Settles ending earlier world acts

/-- The last step of the loop, where nothing is due any more. -/
theorem act_last (ended : ending.Ended world.client.link.sink) (looping : world.looping = true)
    (none : ending.due world.client.link.sink.units = []) :
    world.client.step.1 = .ended ending.result ∧ (world.act .intake).looping = false ∧
      (world.act .intake).client.phase = .closed ∧ world.taken .intake = [] ∧
      ∀ id timeout, .expired id timeout ∉ (world.actTrail .intake).map (·.1) := by
  obtain ⟨next, stepped, trail, -⟩ := ended.finish none
  refine ⟨congrArg Prod.fst stepped, ?_, ?_, ?_, ?_⟩
  · rw [act_intake_ended looping stepped]
  · rw [act_intake_ended looping stepped]
    by_cases live : world.client.received.phase = .closed
    · simp only [close, if_pos live]
      exact live
    · exact (torn_close live).2.1
  · rw [taken, if_pos looping, next]
    rfl
  · intro id timeout
    rw [(intake_looping looping).1, trail, closeTrail]
    split <;> simp

private theorem trail_last (world : World) (acts : List Act) (act : Act) :
    world.trail (acts ++ [act]) = world.trail acts ++ (world.run acts).actTrail act := by
  rw [trail_append, trail, trail, List.append_nil]

private theorem settles_of_told {earlier : History} {acts : List Act}
    (start : Told earlier world.client)
    (near : Told (earlier.extend (world.trail acts)) (world.run acts).client)
    (final : Told (earlier.extend (world.trail (acts ++ [.intake])))
      ((world.run acts).act .intake).client)
    (accounted : Accounted (earlier.extend (world.trail acts)) (world.run acts).client)
    (inOrder : world.dispatched acts = ending.due world.client.link.sink.units)
    (ended : ending.Ended (world.run acts).client.link.sink)
    (looping : (world.run acts).looping = true)
    (none : ending.due (world.run acts).client.link.sink.units = [])
    (empty : ((world.run acts).act .intake).client.pending.ids = []) :
    Settles ending earlier world acts := by
  obtain ⟨-, -, -, taken, untimed⟩ := act_last ended looping none
  have whole := world.trail_last acts .intake
  have all : world.dispatched (acts ++ [.intake]) = ending.due world.client.link.sink.units := by
    rw [dispatched_append, inOrder, dispatched, dispatched, taken, List.append_nil, List.append_nil]
  have comesToNothing {id : Id}
      (open? : (earlier.extend (world.trail (acts ++ [.intake]))).verdict id = .undecided ∨
        (earlier.extend (world.trail (acts ++ [.intake]))).verdict id = .decided (.error .closed)) :
      ComesTo (earlier.extend (world.trail (acts ++ [.intake])))
        ((world.run acts).act .intake).client id (.error .closed) := by
    rcases open? with undecided | decided
    · have flies := (final.tracked.pending id).mpr undecided
      rw [empty] at flies
      cases flies
    · exact final.comesTo decided
  constructor
  case answered =>
    intro id flies outcome answer timely live
    rcases start.verdict_trail flies timely with decided | ⟨closed, -⟩
    · rw [inOrder, answer] at decided
      apply final.comesTo
      rw [whole, History.extend_append]
      exact verdict_extend_decided decided _
    · refine absurd (accounted.closed ?_) live
      exact List.mem_append_left _ (by simpa [Trail.history, History.extend] using closed)
  case unanswered =>
    intro id flies unanswered timely
    have timelyEnd (timeout : Duration) :
        .expired id timeout ∉ (world.trail (acts ++ [.intake])).history := by
      rw [Trail.mem_history, whole, List.map_append, List.mem_append, ← Trail.mem_history]
      exact fun expired => expired.elim (timely timeout) (untimed id timeout)
    apply comesToNothing
    have verdict := start.verdict_trail flies timelyEnd
    rw [all, unanswered] at verdict
    exact verdict.imp_right And.right
  case left =>
    intro id flies
    have timelyEnd (timeout : Duration) :
        .expired id timeout ∉ ((world.run acts).trail [.intake]).history := by
      rw [Trail.mem_history, trail, trail, List.append_nil]
      exact untimed id timeout
    apply comesToNothing
    have verdict := near.verdict_trail flies timelyEnd
    rw [trail, trail, List.append_nil, ← History.extend_append, ← whole, dispatched, dispatched,
      taken] at verdict
    exact verdict.imp_right And.right

theorem history_append (config : Config) (first second : List Act) :
    ((create config).trail (first ++ second)).history =
      ((create config).trail first).history.extend (((create config).run first).trail second) := by
  rw [trail_append, Trail.history, History.extend_append]
  rfl

theorem calls_append (config : Config) (first second : List Act) :
    ((create config).trail first).history.calls ≤
      ((create config).trail (first ++ second)).history.calls := by
  rw [history_append]
  exact calls_extend _ _

/-- The peer ends its stream at any point of any run, and nothing else ends it in another way. From
wherever the loop has got to afterwards, its next poll finds the end. -/
theorem run_concludes (config : Config) (before later : List Act) (ending : Ending)
    (whole : ((create config).run before).client.link.sink.abortReason? = none)
    (looping : (((create config).run before).run (.link ending.move :: later)).looping = true)
    (undisturbed : ending = .close →
      (((create config).run before).run
        (.link ending.move :: later)).client.link.sink.abortReason? = none) :
    let world := (create config).run before
    let reached := world.run (.link ending.move :: later)
    let acts := .link ending.move :: later ++
      List.replicate (ending.due reached.client.link.sink.units).length .intake
    reached.client.drain = (.ready ending.result, ((world.run acts).act .intake).client) ∧
      Concludes ending ((create config).trail before).history world acts := by
  intro world reached acts
  have ended : ending.Ended (world.act (.link ending.move)).client.link.sink := by
    cases ending with
    | close => exact ⟨rfl, whole⟩
    | abort reason => exact ⟨rfl, congrArg (·.or (some reason)) whole⟩
  have stands : reached.client.link.sink.abortReason? = ending.reason? := by
    cases ending with
    | close => exact undisturbed rfl
    | abort reason => exact (keeps_run _ later).1.reason ended.reason
  have same : ending.due (world.act (.link ending.move)).client.link.sink.units =
      ending.due world.client.link.sink.units := by
    cases ending <;> rfl
  obtain ⟨endedHere, split⟩ : ending.Ended reached.client.link.sink ∧
      ending.due (world.act (.link ending.move)).client.link.sink.units =
        world.dispatched (.link ending.move :: later) ++
          ending.due reached.client.link.sink.units := due_run ended stands
  obtain ⟨drained, loopingLast, endedLast, none⟩ := drain_due endedHere looping
  have last : world.run acts = reached.run
      (List.replicate (ending.due reached.client.link.sink.units).length .intake) :=
    run_append world _ _
  rw [← last] at drained loopingLast endedLast none
  have inOrder : world.dispatched acts = ending.due world.client.link.sink.units := by
    have rest := (due_run endedHere (last ▸ endedLast.reason)).2
    rw [← last, none, List.append_nil] at rest
    rw [← same, split, rest, dispatched_append]
  obtain ⟨result, idle, phase, -⟩ := act_last endedLast loopingLast none
  -- The points of this run are points of runs from the very beginning.
  have upTo (further : List Act) :
      (create config).run (before ++ further) = world.run further ∧
        ((create config).trail (before ++ further)).history =
          ((create config).trail before).history.extend (world.trail further) :=
    ⟨run_append _ _ _, history_append _ _ _⟩
  have final : (world.run acts).act .intake = world.run (acts ++ [.intake]) :=
    (run_append world acts [.intake]).symm
  have running : (world.run acts).client.running = true := by
    rw [← (upTo acts).1] at loopingLast ⊢
    exact running_run _ nofun loopingLast
  have complete : ((world.run acts).act .intake).Over := by
    have audited := run_audited config (before ++ (acts ++ [.intake]))
    rw [(upTo _).1, ← final] at audited
    exact over_of_ended audited.kept phase ((keeps_act _ .intake).1.running running) idle
  refine ⟨drained, inOrder, loopingLast, result, complete, ?_⟩
  intro few
  rw [← (upTo _).2] at few
  have told := run_told few
  rw [← List.append_assoc] at few
  have earlier := Nat.lt_of_le_of_lt (calls_append config (before ++ acts) [.intake]) few
  have start := Nat.lt_of_le_of_lt (calls_append config before acts) earlier
  have near := run_told earlier
  have accounted := (run_audited config (before ++ acts)).accounted
  rw [(upTo _).1, (upTo _).2] at near told accounted
  rw [← final] at told
  exact settles_of_told (run_told start) near told accounted inOrder endedLast loopingLast none
    complete.pending

/-- A request is in flight and a unit waits that is no message: the loop acts on the unit if the
peer closes its stream then, and on nothing if it aborts. -/
theorem run_concludes_unanswered :
    let before : List Act :=
      [.start, .call (.request ⟨"add", .null⟩ fun _ => .skip), .link (.write [0x7b])]
    let world := (create Config.default).run before
    let history := ((create Config.default).trail before).history
    world.client.pending.ids = [.nth 1] ∧
      Concludes .close history world [.link .closeSink, .intake] ∧
      Concludes (.abort "gone") history world [.link (.abort "gone")] := by
  intro before world history
  have whole : world.client.link.sink.abortReason? = none := rfl
  have closed := run_concludes Config.default before [] .close whole rfl fun _ => rfl
  have aborted := run_concludes Config.default before [] (.abort "gone") whole rfl nofun
  exact ⟨rfl, closed.2, aborted.2⟩

end World

end Airlock.Client
