import Airlock.Proofs.Client.Dealings
import Airlock.Proofs.Client.Ending

/-!
# The orderly end of a client

A call for the orderly end returns when the peer cannot be asked, or else when the handle of its
request is polled and ready. Either way it leaves the client closed. What the queue took until then
is all that it ever takes, but for one last unit: the exit, when the peer agreed.
-/

set_option autoImplicit false

namespace Airlock.Client

variable {client after : Client} {history : History}

/-! ## Behind the close -/

/-- A closed client that acts on no response which was waited for, with the outcomes it has. -/
structure Spent (delivered : List (Id × Outcome)) (history : History) (client : Client) :
    Prop where
  closed : client.phase = .closed
  empty : client.pending.ids = []
  same : client.delivered = delivered
  rests : ∀ id outcome settled, history.frame.mode ≠ .answering id outcome true settled

private theorem not_contains_of_empty (empty : client.pending.ids = []) (id : Id) :
    client.pending.contains id = false := by
  simp [InFlight.contains, empty]

/-- Where nothing is in flight, a request without an outcome comes to nothing. -/
theorem result_of_empty (empty : client.pending.ids = []) (id : Id) :
    client.result? id = some ((client.delivered.lookup id).elim (.error .closed) result) := by
  rw [result?, not_contains_of_empty empty]
  rcases client.delivered.lookup id with _ | _ | _ <;> rfl

private theorem spent_step {delivered : List (Id × Outcome)} {chunk : Trail}
    (spent : Spent delivered history client) (step : Step history client chunk after) :
    Spent delivered (history.extend chunk) after := by
  have closed := spent.closed
  cases step with
  | withdrawn live | issued live | notified live | closed live | announced _ live =>
    exact absurd closed live
  | attemptWithdrawn idle | attemptIssued idle => cases idle.symm.trans closed
  | queued early => rcases early with early | early <;> cases early.symm.trans closed
  | started late => cases late.symm.trans closed
  | opened _ _ _ open? => cases open?.symm.trans closed
  | delivered waited => exact absurd waited (spent.rests _ _ _)
  | arrived rest =>
    refine ⟨closed, ?_, spent.same, fun id outcome settled mode => ?_⟩
    · rw [leaving, InFlight.remove, spent.empty]
      rfl
    · have waited := (Mode.answering.inj mode).2.2.1
      cases (not_contains_of_empty spent.empty _).symm.trans waited
  | settled last outstanding past =>
    subst past
    refine ⟨closed, spent.empty, spent.same, fun id outcome settled mode => ?_⟩
    rw [History.extend_cons, History.extend_nil, History.frame_cons, Frame.next] at mode
    cases before : history.frame.mode with
    | resting => simp [before, Mode.settle] at mode
    | answering =>
      simp only [before, Mode.settle, Mode.answering.injEq] at mode
      obtain ⟨rfl, rfl, rfl, -⟩ := mode
      exact spent.rests _ _ _ before
  | @abandoned id =>
    have steady := steady_abandonHandshake client id
    exact ⟨phase_abandonHandshake closed, steady.pending.trans spent.empty,
      steady.delivered.trans spent.same, spent.rests⟩
  | expired rest waits open? => cases (result_of_empty spent.empty _).symm.trans open?
  | gathered draining free some taken =>
    subst taken
    exact ⟨closed, spent.empty, spent.same, spent.rests⟩
  | orphaned stray free idle past done noted =>
    subst noted
    refine ⟨closed, spent.empty, spent.same, fun id outcome settled mode => ?_⟩
    cases mode
  | quiet alike =>
    rw [alike.same]
    exact ⟨closed, spent.empty, spent.same, spent.rests⟩
  | _ => exact ⟨spent.closed, spent.empty, spent.same, spent.rests⟩

private theorem spent_path {delivered : List (Id × Outcome)} {trail : Trail}
    (spent : Spent delivered history client) (path : Path history client trail after) :
    Spent delivered (history.extend trail) after := by
  induction path with
  | done => exact spent
  | step step _ ih =>
    rw [History.extend_append]
    exact ih (spent_step spent step)

namespace World

/-- What requests came to stays as it is once the client is closed. -/
theorem delivered_of_closed (config : Config) {past : List Act}
    (closed : ((create config).run past).client.phase = .closed) (later : List Act) :
    (((create config).run past).run later).client.delivered =
      ((create config).run past).client.delivered := by
  have empty := ((run_audited config past).kept.torn closed).pending
  obtain ⟨-, follows⟩ := path_trail (follows_create config) past
  obtain ⟨path, -⟩ := path_trail follows later
  have rests (id : Id) (outcome : Outcome) (settled : Bool) :
      (History.extend [] ((create config).trail past)).frame.mode ≠
        .answering id outcome true settled := by
    rw [follows.calm.mode]
    nofun
  exact (spent_path ⟨closed, empty, rfl, rests⟩ path).same

/-! ## What the queue takes -/

/-- Every unit that the queue took: those that the far end took out of it, and behind them those
that are in it still. -/
def accepted (world : World) (acts : List Act) : List Bytes :=
  world.pulled acts ++ (world.run acts).client.link.queue.units

private theorem pulled_append (world : World) (first second : List Act) :
    world.pulled (first ++ second) = world.pulled first ++ (world.run first).pulled second := by
  induction first generalizing world with
  | nil => rfl
  | cons next rest ih =>
    rw [List.cons_append, pulled, ih, pulled, List.append_assoc]
    rfl

private theorem accepted_append (world : World) (first second : List Act) :
    world.accepted (first ++ second) = world.pulled first ++ (world.run first).accepted second := by
  rw [accepted, pulled_append, run_append, List.append_assoc, accepted]

/-- The queue takes what the messages of the dealings encode to, in their order. -/
theorem accepted_further (config : Config) (past acts : List Act) :
    (create config).accepted (past ++ acts) = (create config).accepted past ++
      ((((create config).run past).dealings acts).filterMap
        (Dealing.message? config.sendsInitialized)).map config.codec.encode := by
  have earlier := effect_further config [] past
  have effect := effect_further config past acts
  have codec : ((create config).run past).client.codec = config.codec := earlier.codec
  have announces : ((create config).run past).client.sendsInitialized = config.sendsInitialized :=
    earlier.announces
  rw [accepted_append, accepted, effect.queue, codec, announces, accepted, List.append_assoc]

private theorem accepted_of_closed {world : World} (closed : world.client.link.queue.closed = true)
    (acts : List Act) : world.accepted acts = world.client.link.queue.units := by
  induction acts generalizing world with
  | nil => rfl
  | cons next rest ih =>
    have shut := (world.keeps_act next).1.shut closed
    have here : world.actPulled next ++ (world.act next).client.link.queue.units =
        world.client.link.queue.units := by
      cases next with
      | link move => simpa using (world.effect_link move).queue
      | _ => exact units_act closed nofun
    calc world.accepted (next :: rest)
        = world.actPulled next ++ (world.act next).accepted rest := List.append_assoc ..
      _ = world.client.link.queue.units := by rw [ih shut, here]

/-- A queue that is closed takes nothing any more. -/
theorem accepted_behind (config : Config) {past : List Act}
    (closed : ((create config).run past).client.link.queue.closed = true) (later : List Act) :
    (create config).accepted (past ++ later) = (create config).accepted past := by
  rw [accepted_append, accepted_of_closed closed, accepted]

/-! ## Returning -/

/-- A call for the orderly end returns with this act. The client is the one that it still has to
close, and before that tells the peer if the result is a success. -/
inductive Returns (world : World) : Act → Client → Except Error Unit → Prop where
  | refused {error : Error} {parting : Client}
      (refused : world.client.request .shutdown = (.error error, parting)) :
      Returns world .shutdown parting (.error error)
  | answered {id : Id} {now : Duration} {waiter : Waiter} {reply : Except Error Value}
      {later : Awaited} {parting : Client} (waits : world.waiter? id = some waiter)
      (ends : waiter.ends = true)
      (polled : world.client.pollAwaited now waiter.awaited = (.ready reply, later, parting)) :
      Returns world (.poll id now) parting (parting.finishShutdown reply).1

/-- A call for the orderly end awaits the handle of its request. -/
def AwaitsEnd (world : World) (id : Id) : Prop :=
  ∃ waiter ∈ world.waiters, waiter.ends = true ∧ waiter.awaited.id = id

end World

/-- A request that is refused uses up a number, and takes itself back if it was entered. -/
theorem refused_eq {call : Call} {error : Error} (plain : call.method ≠ Methods.handshake)
    (refused : client.request call = (.error error, after)) :
    after = client.numbered ∨ after = client.numbered.leaving (.number client.nextId) := by
  unfold request at refused
  rcases begun : client.begin call with ⟨reply, next⟩
  rw [begun] at refused
  cases reply with
  | error other =>
    cases refused
    exact .inl (begin_refused begun).1
  | ok id =>
    obtain ⟨rfl, -, ⟨-, rfl⟩ | ⟨handshake, -⟩⟩ := begin_ok begun
    · obtain sent | ⟨other, undone⟩ := submit_cases client.numbered (.number client.nextId) call
      · cases sent.symm.trans refused
      · cases undone.symm.trans refused
        exact .inr (if_neg plain)
    · exact absurd handshake plain

private theorem delivered_close (client : Client) : client.close.delivered = client.delivered := by
  unfold close
  split <;> rfl

private theorem delivered_notifyIfOpen (client : Client) (call : Call) :
    (client.notifyIfOpen call).delivered = client.delivered := by
  unfold notifyIfOpen
  cases told : client.notify call with
  | ok sent => rw [(notify_ok told).2, enqueued]
  | error => rfl

/-- The last message of a client that ends orderly: the exit, after a success, if it can be sent. -/
def farewell? (parting : Client) : Except Error Unit → Option Message
  | .ok () => (parting.notify .exit).toOption.map fun _ => Call.exit.toNotification
  | .error _ => none

private theorem farewell?_open (live : client.phase ≠ .closed)
    (open? : client.link.queue.closed = false) :
    client.farewell? (.ok ()) = some Call.exit.toNotification := by
  rw [farewell?, notify, if_neg live, send_eq, open?]
  rfl

private theorem farewell?_silent {reply : Except Error Unit}
    (silent : reply ≠ .ok () ∨ client.link.queue.closed = true) :
    client.farewell? reply = none := by
  cases reply with
  | error => rfl
  | ok =>
    obtain failed | closed := silent
    · exact absurd rfl failed
    · rw [farewell?]
      cases told : client.notify .exit with
      | error => rfl
      | ok => cases closed.symm.trans (open_of_notify told)

private theorem untimed_close (client : Client) (id : Id) (timeout : Duration) :
    .expired id timeout ∉ client.closeTrail.map (·.1) := by
  unfold closeTrail
  split <;> simp

private theorem untimed_notify (client : Client) (call : Call) (id : Id) (timeout : Duration) :
    .expired id timeout ∉ (client.notifyTrail call).map (·.1) := by
  unfold notifyTrail
  split <;> simp

private theorem untimed_request (client : Client) (call : Call) (id : Id) (timeout : Duration) :
    .expired id timeout ∉ (client.requestTrail call).map (·.1) := by
  unfold requestTrail submitted
  dsimp only
  split
  · simp
  · split <;> split <;> simp

namespace World

variable {world : World} {act : Act} {parting : Client} {reply : Except Error Unit}

private theorem Returns.act_eq (returns : world.Returns act parting reply) :
    (world.act act).client =
      (match reply with
        | .ok () => parting.notifyIfOpen .exit
        | .error _ => parting).close := by
  cases returns with
  | refused refused => simp only [World.act, manage, beginShutdown, refused]
  | @answered id now waiter answer later parting waits ends polled =>
    simp only [World.act, manage, waits, pollWaiter, polled, ends, if_true, dismiss]
    cases answer <;> rfl

/-- What is in flight when the call returns was so before, and its time does not run out now. -/
theorem Returns.pending (returns : world.Returns act parting reply) {id : Id}
    (flies : id ∈ parting.pending.ids) :
    id ∈ world.client.pending.ids ∧
      ∀ timeout, .expired id timeout ∉ (world.actTrail act).map (·.1) := by
  cases returns with
  | refused refused =>
    constructor
    · obtain rfl | rfl := refused_eq (by decide) refused
      · exact flies
      · exact (mem_leaving.mp flies).1
    · intro timeout
      simp only [actTrail, manageTrail, refused, List.map_append, List.mem_append, not_or]
      exact ⟨untimed_request _ _ id timeout, untimed_close _ id timeout⟩
  | @answered _ now waiter answer later parting waits ends polled =>
    have finish (timeout : Duration) :
        .expired id timeout ∉ (parting.finishTrail answer).map (·.1) := by
      cases answer with
      | error => exact untimed_close _ id timeout
      | ok =>
        rw [finishTrail, List.map_append, List.mem_append, not_or]
        exact ⟨untimed_notify _ _ id timeout, untimed_close _ id timeout⟩
    simp only [actTrail, manageTrail, waits, waiterTrail, pollTrail, polled, ends, if_true,
      List.map_append, List.mem_append, not_or]
    obtain ⟨decided, rfl⟩ | ⟨timeout, undecided, limited, -, rfl⟩ := pollAwaited_ready polled
    · rw [decided]
      exact ⟨flies, fun timeout => ⟨⟨List.not_mem_nil, by simp⟩, finish timeout⟩⟩
    · have steady := steady_abandonHandshake (world.client.leaving waiter.awaited.id)
        waiter.awaited.id
      obtain ⟨before, other⟩ := mem_leaving.mp (steady.pending ▸ flies)
      rw [undecided, limited]
      refine ⟨before, fun timeout => ⟨⟨?_, by simp⟩, finish timeout⟩⟩
      simp [other]

private theorem Returns.closed (returns : world.Returns act parting reply) :
    (world.act act).client.phase = .closed := by
  rw [returns.act_eq, phase_close]

private theorem Returns.delivered (returns : world.Returns act parting reply) :
    (world.act act).client.delivered = parting.delivered := by
  rw [returns.act_eq, delivered_close]
  rcases reply with _ | ⟨⟨⟩⟩
  · rfl
  · exact delivered_notifyIfOpen parting .exit

/-- Only an answer that was there already lets the call return a success. -/
theorem Returns.of_ok (returns : world.Returns act parting (.ok ())) : parting = world.client := by
  generalize same : Except.ok () = reply at returns
  cases returns with
  | refused => cases same
  | answered waits ends polled =>
    obtain ⟨-, rfl⟩ | ⟨timeout, -, -, rfl, -⟩ := pollAwaited_ready polled
    · rfl
    · cases same

private theorem Returns.awaits {id : Id} {now : Duration}
    (returns : world.Returns (.poll id now) parting reply) : world.AwaitsEnd id := by
  cases returns with
  | @answered _ _ waiter _ _ _ waits ends =>
    unfold waiter? at waits
    have named := List.find?_some waits
    exact ⟨waiter, List.mem_of_find?_eq_some waits, ends, of_decide_eq_true named⟩

/-- The exit is all that the call says when it returns, if anything. -/
theorem Returns.said (returns : world.Returns act parting reply) (announces : Bool) :
    (world.dealings [act]).filterMap (Dealing.message? announces) =
      (parting.farewell? reply).toList := by
  cases returns with
  | refused refused =>
    simp only [dealings, actDealings, refused]
    rfl
  | @answered _ now waiter answer later parting waits ends polled =>
    simp only [dealings, actDealings, waits, waiterDealings, polled, ends, if_true,
      List.append_nil]
    cases answer with
    | error => rfl
    | ok =>
      simp only [finishDealings, finishShutdown, farewell?]
      cases parting.notify .exit <;> rfl

/-! ## The request behind a handle -/

/-- A handle of an orderly end is awaited since the peer was asked. -/
theorem asked_act {id : Id} (awaits : (world.act act).AwaitsEnd id) :
    world.AwaitsEnd id ∨ act = .shutdown ∧ (world.client.request .shutdown).1 = .ok id := by
  obtain ⟨waiter, member, ends, rfl⟩ := awaits
  have before (member : waiter ∈ world.waiters) : world.AwaitsEnd waiter.awaited.id :=
    ⟨waiter, member, ends, rfl⟩
  cases act with
  | call | cancel | link => exact .inl (before member)
  | forget id => exact .inl (before (List.mem_filter.mp member).1)
  | start =>
    simp only [World.act, manage] at member
    split at member <;> exact .inl (before member)
  | intake =>
    simp only [World.act] at member
    split at member
    · split at member <;> exact .inl (before member)
    · exact .inl (before member)
  | await id =>
    simp only [World.act, manage] at member
    split at member
    · obtain earlier | fresh := List.mem_append.mp member
      · exact .inl (before earlier)
      · obtain rfl := List.mem_singleton.mp fresh
        cases ends
    · exact .inl (before member)
  | shutdown =>
    simp only [World.act, manage, beginShutdown] at member
    rcases asked : world.client.request .shutdown with ⟨reply, after⟩
    rw [asked] at member
    cases reply with
    | error => exact .inl (before member)
    | ok id =>
      obtain earlier | fresh := List.mem_append.mp member
      · exact .inl (before earlier)
      · obtain rfl := List.mem_singleton.mp fresh
        exact .inr ⟨rfl, rfl⟩
  | poll id now =>
    simp only [World.act, manage] at member
    cases waits : world.waiter? id with
    | none =>
      rw [waits] at member
      exact .inl (before member)
    | some polled =>
      rw [waits] at member
      simp only [pollWaiter] at member
      split at member
      · exact .inl (before (List.mem_filter.mp member).1)
      case h_2 later _ waiting =>
        obtain ⟨other, there, rfl⟩ := List.mem_map.mp member
        by_cases same : other.awaited.id = polled.awaited.id
        · rw [if_pos same] at ends ⊢
          exact .inl ⟨other, there, ends, same.trans (pollAwaited_waiting waiting).2.symm⟩
        · rw [if_neg same] at ends ⊢
          exact .inl ⟨other, there, ends, rfl⟩

private theorem asked_run {acts : List Act} {id : Id} (awaits : (world.run acts).AwaitsEnd id) :
    world.AwaitsEnd id ∨ ∃ past between, acts = past ++ .shutdown :: between ∧
      ((world.run past).client.request .shutdown).1 = .ok id := by
  induction acts generalizing world with
  | nil => exact .inl awaits
  | cons next rest ih =>
    obtain earlier | ⟨past, between, rfl, asked⟩ := ih awaits
    · obtain before | ⟨rfl, asked⟩ := asked_act earlier
      · exact .inl before
      · exact .inr ⟨[], rest, rfl, asked⟩
    · exact .inr ⟨next :: past, between, rfl, asked⟩

/-- A handle of an orderly end is that of a request that the queue took. -/
theorem accepted_asked (config : Config) {acts : List Act} {id : Id}
    (awaits : ((create config).run acts).AwaitsEnd id) :
    ∃ past between behind, acts = past ++ .shutdown :: between ∧
      (create config).accepted (past ++ [.shutdown]) = (create config).accepted past ++
        [config.codec.encode (Call.shutdown.toRequest id)] ∧
      (create config).accepted acts = (create config).accepted (past ++ [.shutdown]) ++ behind := by
  obtain ⟨_, none, -⟩ | ⟨past, between, rfl, asked⟩ := asked_run awaits
  · cases none
  · have first := accepted_further config past [.shutdown]
    have rest := accepted_further config (past ++ [.shutdown]) between
    simp only [dealings, actDealings, asked, List.append_nil] at first
    rw [List.append_assoc] at rest
    exact ⟨past, between, _, rfl, first, rest⟩

/-! ## Departing -/

/-- What a call for the orderly end leaves when it returns with an act, whatever comes later. -/
structure Departs (config : Config) (acts : List Act) (act : Act) (parting : Client)
    (reply : Except Error Unit) (later : List Act) : Prop where
  closed : ((create config).run (acts ++ act :: later)).client.phase = .closed
  /-- a request that is in flight then, with no outcome of an earlier one under its number, comes to
  nothing -/
  left : ∀ id ∈ parting.pending.ids, parting.delivered.lookup id = none →
    ((create config).run (acts ++ act :: later)).client.result? id = some (.error .closed)
  /-- while numbers differ, that is what its handle resolves with, and nothing else -/
  told : ((create config).trail (acts ++ act :: later)).history.calls < 0x8000000000000000 →
    ∀ id ∈ parting.pending.ids, ComesTo ((create config).trail (acts ++ act :: later)).history
      ((create config).run (acts ++ act :: later)).client id (.error .closed)
  /-- after a success over an open queue the exit is the last unit that the queue takes -/
  exit : reply = .ok () → parting.link.queue.closed = false →
    (create config).accepted (acts ++ act :: later) =
      (create config).accepted acts ++ [config.codec.encode Call.exit.toNotification]
  silent : reply ≠ .ok () ∨ parting.link.queue.closed = true →
    (create config).accepted (acts ++ act :: later) = (create config).accepted acts
  /-- a handle that is polled is that of the request by which the peer was asked, and the queue took
  that request before -/
  asked : ∀ id now, act = .poll id now → ∃ past between behind,
    acts = past ++ .shutdown :: between ∧
      (create config).accepted (past ++ [.shutdown]) = (create config).accepted past ++
        [config.codec.encode (Call.shutdown.toRequest id)] ∧
      (create config).accepted acts = (create config).accepted (past ++ [.shutdown]) ++ behind

private theorem Returns.dispatched (returns : world.Returns act parting reply) :
    world.dispatched [act] = [] := by
  cases returns <;> rfl

section Runs

variable {config : Config} {acts : List Act}

private theorem Returns.ended (returns : ((create config).run acts).Returns act parting reply) :
    ((create config).run (acts ++ [act])).client.phase = .closed := by
  rw [run_append]
  exact returns.closed

private theorem Returns.torn (returns : ((create config).run acts).Returns act parting reply) :
    ((create config).run (acts ++ [act])).client.Torn :=
  (run_audited config (acts ++ [act])).kept.torn returns.ended

/-- Nothing goes into the queue behind the act with which the call returns. -/
theorem Returns.accepted (returns : ((create config).run acts).Returns act parting reply)
    (later : List Act) :
    (create config).accepted (acts ++ act :: later) = (create config).accepted acts ++
      (parting.farewell? reply).toList.map config.codec.encode := by
  rw [List.append_cons, accepted_behind config returns.torn.queue, accepted_further, returns.said]

/-- What is in flight when the call returns comes to nothing. -/
theorem Returns.comesTo (returns : ((create config).run acts).Returns act parting reply)
    {later : List Act}
    (few : ((create config).trail (acts ++ act :: later)).history.calls < 0x8000000000000000)
    {id : Id} (flies : id ∈ parting.pending.ids) :
    ComesTo ((create config).trail (acts ++ act :: later)).history
      ((create config).run (acts ++ act :: later)).client id (.error .closed) := by
  have parts : acts ++ act :: later = (acts ++ [act]) ++ later := List.append_cons ..
  rw [parts] at few ⊢
  have near := Nat.lt_of_le_of_lt (calls_append config (acts ++ [act]) later) few
  have start := run_told (Nat.lt_of_le_of_lt (calls_append config acts [act]) near)
  have middle := run_told near
  obtain ⟨before, timely⟩ := returns.pending flies
  have untimed (timeout : Duration) :
      .expired id timeout ∉ (((create config).run acts).trail [act]).history := by
    rw [Trail.mem_history, trail, trail, List.append_nil]
    exact timely timeout
  have decided : ((create config).trail (acts ++ [act])).history.verdict id =
      .decided (.error .closed) := by
    have verdict := start.verdict_trail before untimed
    rw [returns.dispatched, ← history_append] at verdict
    obtain undecided | ⟨-, decided⟩ := verdict
    · have still := (middle.tracked.pending id).mpr undecided
      rw [returns.torn.pending] at still
      cases still
    · exact decided
  apply (run_told few).comesTo
  rw [history_append]
  exact verdict_extend_decided decided _

end Runs

/-- Whatever else happens to a client, a call for its orderly end says nothing while it waits, and
leaves the client closed when it returns. -/
theorem run_departs (config : Config) (acts : List Act) :
    (∀ id now waiter later after, ((create config).run acts).waiter? id = some waiter →
      ((create config).run acts).client.pollAwaited now waiter.awaited = (.waiting, later, after) →
        (create config).accepted (acts ++ [.poll id now]) = (create config).accepted acts) ∧
      ∀ act parting reply later, ((create config).run acts).Returns act parting reply →
        Departs config acts act parting reply later := by
  have audited := run_audited config acts
  constructor
  · intro id now waiter later after waits waiting
    rw [accepted_further]
    simp [dealings, actDealings, waits, waiterDealings, waiting]
  · intro act parting reply later returns
    have parts : acts ++ act :: later = (acts ++ [act]) ++ later := List.append_cons ..
    have closed : ((create config).run (acts ++ act :: later)).client.phase = .closed := by
      rw [parts, run_append]
      exact (keeps_run _ later).1.phase returns.ended
    constructor
    case closed => exact closed
    case left =>
      intro id flies fresh
      have empty := ((run_audited config _).kept.torn closed).pending
      have same : ((create config).run (acts ++ act :: later)).client.delivered =
          parting.delivered := by
        rw [parts, run_append, delivered_of_closed config returns.ended, run_append]
        exact returns.delivered
      rw [result_of_empty empty, same, fresh]
      rfl
    case told => exact fun few id flies => returns.comesTo few flies
    case exit =>
      rintro rfl open?
      have live : parting.phase ≠ .closed := by
        rw [returns.of_ok] at open? ⊢
        intro closed
        cases open?.symm.trans (audited.kept.torn closed).queue
      rw [returns.accepted, farewell?_open live open?]
      rfl
    case silent =>
      intro silent
      rw [returns.accepted, farewell?_silent silent]
      exact List.append_nil _
    case asked =>
      rintro id now rfl
      exact accepted_asked config returns.awaits

/-- The peer agrees while another request is in flight. -/
def agreed : List Act :=
  [.start, .shutdown, .call (.request ⟨"ping", .null⟩ fun _ => .skip),
    .link (.write (Config.default.codec.encode (.response (.nth 1) (.ok .null)))), .intake]

theorem run_departs_agreed :
    let parting := ((create Config.default).run agreed).client
    let act := Act.poll (.nth 1) ⟨0⟩
    let later := [.call (.notify ⟨"note", .null⟩ fun _ => .skip)]
    parting.pending.ids = [.nth 2] ∧ parting.link.queue.closed = false ∧
      Departs Config.default agreed act parting (.ok ()) later := by
  intro parting act later
  have waits : ((create Config.default).run agreed).waiter? (.nth 1) =
      some ⟨⟨.nth 1, none⟩, true⟩ := rfl
  have polled : parting.pollAwaited ⟨0⟩ ⟨.nth 1, none⟩ =
      (.ready (.ok .null), ⟨.nth 1, none⟩, parting) := rfl
  exact ⟨rfl, rfl, (run_departs Config.default agreed).2 act parting (.ok ()) later
    (.answered waits rfl polled)⟩

end World

end Airlock.Client
