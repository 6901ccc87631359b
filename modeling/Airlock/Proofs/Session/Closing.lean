import Airlock.Proofs.Session.Hosting

/-!
# Closing ends a session

Once the client is closed nothing waits any more on either end of its link, and nothing is put into
it. So every move of the handlers and every step of the loop uses up what is left: the handlers come
to their end after the units that are still queued, and the loop after the units that are still
buffered. A single poll of the run goes through to the end, and unless the sink was aborted the run
ends well.
-/

set_option autoImplicit false

namespace Airlock

/-! ## Closed links -/

private theorem Link.Closed.after {link : Link} (closed : link.Closed) (move : LinkMove) :
    (link.after move).Closed :=
  ⟨Client.queue_closed_after move closed.queue, Client.sink_closed_after move closed.sink⟩

private theorem Link.Closed.foldl_after {link : Link} (closed : link.Closed)
    (moves : List LinkMove) :
    (moves.foldl Link.after link).Closed := by
  induction moves generalizing link with
  | nil => exact closed
  | cons move rest ih => exact ih (closed.after move)

private theorem Link.units_pulled (link : Link) :
    link.queue.units = link.queue.units.head?.toList ++ (link.after .pull).queue.units := by
  change _ = _ ++ link.pull.2.queue.units
  rcases link.pull_cases with ⟨unit, rest, units, taken⟩ | ⟨none, -, ended⟩ | ⟨none, -, same⟩
  · rw [taken, units]
    rfl
  · rw [ended, none]
    rfl
  · rw [same, none]
    rfl

/-- What others do to a link puts nothing into its queue. -/
theorem Link.queue_after (link : Link) (move : LinkMove) :
    ∃ gone, link.queue.units = gone ++ (link.after move).queue.units := by
  cases move with
  | pull => exact ⟨_, link.units_pulled⟩
  | takeAll => exact ⟨link.queue.units, (List.append_nil _).symm⟩
  | write unit => exact ⟨[], congrArg Queue.units (@Link.queue_of_write link _ unit _ rfl).symm⟩
  | closeSink | abort | addPeer | dropPeer | addClient | dropClient => exact ⟨[], rfl⟩

theorem Peer.advance_closed {τ : Type} (peer : Peer τ) (codec : Codec) (state : τ) {link : Link}
    (closed : link.Closed) : peer.advance codec state link ≠ .waiting := by
  intro waits
  unfold Peer.advance at waits
  split at waits
  · rcases polled : link.pull with ⟨_ | _, rest⟩
    · rw [polled] at waits
      cases waits
    · exact absurd (congrArg Prod.fst polled) closed.pull_ready
  · rw [closed.write_refused] at waits
    cases waits
  · cases waits
  · cases waits
  · cases waits

/-- A peer that has nothing to wait for goes on to its end. -/
theorem Peer.run_closed {τ : Type} (peer : Peer τ) (codec : Codec) (state : τ) {link : Link}
    (closed : link.Closed) :
    ∃ result last after, peer.run codec state link = (.ready result, last, after) ∧
      after.Closed := by
  fun_induction Peer.run peer codec state link with
  | case1 state link next after advanced ih =>
    have moved := peer.link_advance codec state link
    rw [advanced] at moved
    obtain rfl : after = _ := moved
    exact ih (closed.foldl_after _)
  | case2 state link waits => exact absurd waits (peer.advance_closed codec state closed)
  | case3 state link result advanced => exact ⟨result, state, link, rfl, closed⟩

namespace Client

variable {client last : Client} {trail : Trail}

private theorem step_closed (closed : client.link.sink.closed = true) (next : Client) :
    client.step ≠ (.waiting, next) := by
  intro waits
  unfold step at waits
  rcases client.link.receive_cases with
    ⟨_, _, -, -, taken⟩ | ⟨_, -, dropped⟩ | ⟨-, -, ended⟩ | ⟨-, -, opened, -⟩
  · rw [taken] at waits
    cases waits
  · rw [dropped] at waits
    cases waits
  · rw [ended] at waits
    cases waits
  · cases closed.symm.trans opened

/-- A loop that has nothing to wait for goes on to its end. -/
theorem drain_closed (closed : client.link.sink.closed = true) :
    ∃ result after, client.drain = (.ready result, after) := by
  fun_induction Client.drain client with
  | case1 client next stepped ih =>
    apply ih
    have keeps := (takes_step client).keeps.1.ended closed
    rwa [stepped] at keeps
  | case2 client next stepped => exact absurd stepped (step_closed closed next)
  | case3 client result next stepped => exact ⟨result, next, rfl⟩

theorem Takes.reason (takes : Takes client trail last) :
    last.link.sink.abortReason? = client.link.sink.abortReason? := by
  have received : client.received.link.sink.abortReason? = client.link.sink.abortReason? := by
    unfold Client.received
    rcases client.link.receive_cases with
      ⟨_, _, -, -, taken⟩ | ⟨_, -, dropped⟩ | ⟨-, -, same⟩ | ⟨-, -, -, same⟩
    · rw [taken]
    · rw [dropped]
    · rw [same]
    · rw [same]
  cases takes with
  | plain other chain => exact chain.reason.trans received
  | response taken reads chain => exact chain.reason.trans received

namespace World

variable {world : World}

/-- Nobody puts anything into a queue that is closed. -/
theorem queue_act (closed : world.client.link.queue.closed = true) (act : Act) :
    ∃ gone, world.client.link.queue.units =
      gone ++ (world.act act).client.link.queue.units := by
  by_cases linked : ∃ move, act = .link move
  · obtain ⟨move, rfl⟩ := linked
    exact world.client.link.queue_after move
  · exact ⟨[], (units_act closed fun move same => linked ⟨move, same⟩).symm⟩

private theorem queue_run (closed : world.client.link.queue.closed = true) (acts : List Act) :
    ∃ gone, world.client.link.queue.units =
      gone ++ (world.run acts).client.link.queue.units := by
  induction acts generalizing world with
  | nil => exact ⟨[], rfl⟩
  | cons act rest ih =>
    obtain ⟨first, here⟩ := queue_act closed act
    obtain ⟨second, later⟩ := ih ((world.keeps_act act).1.shut closed)
    exact ⟨first ++ second, by rw [here, later, List.append_assoc]; rfl⟩

/-- Nobody puts anything into a sink that is closed, and what is acted on was the next in it. -/
theorem sink_act (closed : world.client.link.sink.closed = true) (act : Act) :
    world.taken act ++ (world.act act).client.link.sink.units <+:
      world.client.link.sink.units := by
  cases act with
  | link move =>
    change (world.client.link.after move).sink.units <+: world.client.link.sink.units
    exact ⟨[], (List.append_nil _).trans (units_after move closed)⟩
  | start => rcases world.start_cases with ⟨-, -, same⟩ | ⟨-, -, after⟩ <;> simp [taken, *]
  | intake =>
    cases looping : world.looping with
    | false =>
      rw [(intake_idle looping).2, taken, if_neg (by simp [looping])]
      exact List.prefix_refl _
    | true =>
      rw [(intake_looping looping).2, (takes_step world.client).ended closed, taken,
        if_pos looping, next?, Client.received]
      rcases world.client.link.receive_cases with
        ⟨unit, rest, -, units, taken⟩ | ⟨_, -, dropped⟩ | ⟨-, -, same⟩ | ⟨-, -, -, same⟩
      · rw [taken, units]
        exact List.prefix_refl _
      · rw [dropped]
        exact List.nil_prefix
      · rw [same]
        exact List.prefix_refl _
      · rw [same]
        exact List.prefix_refl _
  | call | cancel | await | shutdown | poll | forget =>
    rw [(world.chain_act rfl).ended closed]
    exact List.prefix_refl _

private theorem sink_run (closed : world.client.link.sink.closed = true) (acts : List Act) :
    world.dispatched acts ++ (world.run acts).client.link.sink.units <+:
      world.client.link.sink.units := by
  induction acts generalizing world with
  | nil => exact List.prefix_refl _
  | cons act rest ih =>
    have later := ih ((world.keeps_act act).1.ended closed)
    rw [dispatched, List.append_assoc]
    exact ((List.prefix_append_right_inj _).mpr later).trans (sink_act closed act)

end World

end Client

/-! ## Polls of a run -/

namespace Host

variable {τ : Type} {host : Host τ} {progress : Progress}

private theorem serve_closed (closed : host.client.link.Closed) (progress : Progress) :
    (host.serve progress).1.served?.isSome ∧ (host.serve progress).2.client.link.Closed := by
  unfold serve
  split
  · exact ⟨‹_›, closed⟩
  · obtain ⟨result, state, link, ran, still⟩ := host.peer.run_closed host.codec host.state closed
    rw [ran]
    have ended := still.foldl_after [.closeSink, .dropPeer]
    exact ⟨rfl, ended⟩

private theorem drain_closed (closed : host.client.link.sink.closed = true) (progress : Progress) :
    (host.drain progress).1.drained?.isSome ∧
      (host.drain progress).1.served? = progress.served? := by
  unfold drain
  split
  · exact ⟨‹_›, rfl⟩
  · obtain ⟨result, client, drained⟩ := Client.drain_closed closed
    rw [drained]
    exact ⟨rfl, rfl⟩

private theorem round_closed (closed : host.client.link.Closed) (progress : Progress) :
    ∃ served drained after, (host.round progress).2 = (⟨some served, some drained⟩, after) := by
  obtain ⟨served, still⟩ := serve_closed closed progress
  obtain ⟨drained, same⟩ := drain_closed still.sink (host.serve progress).1
  obtain ⟨first, here⟩ := Option.isSome_iff_exists.mp served
  obtain ⟨second, there⟩ := Option.isSome_iff_exists.mp drained
  have split : (host.round progress).2 =
      (host.serve progress).2.drain (host.serve progress).1 := rfl
  rw [here] at same
  refine ⟨first, second, (host.round progress).2.2, ?_⟩
  rw [split, ← same, ← there]

/-- When both have ended, a round changes nothing. -/
theorem round_ended (served drained : Except Error Unit) :
    host.round ⟨some served, some drained⟩ = (false, ⟨some served, some drained⟩, host) := by
  simp [round, serve, drain]

private theorem rounds_ended (limit : Nat) (served drained : Except Error Unit) :
    (rounds limit host ⟨some served, some drained⟩).2 = (⟨some served, some drained⟩, host) := by
  cases limit with
  | zero => rfl
  | succ limit => rw [rounds, round_ended]

/-- A poll of a run goes through to the end, once the link is closed. -/
theorem run_closed (closed : host.client.link.Closed) (progress : Progress) :
    ∃ served drained after, (host.run progress).2 = (⟨some served, some drained⟩, after) := by
  obtain ⟨served, drained, after, first⟩ := round_closed closed progress
  refine ⟨served, drained, after, ?_⟩
  obtain ⟨limit, patient⟩ : ∃ limit, host.patience = limit + 1 :=
    Nat.exists_eq_succ_of_ne_zero (by unfold patience Schedule.patience; omega)
  rw [run, patient, rounds]
  generalize host.round progress = polled at first ⊢
  obtain ⟨moved, last⟩ := polled
  obtain rfl : last = _ := first
  cases moved with
  | false => rfl
  | true => exact rounds_ended _ served drained

end Host

/-! ## What is left to do -/

namespace Hosting

variable {τ : Type} {hosting : Hosting τ}

def served? (hosting : Hosting τ) : Option (Except Error Unit) :=
  hosting.progress?.bind (·.served?)

def drained? (hosting : Hosting τ) : Option (Except Error Unit) :=
  hosting.progress?.bind (·.drained?)

/-- How many steps of the loop are left at most, once the link is closed. -/
def stepsLeft (hosting : Hosting τ) : Nat :=
  if hosting.drained?.isSome then 0 else hosting.client.link.sink.size + 1

def Act.serves : Act → Bool
  | .serve => true
  | _ => false

def Act.takes : Act → Bool
  | .intake => true
  | _ => false

/-- The unit that an act has the peer take up. -/
def takenUp (hosting : Hosting τ) : Act → List Bytes
  | .serve =>
    match hosting.progress?, hosting.peer.move hosting.codec hosting.state with
    | some ⟨none, _⟩, .pull _ => hosting.client.link.queue.units.head?.toList
    | _, _ => []
  | _ => []

/-- The units that the peer takes up, the oldest first. -/
def handled : Hosting τ → List Act → List Bytes
  | _, [] => []
  | hosting, next :: rest => hosting.takenUp next ++ handled (hosting.act next) rest

/-- The units that the loop acts on, the oldest first. -/
def dispatched : Hosting τ → List Act → List Bytes
  | _, [] => []
  | hosting, next :: rest =>
    hosting.world.dispatched (hosting.moves next) ++ dispatched (hosting.act next) rest

theorem Sound.closed_act (sound : hosting.Sound) (closed : hosting.client.link.Closed)
    (next : Act) : (hosting.act next).client.link.Closed :=
  have keeps := (sound.keeps next).1
  ⟨keeps.shut closed.queue, keeps.ended closed.sink⟩

theorem Sound.closed_run (sound : hosting.Sound) (closed : hosting.client.link.Closed)
    (acts : List Act) : (hosting.run acts).client.link.Closed := by
  induction acts generalizing hosting with
  | nil => exact closed
  | cons next rest ih => exact ih (sound.act next) (sound.closed_act closed next)

/-- The queue only loses units, among them those that the peer takes up. -/
theorem Sound.queue_act (sound : hosting.Sound) (closed : hosting.client.link.Closed)
    (next : Act) :
    ∃ gone, hosting.client.link.queue.units =
        gone ++ (hosting.act next).client.link.queue.units ∧
      (hosting.takenUp next).Sublist gone := by
  have aside (none : hosting.takenUp next = []) :
      ∃ gone, hosting.client.link.queue.units =
          gone ++ (hosting.act next).client.link.queue.units ∧
        (hosting.takenUp next).Sublist gone := by
    obtain ⟨gone, split⟩ := Client.World.queue_run closed.queue (hosting.moves next)
    rw [← sound.world_act] at split
    exact ⟨gone, split, none ▸ List.nil_sublist gone⟩
  cases next with
  | near | start | intake => exact aside rfl
  | serve =>
    cases begun : hosting.progress? with
    | none => exact aside (by simp [takenUp, begun])
    | some progress =>
      obtain ⟨_ | result, drained?⟩ := progress
      · cases move : hosting.peer.move hosting.codec hosting.state with
        | pull next =>
          refine ⟨hosting.client.link.queue.units.head?.toList, ?_, ?_⟩
          · have world : (hosting.act .serve).world =
                hosting.world.act (.link .pull) := by
              rw [sound.world_act]
              simp only [moves, begun, move]
              rfl
            unfold client
            rw [world]
            exact hosting.world.client.link.units_pulled
          · simp [takenUp, begun, move]
        | write | close | abort | finish => exact aside (by simp [takenUp, begun, move])
      · exact aside (by simp [takenUp, begun])

theorem Sound.queue_run (sound : hosting.Sound) (closed : hosting.client.link.Closed)
    (acts : List Act) :
    ∃ gone, hosting.client.link.queue.units =
        gone ++ (hosting.run acts).client.link.queue.units ∧
      (hosting.handled acts).Sublist gone := by
  induction acts generalizing hosting with
  | nil => exact ⟨[], rfl, .slnil⟩
  | cons next rest ih =>
    obtain ⟨first, here, taken⟩ := sound.queue_act closed next
    obtain ⟨second, later, further⟩ := ih (sound.act next) (sound.closed_act closed next)
    refine ⟨first ++ second, ?_, taken.append further⟩
    rw [here, later, List.append_assoc]
    rfl

/-- The sink only loses units, and what the loop acts on comes first among them. -/
theorem Sound.sink_act (sound : hosting.Sound) (closed : hosting.client.link.Closed)
    (next : Act) :
    hosting.world.dispatched (hosting.moves next) ++
        (hosting.act next).client.link.sink.units <+: hosting.client.link.sink.units := by
  have split := Client.World.sink_run closed.sink (hosting.moves next)
  rw [← sound.world_act] at split
  exact split

theorem Sound.sink_run (sound : hosting.Sound) (closed : hosting.client.link.Closed)
    (acts : List Act) :
    hosting.dispatched acts ++ (hosting.run acts).client.link.sink.units <+:
      hosting.client.link.sink.units := by
  induction acts generalizing hosting with
  | nil => exact List.prefix_refl _
  | cons next rest ih =>
    have later := ih (sound.act next) (sound.closed_act closed next)
    rw [dispatched, List.append_assoc]
    exact ((List.prefix_append_right_inj _).mpr later).trans (sound.sink_act closed next)

/-! ## Everything comes to its end -/

theorem served_aside {next : Act} (aside : next.serves = false) :
    (hosting.act next).state = hosting.state ∧ (hosting.act next).served? = hosting.served? := by
  cases next with
  | near act =>
    rw [Hosting.act]
    split <;> exact ⟨rfl, rfl⟩
  | start =>
    cases begun : hosting.progress? with
    | none =>
      rw [Hosting.act]
      simp only [Host.begin, host, begun]
      rcases hosting.client.startDrain with error | client
      · exact ⟨rfl, by simp [served?, become, begun]⟩
      · exact ⟨rfl, by simp [served?, become, begun]⟩
    | some progress =>
      rw [act_start_again begun]
      exact ⟨rfl, rfl⟩
  | intake =>
    rcases hosting.act_intake_cases with same | ⟨progress, begun, -, after⟩
    · rw [same]
      exact ⟨rfl, rfl⟩
    · rw [after, intake]
      split
      · exact ⟨rfl, by simp [served?, begun]⟩
      · exact ⟨rfl, rfl⟩
  | serve => cases aside

private theorem drained_aside (begun : hosting.progress? ≠ none) {next : Act}
    (aside : next.takes = false) : (hosting.act next).drained? = hosting.drained? := by
  cases next with
  | near act =>
    rw [Hosting.act]
    split <;> rfl
  | start => rw [(begin_again begun).2]
  | serve =>
    rcases hosting.act_serve_cases with same | ⟨progress, here, -, after⟩
    · rw [same]
    · rw [after, serve]
      split
      · rfl
      · rfl
      · simp [drained?, here]
  | intake => cases aside

private theorem steps_intake (begun : hosting.progress? ≠ none)
    (closed : hosting.client.link.sink.closed = true) :
    (hosting.act .intake).stepsLeft ≤ hosting.stepsLeft - 1 := by
  obtain ⟨progress, here⟩ := Option.ne_none_iff_exists'.mp begun
  cases drained : progress.drained? with
  | some result =>
    have same : hosting.act .intake = hosting := by simp [Hosting.act, here, drained]
    simp [same, stepsLeft, drained?, here, drained]
  | none =>
    rw [act_intake here drained, intake]
    rcases stepped : hosting.client.step with ⟨_ | _ | result, after⟩
    · have fewer := Client.size_step stepped
      simp only [stepsLeft, drained?, here, drained, Option.bind_some, Option.isSome_none,
        Bool.false_eq_true, if_false, fewer]
      exact Nat.le_refl _
    · exact absurd stepped (Client.step_closed closed after)
    · simp [stepsLeft, drained?]

private theorem Sound.steps_act (sound : hosting.Sound) (begun : hosting.progress? ≠ none)
    (closed : hosting.client.link.Closed) (next : Act) :
    (hosting.act next).stepsLeft ≤ hosting.stepsLeft - (if next.takes then 1 else 0) := by
  cases taking : next.takes with
  | true =>
    obtain rfl : next = .intake := by cases next <;> first | rfl | cases taking
    exact steps_intake begun closed.sink
  | false =>
    have split := (List.sublist_append_right _ _).trans (sound.sink_act closed next).sublist
    unfold stepsLeft
    rw [drained_aside begun taking]
    split
    · exact Nat.le_refl 0
    · exact Nat.add_le_add_right split.length_le 1

theorem Sound.steps_run (sound : hosting.Sound) (begun : hosting.progress? ≠ none)
    (closed : hosting.client.link.Closed) (acts : List Act) :
    (hosting.run acts).stepsLeft ≤ hosting.stepsLeft - acts.countP Act.takes := by
  induction acts generalizing hosting with
  | nil => exact Nat.le_refl _
  | cons next rest ih =>
    have here := sound.steps_act begun closed next
    have later := ih (sound.act next) (begun_act begun next) (sound.closed_act closed next)
    rw [List.countP_cons]
    change ((hosting.act next).run rest).stepsLeft ≤ _
    omega

end Hosting

end Airlock
