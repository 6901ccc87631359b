import Airlock.Proofs.Client.Handshake
import Airlock.Proofs.Client.Machine

/-!
# Paths of the machine

Whatever a machine does up to some moment is a path of its client, so what is kept along paths holds
at every point of every run, also of a run that never settles.
-/

set_option autoImplicit false

namespace Airlock.Client

variable {σ π : Type}

namespace Machine

variable (machine : Machine σ π)

/-! ## Where a machine stands -/

/-- What is begun and not ended. -/
def frame : Frame π where
  mode :=
    match machine.drain? with
    | some drain => .answering drain.id (.ok drain.value) drain.waited true
    | none => .resting
  due := machine.due
  active := machine.running.flatMap Running.hooks
  waiting := machine.world.waiters.map (·.awaited.id)

/-- The history agrees with what is under way, and with the client. The handshake is not done while
hooks are drained. -/
structure Follows (history : History π) : Prop where
  frame : history.frame = machine.frame
  kept : Kept history machine.client
  ordered : Ordered history machine.client
  early : machine.drain?.isSome → machine.client.phase ≠ .initialized

end Machine

/-! ## Every step is a path -/

/-- A call of a callback takes one path, and begins at most one hook. -/
theorem path_carryOut (history : History π) (client : Client π) (move : Move π) :
    Path history client (client.carryOut move).1 (client.carryOut move).2.1 ∧
      (history.extend (client.carryOut move).1).frame =
        match (client.carryOut move).2.2 with
        | .nests hook _ => { history.frame with active := hook :: history.frame.active }
        | .goes _ | .finished _ => history.frame := by
  cases move with
  | finish outcome => exact ⟨.done, rfl⟩
  | request call next =>
    have request := whole_request history client call
    rw [carryOut]
    rcases result : client.request call with ⟨reply, after⟩
    rw [result] at request
    cases reply with
    | error error => exact ⟨request.path, request.frame⟩
    | ok id =>
      have held : Whole _ after [(.held id, after.hold id)] _ :=
        .single (.held (request_ok history result))
      have both := request.append held
      exact ⟨both.path, both.frame⟩
  | notify call next =>
    rw [carryOut]
    cases result : client.notify call with
    | ok sent =>
      obtain ⟨live, rfl⟩ := notify_ok result
      exact ⟨(Step.notified live).path, rfl⟩
    | error error => exact ⟨.done, rfl⟩
  | hook body next =>
    rw [carryOut]
    cases phase : client.phase with
    | uninitialized => exact ⟨(Step.queued (.inl phase)).path, rfl⟩
    | awaiting => exact ⟨(Step.queued (.inr phase)).path, rfl⟩
    | initialized => exact ⟨(Step.started phase).path, rfl⟩
    | closed => exact ⟨(Step.dropped phase).path, rfl⟩
  | onNotification | onRequest | takeEvents | note =>
    have quiet {after : Client π} (alike : Alike client after) :
        Path history client [(.quiet, after)] after ∧
          (history.extend [(.quiet, after)]).frame = history.frame :=
      ⟨(Step.quiet alike).path, rfl⟩
    exact quiet (.of_eq rfl rfl)
  | close next => exact ⟨(whole_close history client).path, (whole_close history client).frame⟩
  | phase next | pending next | holds id next => exact ⟨.done, rfl⟩
  | release id next => exact ⟨Step.released.path, rfl⟩

/-- The end of a callback takes one path, and a hook that was the innermost is not under way any
more. -/
theorem path_conclude {history : History π} (client : Client π) (outcome : Outcome)
    {purpose : Purpose π} {outer : List π}
    (active : history.frame.active = purpose.hooks ++ outer) :
    Path history client (client.conclude outcome purpose).1 (client.conclude outcome purpose).2 ∧
      (history.extend (client.conclude outcome purpose).1).frame =
        { history.frame with active := outer } := by
  cases purpose with
  | plain =>
    refine ⟨.done, ?_⟩
    rw [← show history.frame.active = outer from active]
    rfl
  | answer id =>
    have reply := whole_reply history client id outcome
    refine ⟨reply.path, reply.frame.trans ?_⟩
    rw [← show history.frame.active = outer from active]
  | hook body =>
    refine ⟨(Step.ended active).path, ?_⟩
    rw [conclude, History.extend_cons, History.extend_nil, History.frame_cons, Frame.next, active]
    rfl

namespace Machine

variable {machine : Machine σ π} {history : History π}

private theorem frame_proceeding (machine : Machine σ π) (client : Client π)
    (running : List (Running π)) :
    { machine.become client with running }.frame =
      { machine.frame with active := running.flatMap Running.hooks } := rfl

private theorem path_proceed (machine : Machine σ π) {now : Running π} {outer : List (Running π)}
    (move : Move π) (frame : history.frame = machine.frame)
    (running : machine.running = now :: outer) :
    Path history machine.client (machine.proceed now outer move).1
        (machine.proceed now outer move).2.client ∧
      (history.extend (machine.proceed now outer move).1).frame =
        (machine.proceed now outer move).2.frame := by
  have active : history.frame.active = now.purpose.hooks ++ outer.flatMap Running.hooks := by
    rw [frame, Machine.frame, running]
    rfl
  obtain ⟨path, same⟩ := path_carryOut history machine.client move
  unfold proceed
  rcases carried : machine.client.carryOut move with ⟨trail, after, onward⟩
  rw [carried] at path same
  cases onward with
  | goes next =>
    refine ⟨path, same.trans ?_⟩
    rw [frame_proceeding, ← frame]
    exact (congrArg (fun active => { history.frame with active }) active :)
  | nests hook next =>
    refine ⟨path, same.trans ?_⟩
    rw [frame_proceeding, ← frame, active]
    rfl
  | finished outcome =>
    obtain ⟨last, ended⟩ :=
      path_conclude after outcome ((congrArg Frame.active same).trans active)
    refine ⟨path.append last, ?_⟩
    rw [frame_proceeding, ← frame, History.extend_append, ended]
    exact (congrArg (fun frame : Frame π =>
      { frame with active := outer.flatMap Running.hooks }) same :)

private theorem path_drainOn {drain : Drain π} (frame : history.frame = machine.frame)
    (running : machine.running = []) (drains : machine.drain? = some drain) :
    Path history machine.client (machine.drainOn drain).1 (machine.drainOn drain).2.client ∧
      (history.extend (machine.drainOn drain).1).frame = (machine.drainOn drain).2.frame := by
  obtain ⟨world, state, _, _⟩ := machine
  obtain rfl : _ = [] := running
  obtain rfl : _ = some drain := drains
  have stands : history.frame =
      { mode := .answering drain.id (.ok drain.value) drain.waited true
        due := drain.due
        waiting := world.waiters.map (·.awaited.id) } := frame
  have mode : history.frame.mode = .answering drain.id (.ok drain.value) drain.waited true := by
    rw [stands]
  have due : history.frame.due = drain.due := by rw [stands]
  have active : history.frame.active = [] := by rw [stands]
  unfold drainOn become client opened Drain.last
  dsimp only
  split
  · rename_i hook rest next
    refine ⟨(Step.began (due.trans next)).path, ?_⟩
    rw [History.extend_cons, History.extend_nil, History.frame_cons, stands, Frame.next, next]
    rfl
  · rename_i done
    have free : history.frame.due = [] := due.trans done
    rw [done] at stands
    split
    · rename_i none
      by_cases open? : world.client.phase = .awaiting
      · rw [if_pos open?, if_pos open?]
        let opened : Client π := { world.client with phase := .initialized }
        have opens : Step history world.client [(.opened, opened)] opened :=
          .opened mode free none open? rfl
        obtain ⟨last, rests⟩ : Step (.opened :: history) opened _ _ ∧ _ :=
          step_handOver mode free active (by rintro ⟨⟩) (by rintro - ⟨⟩)
        refine ⟨.cons opens last.path, ?_⟩
        rw [List.cons_append, List.nil_append, History.extend_cons, History.extend_cons,
          History.extend_nil, History.frame_cons, rests, History.frame_cons, stands]
        rfl
      · rw [if_neg open?, if_neg open?]
        obtain ⟨last, rests⟩ := step_handOver mode free active (by rintro ⟨⟩) fun _ => open?
        refine ⟨last.path, ?_⟩
        rw [List.nil_append, History.extend_cons, History.extend_nil, History.frame_cons, rests,
          stands]
        rfl
    · rename_i some
      refine ⟨(Step.gathered mode free some rfl).path, ?_⟩
      rw [History.extend_cons, History.extend_nil, History.frame_cons, stands]
      rfl

private theorem path_goOn (code : Behaviour σ π) (frame : history.frame = machine.frame) :
    Path history machine.client (machine.goOn code).1 (machine.goOn code).2.client ∧
      (history.extend (machine.goOn code).1).frame = (machine.goOn code).2.frame := by
  unfold goOn
  split
  · rename_i now outer running
    let moved : Machine σ π := { machine with state := (code.move machine.state now.rest).2 }
    exact moved.path_proceed _ frame running
  · rename_i running
    split
    · rename_i drain drains
      exact path_drainOn frame running drains
    · exact ⟨.done, frame⟩

/-! ## Acts of an idle machine -/

/-- A history in which everything has ended knows nothing but the handles that are awaited. -/
theorem frame_of_follows {world : World π} (follows : world.Follows history) :
    history.frame = { waiting := world.waiters.map (·.awaited.id) } := by
  obtain ⟨⟨mode, due, active⟩, waiting⟩ := follows
  rcases frame : history.frame with ⟨_, _, _, _⟩
  rw [frame] at mode due active waiting
  obtain rfl : _ = Mode.resting := mode
  obtain rfl : _ = [] := due
  obtain rfl : _ = [] := active
  exact congrArg (fun waiting : List Id => ({ waiting } : Frame π)) waiting

theorem follows_world (idle : machine.idle = true) (frame : history.frame = machine.frame) :
    machine.world.Follows history := by
  obtain ⟨world, state, _, _⟩ := machine
  obtain ⟨rfl, rfl⟩ := idle_iff.mp idle
  have stands : history.frame = { waiting := world.waiters.map (·.awaited.id) } := frame
  exact ⟨⟨by rw [stands], by rw [stands], by rw [stands]⟩, by rw [stands]⟩

private theorem path_respond {id : Id} {outcome : Outcome} (idle : machine.idle = true)
    (frame : history.frame = machine.frame) :
    Path history machine.client (machine.respond id outcome).1
        (machine.respond id outcome).2.client ∧
      (history.extend (machine.respond id outcome).1).frame =
        (machine.respond id outcome).2.frame := by
  obtain ⟨⟨client, looping, waiters⟩, state, _, _⟩ := machine
  obtain ⟨rfl, rfl⟩ := idle_iff.mp idle
  let waited := client.pending.contains id
  let arrived : History π := .arrived id outcome waited :: history
  have stands : history.frame = { waiting := waiters.map (·.awaited.id) } := frame
  have start : Step history client [(.arrived id outcome waited, client.leaving id)]
      (client.leaving id) := .arrived (by rw [stands])
  have mode : arrived.frame.mode = .answering id outcome waited false := rfl
  have due : arrived.frame.due = [] := by rw [History.frame_cons, stands]; rfl
  have active : arrived.frame.active = [] := by rw [History.frame_cons, stands]; rfl
  unfold respond become Machine.client
  dsimp only
  by_cases outstanding : (client.leaving id).handshake? = some id
  · rw [if_pos outstanding]
    have last : arrived.head? = some (.arrived id outcome waited) := rfl
    cases outcome with
    | ok value =>
      have settles : Step arrived (client.leaving id) [(.settled id, client.settling id)]
          (client.settling id) := .settled last outstanding rfl
      have tells : Whole (.settled id :: arrived) (client.settling id) _ _ := whole_announce rfl
      refine ⟨.cons start (.cons settles tells.path), ?_⟩
      rw [History.extend_cons, History.extend_cons]
      refine tells.frame.trans ?_
      rw [History.frame_cons, History.frame_cons, stands]
      rfl
    | error error =>
      have forgets : Step arrived (client.leaving id) _ _ := .abandoned last outstanding
      have past : ((client.leaving id).abandonHandshake id).handshake? ≠ some id := by
        simp [abandonHandshake, outstanding]
      obtain ⟨hands, rests⟩ : Step (.abandoned id :: arrived) _ _ _ ∧ _ :=
        step_handOver mode due active (fun _ => past) (by rintro ⟨⟩)
      refine ⟨.cons start (.cons forgets hands.path), ?_⟩
      rw [History.extend_cons, History.extend_cons, History.extend_cons, History.extend_nil,
        History.frame_cons, rests, History.frame_cons, History.frame_cons, stands]
      rfl
  · rw [if_neg outstanding]
    obtain ⟨hands, rests⟩ := step_handOver mode due active (fun _ => outstanding) (by rintro ⟨⟩)
    refine ⟨.cons start hands.path, ?_⟩
    rw [History.extend_cons, History.extend_cons, History.extend_nil, History.frame_cons, rests,
      History.frame_cons, stands]
    rfl

/-- What takes one path and leaves nothing that it began leaves the machine as it stands. -/
theorem frame_become {client : Client π} {trail : Trail π} (frame : history.frame = machine.frame)
    (whole : Whole history machine.client trail client) :
    Path history machine.client trail (machine.become client).client ∧
      (history.extend trail).frame = (machine.become client).frame :=
  ⟨whole.path, whole.frame.trans frame⟩

private theorem path_dispatch (idle : machine.idle = true) (frame : history.frame = machine.frame)
    (unit : Bytes) :
    Path history machine.client (machine.dispatch unit).1 (machine.dispatch unit).2.client ∧
      (history.extend (machine.dispatch unit).1).frame = (machine.dispatch unit).2.frame := by
  have begins (now : Running π) (plain : now.hooks = []) :
      history.frame = { machine with running := [now] }.frame := by
    obtain ⟨running, -⟩ := idle_iff.mp idle
    rw [frame, Machine.frame, Machine.frame, running, List.flatMap_cons, plain]
    rfl
  unfold dispatch
  dsimp only
  split
  · exact frame_become frame (.single (.quiet (.of_eq rfl rfl)))
  · exact path_respond idle frame
  · split
    · exact ⟨.done, begins _ rfl⟩
    · exact ⟨.done, frame⟩
  · split
    · exact ⟨.done, begins _ rfl⟩
    · exact frame_become frame (whole_reply _ _ _ _)

private theorem path_intake (idle : machine.idle = true) (frame : history.frame = machine.frame) :
    Path history machine.client machine.intake.1 machine.intake.2.client ∧
      (history.extend machine.intake.1).frame = machine.intake.2.frame := by
  let received := { machine.client with link := machine.client.link.receive.2 }
  have start : Step history machine.client [(.quiet, received)] received :=
    .quiet (alike_received machine.client)
  have past : History.frame (.quiet :: history) = (machine.become received).frame := frame
  have closes : Whole history machine.client ((.quiet, received) :: received.closeTrail)
      received.close := .cons start (whole_close _ _)
  unfold intake
  dsimp only
  split
  · exact frame_become frame (.single start)
  · rename_i unit _
    obtain ⟨path, same⟩ := path_dispatch (by exact idle) past unit
    exact ⟨.cons start path, by rw [History.extend_cons]; exact same⟩
  · exact ⟨closes.path, closes.frame.trans frame⟩
  · exact ⟨closes.path, closes.frame.trans frame⟩

private theorem path_take (idle : machine.idle = true) (frame : history.frame = machine.frame)
    (act : Act π) :
    Path history machine.client (machine.take act).1 (machine.take act).2.client ∧
      (history.extend (machine.take act).1).frame = (machine.take act).2.frame := by
  obtain ⟨running, rests⟩ := idle_iff.mp idle
  have manages : Path history machine.client (machine.world.manageTrail act)
        (machine.world.manage act).client ∧
      (history.extend (machine.world.manageTrail act)).frame =
        { machine with world := machine.world.manage act }.frame := by
    obtain ⟨path, follows⟩ := World.path_manage (follows_world idle frame) act
    refine ⟨path, (frame_of_follows follows).trans ?_⟩
    rw [Machine.frame, due, rests, running]
    rfl
  cases act with
  | call program =>
    refine ⟨.done, frame.trans ?_⟩
    rw [Machine.frame, running]
    rfl
  | intake =>
    rw [take]
    split
    · exact path_intake idle frame
    · exact ⟨.done, frame⟩
  | start | cancel | await | shutdown | poll | forget | link => exact manages

private theorem path_turn (code : Behaviour σ π) (frame : history.frame = machine.frame)
    (act? : Option (Act π)) :
    Path history machine.client (machine.turn code act?).1 (machine.turn code act?).2.client ∧
      (history.extend (machine.turn code act?).1).frame = (machine.turn code act?).2.frame := by
  cases act? with
  | none => exact path_goOn code frame
  | some act =>
    rw [turn]
    split
    · rename_i idle
      exact path_take idle frame act
    · exact ⟨.done, frame⟩

end Machine

/-! ## What callbacks leave alone -/

/-- A client whose handshake is not done in between, and that was handed nothing. -/
structure Spares (client after : Client π) : Prop where
  early : client.phase ≠ .initialized → after.phase ≠ .initialized := by exact fun early => early
  delivered : after.delivered = client.delivered := by rfl

theorem Spares.trans {first second third : Client π} (before : Spares first second)
    (after : Spares second third) : Spares first third :=
  ⟨fun early => after.early (before.early early), after.delivered.trans before.delivered⟩

private theorem spares_abandonHandshake (client : Client π) (id : Id) :
    Spares client (client.abandonHandshake id) := by
  unfold abandonHandshake
  split
  · exact {}
  · refine ⟨fun early => ?_, rfl⟩
    dsimp only
    split
    · exact nofun
    · exact early

private theorem spares_request (client : Client π) (call : Call) :
    Spares client (client.request call).2 := by
  unfold request
  rcases result : client.begin call with ⟨reply, begun⟩
  cases reply with
  | error error =>
    obtain ⟨rfl, -⟩ := begin_refused result
    exact {}
  | ok id =>
    obtain ⟨rfl, -, began⟩ := begin_ok result
    have begins : Spares client begun := by
      rcases began with ⟨-, rfl⟩ | ⟨-, -, rfl⟩
      · exact {}
      · exact ⟨fun _ => nofun, rfl⟩
    dsimp only
    rcases submit_cases begun (.number client.nextId) call with sent | ⟨error, undone⟩
    · rw [sent]
      exact begins.trans {}
    · rw [undone, withdraw]
      dsimp only
      split
      · exact (begins.trans {}).trans (spares_abandonHandshake _ _)
      · exact begins.trans {}

private theorem spares_send {client sent : Client π} {message : Message}
    (accepted : client.send message = .ok sent) : Spares client sent := by
  rw [send_ok accepted]
  exact {}

private theorem spares_notifyIfOpen (client : Client π) (call : Call) :
    Spares client (client.notifyIfOpen call) := by
  unfold notifyIfOpen
  split
  · rename_i sent accepted
    rw [(notify_ok accepted).2]
    exact {}
  · exact {}

private theorem spares_close (client : Client π) : Spares client client.close := by
  unfold close
  split
  · exact {}
  · exact ⟨fun _ => nofun, rfl⟩

theorem spares_carryOut (client : Client π) (move : Move π) :
    Spares client (client.carryOut move).2.1 := by
  cases move with
  | request call next =>
    have requested := spares_request client call
    rw [carryOut]
    split <;> rename_i result <;> rw [result] at requested
    · exact requested.trans {}
    · exact requested
  | notify call next =>
    rw [carryOut]
    split
    · rename_i sent accepted
      rw [(notify_ok accepted).2]
      exact {}
    · exact {}
  | hook body next =>
    rw [carryOut]
    split <;> exact {}
  | close next => exact spares_close client
  | finish | onNotification | onRequest | takeEvents | phase | pending | release | holds | note =>
    exact {}

theorem spares_conclude (client : Client π) (outcome : Outcome) (purpose : Purpose π) :
    Spares client (client.conclude outcome purpose).2 := by
  cases purpose with
  | answer id =>
    rw [conclude, sendIfOpen]
    split
    · rename_i sent accepted
      exact spares_send accepted
    · exact {}
  | plain | hook => exact {}

namespace Machine

variable {machine : Machine σ π} {history : History π}

theorem drain_proceed (machine : Machine σ π) (now : Running π) (outer : List (Running π))
    (move : Move π) : (machine.proceed now outer move).2.drain? = machine.drain? := by
  unfold proceed
  split <;> rfl

theorem spares_proceed (machine : Machine σ π) (now : Running π) (outer : List (Running π))
    (move : Move π) : Spares machine.client (machine.proceed now outer move).2.client := by
  have carries := spares_carryOut machine.client move
  unfold proceed
  rcases carried : machine.client.carryOut move with ⟨trail, after, onward⟩
  rw [carried] at carries
  cases onward with
  | goes | nests => exact carries
  | finished outcome => exact carries.trans (spares_conclude after outcome now.purpose)

private theorem early_goOn (code : Behaviour σ π)
    (early : machine.drain?.isSome → machine.client.phase ≠ .initialized) :
    (machine.goOn code).2.drain?.isSome → (machine.goOn code).2.client.phase ≠ .initialized := by
  unfold goOn
  split
  · rename_i now outer running
    intro drains
    rw [drain_proceed] at drains
    let moved : Machine σ π := { machine with state := (code.move machine.state now.rest).2 }
    exact (moved.spares_proceed now outer _).early (early drains)
  · split
    · rename_i drain drains
      have still : machine.client.phase ≠ .initialized := early (by rw [drains]; rfl)
      unfold drainOn
      dsimp only
      split
      · exact fun _ => still
      · split
        · exact nofun
        · exact fun _ => still
    · exact early

/-- Only a success of the outstanding handshake begins a drain. -/
theorem early_respond {id : Id} {outcome : Outcome} (idle : machine.idle = true)
    (open? : machine.client.handshake? = some id → machine.client.phase ≠ .initialized) :
    (machine.respond id outcome).2.drain?.isSome →
      (machine.respond id outcome).2.client.phase ≠ .initialized := by
  obtain ⟨-, rests⟩ := idle_iff.mp idle
  have none (client : Client π) : ¬(machine.become client).drain?.isSome = true := by
    rw [become, rests]
    exact nofun
  unfold respond
  dsimp only
  split
  · rename_i outstanding
    cases outcome with
    | ok value =>
      intro _
      have told : Spares machine.client (if machine.client.sendsInitialized then
          (machine.client.settling id).notifyIfOpen .handshakeDone
        else machine.client.settling id) := by
        split
        · have settled : Spares machine.client (machine.client.settling id) := {}
          exact settled.trans (spares_notifyIfOpen _ _)
        · exact {}
      exact told.early (open? outstanding)
    | error error => exact fun drains => absurd drains (none _)
  · exact fun drains => absurd drains (none _)

/-- While nothing is under way, an outstanding handshake is awaited. -/
theorem Follows.awaiting (follows : machine.Follows history) (idle : machine.idle = true) {id : Id}
    (outstanding : machine.client.handshake? = some id) : machine.client.phase = .awaiting := by
  obtain ⟨-, rests⟩ := idle_iff.mp idle
  have settled : history.frame.mode.settled = false := by
    rw [follows.frame, Machine.frame, rests]
    rfl
  exact (follows.kept.awaiting settled).mpr ⟨id, outstanding⟩

private theorem Follows.unfinished (follows : machine.Follows history) (idle : machine.idle = true)
    {id : Id} (outstanding : machine.client.handshake? = some id) :
    machine.client.phase ≠ .initialized := by
  rw [follows.awaiting idle outstanding]
  exact nofun

private theorem Follows.early_take (follows : machine.Follows history) (idle : machine.idle = true)
    (act : Act π) :
    (machine.take act).2.drain?.isSome → (machine.take act).2.client.phase ≠ .initialized := by
  obtain ⟨-, rests⟩ := idle_iff.mp idle
  have none {after : Machine σ π} (same : after.drain? = machine.drain?) :
      after.drain?.isSome → after.client.phase ≠ .initialized := by
    rw [same, rests]
    exact nofun
  cases act with
  | intake =>
    rw [take, intake]
    dsimp only
    split
    · split
      · exact none rfl
      · unfold dispatch
        dsimp only
        split
        · exact none rfl
        · exact early_respond (by exact idle) (follows.unfinished idle)
        · split <;> exact none rfl
        · split <;> exact none rfl
      · exact none rfl
      · exact none rfl
    · exact none rfl
  | call | start | cancel | await | shutdown | poll | forget | link => exact none rfl

/-! ## What holds along every run -/

/-- What is kept at every point of a run: the step is a path, and the machine is followed at its
end. -/
theorem Follows.turn (follows : machine.Follows history) (code : Behaviour σ π)
    (act? : Option (Act π)) :
    Path history machine.client (machine.turn code act?).1 (machine.turn code act?).2.client ∧
      (machine.turn code act?).2.Follows (history.extend (machine.turn code act?).1) := by
  obtain ⟨path, frame⟩ := path_turn code follows.frame act?
  obtain ⟨-, kept, ordered⟩ := ordered_path path follows.kept follows.ordered
  refine ⟨path, frame, kept, ordered, ?_⟩
  cases act? with
  | none => exact early_goOn code follows.early
  | some act =>
    rw [Machine.turn]
    split
    · rename_i idle
      exact follows.early_take idle act
    · exact follows.early

theorem Follows.run (follows : machine.Follows history) (code : Behaviour σ π)
    (turns : List (Option (Act π))) :
    Path history machine.client (machine.run code turns).1 (machine.run code turns).2.client ∧
      (machine.run code turns).2.Follows (history.extend (machine.run code turns).1) := by
  induction turns generalizing machine history with
  | nil => exact ⟨.done, follows⟩
  | cons act? rest ih =>
    obtain ⟨first, after⟩ := follows.turn code act?
    obtain ⟨path, last⟩ := ih after
    exact ⟨first.append path, by rw [Machine.run, History.extend_append]; exact last⟩

theorem Follows.respond (follows : machine.Follows history) (idle : machine.idle = true) (id : Id)
    (outcome : Outcome) :
    (machine.respond id outcome).2.Follows (history.extend (machine.respond id outcome).1) := by
  obtain ⟨path, frame⟩ := path_respond idle follows.frame
  obtain ⟨-, kept, ordered⟩ := ordered_path path follows.kept follows.ordered
  exact ⟨frame, kept, ordered, early_respond idle (follows.unfinished idle)⟩

theorem follows_create (config : Config) (state : σ) :
    (create config state : Machine σ π).Follows [] :=
  ⟨rfl, kept_create config _, ordered_create config _, nofun⟩

theorem Follows.advance (follows : machine.Follows history) (code : Behaviour σ π) (count : Nat) :
    (machine.advance code count).2.Follows (history.extend (machine.advance code count).1) := by
  rw [← run_replicate]
  exact (follows.run code _).2

variable {code : Behaviour σ π} {last : Machine σ π} {trail : Trail π}

theorem Follows.leads (follows : machine.Follows history) (leads : machine.Leads code trail last) :
    last.Follows (history.extend trail) := by
  obtain ⟨count, advanced⟩ := leads
  have later := follows.advance code count
  rw [advanced] at later
  exact later

end Machine

end Airlock.Client
