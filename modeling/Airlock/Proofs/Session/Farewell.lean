import Airlock.Proofs.Session.Closing
import Airlock.Proofs.Session.Quiescence

/-!
# Farewells

A client that comes to its orderly end bids the peer farewell and closes the link. The router still
takes up what is in the queue, the farewell as the last of it, but its replies are refused from then
on: the first request that it is at or comes to is the last message it handles. So the farewell is
handled, once and after everything else, unless a request stands before it.
-/

set_option autoImplicit false

namespace Airlock

/-! ## Parting -/

namespace Client

variable {client after last : Client} {occurrence : Occurrence} {trail : Trail}

/-- A client that leaves the queue open leaves the sink alone. -/
theorem Outgoing.sink_of_open (outgoing : Outgoing client occurrence after)
    (opened : after.link.queue.closed = false) : after.link.sink = client.link.sink := by
  rcases outgoing.link with gained | ⟨closed, -, -⟩
  · rw [gained]
    rfl
  · rw [closed] at opened
    cases opened

private theorem Chain.sink_of_open (chain : Chain client trail last)
    (opened : last.link.queue.closed = false) : last.link.sink = client.link.sink := by
  induction chain with
  | nil => rfl
  | @cons client middle last occurrence rest outgoing further ih =>
    have between : middle.link.queue.closed = false := by
      cases closed : middle.link.queue.closed with
      | false => rfl
      | true => exact absurd ((further.keeps.1.shut closed).symm.trans opened) nofun
    exact (ih opened).trans (outgoing.sink_of_open between)

private theorem Takes.sink_of_open (takes : Takes client trail last)
    (opened : last.link.queue.closed = false) :
    last.link.sink.closed = client.link.sink.closed := by
  have received : client.received.link.sink.closed = client.link.sink.closed :=
    Sink.closed_read client.link.sink
  rw [← received]
  cases takes with
  | plain other chain => exact congrArg Sink.closed (chain.sink_of_open opened)
  | response taken reads chain => exact congrArg Sink.closed (chain.sink_of_open opened)

/-- The shutdown that a waiter is for returns well at a poll, having put `exit` into the queue. -/
structure Parting (world : World) (id : Id) (now : Duration) (waiter : Waiter)
    (reply : Except Error Value) (after : Client) : Prop where
  waits : world.waiter? id = some waiter
  ends : waiter.ends = true
  polled : ∃ later, world.client.pollAwaited now waiter.awaited = (.ready reply, later, after)
  returns : (after.finishShutdown reply).1 = .ok ()
  enqueues : ∃ sent, after.notify .exit = .ok sent

namespace World

variable {world : World}

def Parts (world : World) (id : Id) (now : Duration) : Prop :=
  ∃ waiter reply after, Parting world id now waiter reply after

/-- An open client parts with a peer that agreed to a shutdown. -/
theorem Parts.of_answered {id : Id} {now : Duration}
    (ends : (world.waiter? id).map (·.ends) = some true)
    (agreed : (world.client.result? id).map (·.toBool) = some true)
    (live : world.client.phase ≠ .closed) (opened : world.client.link.queue.closed = false) :
    world.Parts id now := by
  obtain ⟨waiter, waits, ends⟩ := Option.map_eq_some_iff.mp ends
  obtain ⟨_ | value, answered, agreed⟩ := Option.map_eq_some_iff.mp agreed
  · cases agreed
  have same : waiter.awaited.id = id := by simpa using List.find?_some waits
  have polled : world.client.pollAwaited now waiter.awaited =
      (.ready (.ok value), waiter.awaited, world.client) := by
    rw [pollAwaited, same, answered]
  have notified : world.client.notify .exit =
      .ok (world.client.enqueued Call.exit.toNotification) := by
    rw [notify, if_neg live, send_eq, if_neg (by simp [opened])]
  exact ⟨waiter, .ok value, world.client, waits, ends, ⟨_, polled⟩, rfl, _, notified⟩

private theorem sink_of_open {act : Act} (own : ∀ move, act ≠ .link move)
    (opened : (world.act act).client.link.queue.closed = false) :
    (world.act act).client.link.sink.closed = world.client.link.sink.closed := by
  cases act with
  | link move => exact absurd rfl (own move)
  | start => rcases world.start_cases with ⟨-, -, same⟩ | ⟨-, -, after⟩ <;> simp [*]
  | intake =>
    cases looping : world.looping with
    | false => rw [(intake_idle looping).2]
    | true =>
      rw [(intake_looping looping).2] at opened ⊢
      exact (takes_step world.client).sink_of_open opened
  | call | cancel | await | shutdown | poll | forget =>
    exact congrArg Sink.closed ((world.chain_act rfl).sink_of_open opened)

/-- The farewell goes into the queue, which was open, and both channels are closed behind it. -/
theorem Parts.link {id : Id} {now : Duration} (parts : world.Parts id now) :
    world.client.link.queue.closed = false ∧
      (world.act (.poll id now)).client.link =
        (world.client.link.gaining
          [world.client.codec.encode Call.exit.toNotification]).close := by
  obtain ⟨waiter, reply, after, waits, ends, ⟨later, polled⟩, returns, sent, notified⟩ := parts
  obtain ⟨value, rfl⟩ : ∃ value, reply = .ok value := by
    cases reply with
    | ok value => exact ⟨value, rfl⟩
    | error error => cases returns
  obtain rfl : after = world.client := by
    rcases pollAwaited_ready polled with ⟨-, same⟩ | ⟨_, -, -, late, -⟩
    · exact same
    · cases late
  have opened := open_of_notify notified
  obtain ⟨live, rfl⟩ := notify_ok notified
  refine ⟨opened, ?_⟩
  simp only [act, manage, waits, pollWaiter, polled, ends, if_true, finishShutdown, notifyIfOpen,
    notified, dismiss, close, if_neg live, enqueued]
  rfl

end World

end Client

/-! ## What a router hears -/

namespace Message

/-- Only a request asks for a reply. -/
def asks : Message → Bool
  | .request _ _ _ => true
  | .notification _ _ | .response _ _ => false

/-- The messages up to the first request, and that one. -/
def untilAsked : List Message → List Message
  | [] => []
  | message :: rest => if message.asks then [message] else message :: untilAsked rest

variable {messages : List Message}

private theorem untilAsked_prefix (messages : List Message) : untilAsked messages <+: messages := by
  induction messages with
  | nil => exact List.prefix_refl _
  | cons message rest ih =>
    rw [untilAsked]
    split
    · exact ⟨rest, rfl⟩
    · exact (List.prefix_cons_inj message).mpr ih

private theorem untilAsked_append (calm : ∀ message ∈ messages, message.asks = false)
    (rest : List Message) : untilAsked (messages ++ rest) = messages ++ untilAsked rest := by
  induction messages with
  | nil => rfl
  | cons message others ih =>
    have here : message.asks = false := calm message List.mem_cons_self
    rw [List.cons_append, untilAsked, if_neg (by simp [here]),
      ih fun other member => calm other (List.mem_cons_of_mem _ member)]
    rfl

/-- Behind a request, nothing counts. -/
theorem untilAsked_append_asked (asked : ∃ message ∈ messages, message.asks = true)
    (rest : List Message) : untilAsked (messages ++ rest) = untilAsked messages := by
  induction messages with
  | nil =>
    obtain ⟨message, member, -⟩ := asked
    cases member
  | cons message others ih =>
    rw [List.cons_append, untilAsked, untilAsked]
    split
    · rfl
    · rename_i silent
      obtain ⟨other, member, asks⟩ := asked
      rcases List.mem_cons.mp member with rfl | further
      · exact absurd asks silent
      · rw [ih ⟨other, further, asks⟩]

end Message

namespace Serving

/-- The message that a router has just taken up. -/
def taken : Serving → List Message
  | .handling message => [message]
  | .pulling | .replying _ _ | .finished => []

/-- The router serves, and no request is with it. -/
def free : Serving → Bool
  | .pulling => true
  | .handling message => !message.asks
  | .replying _ _ | .finished => false

/-- How many turns the router is away from its end, with nothing left in a closed queue. -/
def turns : Serving → Nat
  | .finished => 0
  | .pulling | .replying _ _ => 1
  | .handling _ => 2

private theorem turns_le (serving : Serving) : serving.turns ≤ 2 := by
  cases serving <;> simp [turns]

private theorem turns_afterHandler (outcome : Outcome) (message : Message) :
    (afterHandler outcome message).turns < turns (.handling message) := by
  cases message <;> simp [afterHandler, turns]

end Serving

/-- The messages that a router takes up among the units. -/
def Codec.heard (codec : Codec) (units : List Bytes) : List Message :=
  units.flatMap fun unit => (Serving.afterPull codec (.ready (some unit))).taken

private theorem Codec.heard_farewell (codec : Codec) :
    codec.heard [codec.encode Call.exit.toNotification] = [Call.exit.toNotification] := by
  obtain ⟨format, framing⟩ := codec
  cases format <;> cases framing <;> rfl

private theorem Serving.afterPull_some (codec : Codec) (unit : Bytes) :
    afterPull codec (.ready (some unit)) = .pulling ∨
      ∃ message, afterPull codec (.ready (some unit)) = .handling message := by
  rw [afterPull]
  split
  · exact .inr ⟨_, rfl⟩
  · exact .inr ⟨_, rfl⟩
  · exact .inl rfl
  · exact .inl rfl

private theorem Message.untilAsked_heard (codec : Codec) (unit : Bytes) (rest : List Bytes) :
    let serving := Serving.afterPull codec (.ready (some unit))
    untilAsked (codec.heard (unit :: rest)) =
      serving.taken ++ if serving.free then untilAsked (codec.heard rest) else [] := by
  intro serving
  have heard : codec.heard (unit :: rest) = serving.taken ++ codec.heard rest :=
    List.flatMap_cons
  rw [heard]
  rcases Serving.afterPull_some codec unit with skipped | ⟨message, taken⟩
  · rw [show serving = _ from skipped]
    rfl
  · rw [show serving = _ from taken]
    change untilAsked (message :: codec.heard rest) = _
    rw [untilAsked, Serving.free]
    cases message.asks <;> rfl

namespace Dialogue

variable {dialogue : Dialogue} {next : Act}

/-- The message that the router takes up in an act. -/
def takenUp (dialogue : Dialogue) : Act → List Message
  | .pull =>
    match dialogue.serving with
    | .pulling => (Serving.afterPull dialogue.client.codec dialogue.client.link.pull.1).taken
    | _ => []
  | _ => []

/-- The messages that the router takes up, the oldest first. -/
def handled : Dialogue → List Act → List Message
  | _, [] => []
  | dialogue, next :: rest => dialogue.takenUp next ++ handled (dialogue.act next) rest

private theorem takenUp_of_idle (idle : next = .pull → dialogue.serving ≠ .pulling) :
    dialogue.takenUp next = [] := by
  cases next with
  | pull =>
    cases serving : dialogue.serving with
    | pulling => exact absurd serving (idle rfl)
    | handling | replying | finished => simp only [takenUp, serving]
  | near | answer | write => rfl

private theorem codec_act (dialogue : Dialogue) (next : Act) :
    (dialogue.act next).client.codec = dialogue.client.codec :=
  (dialogue.keeps_run [next]).codec

private theorem closed_run (closed : dialogue.client.link.Closed) (acts : List Act) :
    (dialogue.run acts).client.link.Closed :=
  have keeps := dialogue.keeps_run acts
  ⟨keeps.shut closed.queue, keeps.ended closed.sink⟩

private theorem closed_act (closed : dialogue.client.link.Closed) (next : Act) :
    (dialogue.act next).client.link.Closed :=
  closed_run closed [next]

/-! ## As long as the queue is open -/

/-- While the router serves, nobody but the client and the router touches the link. In a session no
one else has an end of it, and the router's end is given up when the router has finished. -/
def Alone (dialogue : Dialogue) (acts : List Act) : Prop :=
  ∀ earlier move later, acts = earlier ++ .near (.link move) :: later →
    (dialogue.run earlier).serving = .finished

private theorem alone_of_own {acts : List Act} (own : ∀ move, .near (.link move) ∉ acts) :
    dialogue.Alone acts := by
  rintro earlier move later rfl
  exact absurd (List.mem_append_right earlier List.mem_cons_self) (own move)

/-- As long as the queue is open, so is the sink, and the router serves. -/
def Tied (dialogue : Dialogue) : Prop :=
  dialogue.client.link.queue.closed = false →
    dialogue.client.link.sink.closed = false ∧ dialogue.serving ≠ .finished

private theorem Tied.act (tied : dialogue.Tied)
    (alone : ∀ move, next = .near (.link move) → dialogue.serving = .finished) :
    (dialogue.act next).Tied := by
  intro opened
  have before : dialogue.client.link.queue.closed = false := by
    cases closed : dialogue.client.link.queue.closed with
    | false => rfl
    | true => exact absurd (((dialogue.keeps_run [next]).shut closed).symm.trans opened) nofun
  obtain ⟨sink, serves⟩ := tied before
  have step := dialogue.step_act next
  generalize dialogue.actTrail next = trail at step
  generalize dialogue.act next = after at step opened ⊢
  cases step with
  | still idle => exact ⟨sink, serves⟩
  | @near act stays =>
    have own (move : LinkMove) : act ≠ .link move := by
      rintro rfl
      exact serves (alone move rfl)
    exact ⟨(Client.World.sink_of_open own opened).trans sink, serves⟩
  | pull pulling =>
    refine ⟨sink, ?_⟩
    dsimp only
    rcases dialogue.client.link.pull_cases with
      ⟨unit, rest, -, taken⟩ | ⟨-, closed, -⟩ | ⟨-, -, same⟩
    · rw [taken]
      rcases Serving.afterPull_some dialogue.client.codec unit with skipped | ⟨message, heard⟩
      · rw [skipped]
        nofun
      · rw [heard]
        nofun
    · exact absurd (before.symm.trans closed) nofun
    · rw [same]
      nofun
  | @answer message outcome handling =>
    refine ⟨sink, ?_⟩
    cases message <;> nofun
  | @write id outcome unit replying encoded =>
    refine ⟨(Sink.closed_write dialogue.client.link.sink unit).trans sink, ?_⟩
    dsimp only
    rcases dialogue.client.link.write_cases unit with ⟨closed, -⟩ | accepted | ⟨-, same⟩
    · exact absurd (sink.symm.trans closed) nofun
    · rw [accepted]
      nofun
    · rw [same]
      nofun

private theorem Tied.run {acts : List Act} (tied : dialogue.Tied) (alone : dialogue.Alone acts) :
    (dialogue.run acts).Tied := by
  induction acts generalizing dialogue with
  | nil => exact tied
  | cons next rest ih =>
    apply ih (tied.act ?_)
    · intro earlier move later split
      exact alone (next :: earlier) move later (congrArg (next :: ·) split)
    · rintro move rfl
      exact alone [] move rest rfl

/-! ## What is left to handle -/

/-- What the router still takes up once the link is closed. -/
def due (dialogue : Dialogue) : List Message :=
  if dialogue.serving.free then
    Message.untilAsked (dialogue.client.codec.heard dialogue.client.link.queue.units)
  else []

private theorem due_act (closed : dialogue.client.link.Closed) (next : Act) :
    dialogue.due = dialogue.takenUp next ++ (dialogue.act next).due := by
  have codec := dialogue.codec_act next
  have step := dialogue.step_act next
  generalize dialogue.actTrail next = trail at step
  generalize dialogue.act next = after at step codec ⊢
  cases step with
  | still idle => rw [takenUp_of_idle idle, List.nil_append]
  | @near act stays =>
    have units : (dialogue.world.act act).client.link.queue.units =
        dialogue.client.link.queue.units := by
      by_cases linked : ∃ move, act = .link move
      · obtain ⟨move, rfl⟩ := linked
        exact (Link.after_units (stays move rfl)).1
      · exact Client.World.units_act closed.queue fun move same => linked ⟨move, same⟩
    unfold due
    rw [codec]
    simp only [takenUp, client, List.nil_append] at units ⊢
    rw [units]
  | pull pulling =>
    unfold due takenUp
    rw [codec, pulling]
    change Message.untilAsked _ = _ ++
      if (Serving.afterPull dialogue.client.codec dialogue.client.link.pull.1).free then
        Message.untilAsked
          (dialogue.client.codec.heard dialogue.client.link.pull.2.queue.units)
      else []
    rcases dialogue.client.link.pull_cases with
      ⟨unit, rest, units, taken⟩ | ⟨none, -, ended⟩ | ⟨none, -, same⟩
    · rw [taken, units]
      exact Message.untilAsked_heard _ unit rest
    · rw [ended, none]
      rfl
    · rw [same, none]
      rfl
  | @answer message outcome handling =>
    unfold due
    rw [handling]
    cases message <;> rfl
  | @write id outcome unit replying encoded =>
    unfold due
    rw [replying, closed.write_refused]
    rfl

private theorem due_run (closed : dialogue.client.link.Closed) (acts : List Act) :
    dialogue.due = dialogue.handled acts ++ (dialogue.run acts).due := by
  induction acts generalizing dialogue with
  | nil => rfl
  | cons next rest ih =>
    rw [due_act closed next, ih (closed_act closed next), handled, List.append_assoc]
    rfl

private theorem due_prefix (dialogue : Dialogue) :
    dialogue.due <+: dialogue.client.codec.heard dialogue.client.link.queue.units := by
  unfold due
  split
  · exact Message.untilAsked_prefix _
  · exact List.nil_prefix

/-- The router takes up some of the messages from the front, and all of them by its end. -/
structure Handles (dialogue : Dialogue) (acts : List Act) (messages : List Message) : Prop where
  front : dialogue.handled acts <+: messages
  through : (dialogue.run acts).serving = .finished → dialogue.handled acts = messages

private theorem handles_due (closed : dialogue.client.link.Closed) (acts : List Act) :
    dialogue.Handles acts dialogue.due := by
  have split := due_run closed acts
  refine ⟨⟨_, split.symm⟩, ?_⟩
  intro finished
  have nothing : (dialogue.run acts).due = [] := by
    rw [due, finished]
    rfl
  rw [split, nothing, List.append_nil]

/-! ## The router comes to its end -/

private theorem not_waits (closed : dialogue.client.link.Closed) : ¬ dialogue.Waits := by
  unfold Waits
  split
  · exact closed.pull_ready
  · rw [closed.write_refused]
    nofun
  · exact not_false
  · exact not_false

/-- The router's next move, where its handlers answer as told. -/
def turn (answers : Message → Outcome) (dialogue : Dialogue) : Dialogue :=
  match dialogue.serving with
  | .pulling => dialogue.act .pull
  | .handling message => dialogue.act (.answer (answers message))
  | .replying _ _ => dialogue.act .write
  | .finished => dialogue

/-- How many turns the router takes at most to its end, once the link is closed. -/
def left (dialogue : Dialogue) : Nat :=
  2 * dialogue.client.link.queue.size + dialogue.serving.turns

variable {answers : Message → Outcome}

private theorem closed_turn (closed : dialogue.client.link.Closed) :
    (dialogue.turn answers).client.link.Closed := by
  unfold turn
  split
  · exact closed_act closed _
  · exact closed_act closed _
  · exact closed_act closed _
  · exact closed

private theorem left_pull (closed : dialogue.client.link.Closed)
    (pulling : dialogue.serving = .pulling) :
    (dialogue.act .pull).left < dialogue.left := by
  have link : (dialogue.act .pull).client.link = dialogue.client.link.pull.2 := by
    rw [act_pull pulling]
    rfl
  have serving : (dialogue.act .pull).serving =
      .afterPull dialogue.client.codec dialogue.client.link.pull.1 := by
    rw [act_pull pulling]
  unfold left Queue.size
  rw [link, serving, pulling]
  rcases dialogue.client.link.pull_cases with
    ⟨unit, rest, units, taken⟩ | ⟨none, -, ended⟩ | ⟨-, opened, -⟩
  · rw [taken, units]
    have few := (Serving.afterPull dialogue.client.codec (.ready (some unit))).turns_le
    calc 2 * rest.length + (Serving.afterPull dialogue.client.codec (.ready (some unit))).turns
      _ ≤ 2 * rest.length + 2 := Nat.add_le_add_left few _
      _ < 2 * (rest.length + 1) + 1 := Nat.lt_add_one _
  · rw [ended, none]
    exact Nat.zero_lt_one
  · exact absurd (closed.queue.symm.trans opened) nofun

private theorem left_turn (closed : dialogue.client.link.Closed)
    (serves : dialogue.serving ≠ .finished) :
    (dialogue.turn answers).left < dialogue.left := by
  unfold turn
  cases serving : dialogue.serving with
  | pulling => exact left_pull closed serving
  | handling message =>
    dsimp only
    rw [act_answer serving, left, left, serving]
    exact Nat.add_lt_add_left (Serving.turns_afterHandler _ message) _
  | replying id outcome =>
    dsimp only
    rw [act_write serving, left, left, serving, closed.write_refused]
    exact Nat.add_lt_add_left Nat.one_pos _
  | finished => exact absurd serving serves

private theorem finished_turns (closed : dialogue.client.link.Closed) {count : Nat}
    (enough : dialogue.left ≤ count) : ((turn answers)^[count] dialogue).serving = .finished := by
  induction count generalizing dialogue with
  | zero =>
    have none : dialogue.serving.turns = 0 := by
      unfold left at enough
      omega
    cases serving : dialogue.serving with
    | finished => exact serving
    | pulling | handling | replying => simp [serving, Serving.turns] at none
  | succ count ih =>
    rw [Function.iterate_succ_apply]
    by_cases finished : dialogue.serving = .finished
    · have same : dialogue.turn answers = dialogue := by simp only [turn, finished]
      rw [same, Function.iterate_fixed same, finished]
    · apply ih (closed_turn closed)
      have fewer := @left_turn dialogue answers closed finished
      omega

/-! ## Sessions -/

/-- No request stands before a farewell: none is with the router, and none in the queue. -/
structure Clear (dialogue : Dialogue) : Prop where
  serving : dialogue.serving.free = true
  queue : ∀ message ∈ dialogue.client.codec.heard dialogue.client.link.queue.units,
    message.asks = false

/-- The farewell is due behind everything else where nothing stands before it; otherwise nothing is
due but what was before. -/
theorem due_parted {id : Id} {now : Duration} (parts : dialogue.world.Parts id now) :
    let parted := dialogue.act (.near (.poll id now))
    parted.client.link.Closed ∧
    (dialogue.Clear → parted.due =
      dialogue.client.codec.heard dialogue.client.link.queue.units ++
        [Call.exit.toNotification]) ∧
    (¬ dialogue.Clear → parted.due = dialogue.due) := by
  intro parted
  obtain ⟨-, link⟩ := parts.link
  have parting : parted.client.link = _ := link
  have codec : parted.client.codec = dialogue.client.codec := dialogue.codec_act _
  have serving : parted.serving = dialogue.serving := rfl
  have heard : parted.client.codec.heard parted.client.link.queue.units =
      dialogue.client.codec.heard dialogue.client.link.queue.units ++
        [Call.exit.toNotification] := by
    rw [codec, parting, ← Codec.heard_farewell dialogue.client.codec]
    exact List.flatMap_append
  refine ⟨parting ▸ Link.closed_close _, ?_, ?_⟩
  · intro clear
    rw [due, serving, clear.serving, heard, Message.untilAsked_append clear.queue]
    rfl
  · intro unclear
    rw [due, due, serving, heard]
    split
    · rename_i free
      apply Message.untilAsked_append_asked
      by_contra calm
      exact unclear ⟨free, by simpa using calm⟩
    · rfl

/-- A shutdown that returns well with its farewell in the queue finds the router serving. From then
on the router never waits, and it comes to its end whatever its handlers answer. By then it has
handled what stood in the queue, and the farewell once and last, unless a request stood before the
farewell: then it has handled nothing behind the first one. -/
theorem run_farewell (config : Config) (acts later : List Act) (id : Id) (now : Duration)
    (alone : (create config).Alone acts)
    (parts : ((create config).run acts).world.Parts id now) :
    let reached := (create config).run acts
    let ahead := reached.client.codec.heard reached.client.link.queue.units
    let parted := reached.act (.near (.poll id now))
    let ended := parted.run later
    reached.serving ≠ .finished ∧
    (reached.Clear → parted.Handles later (ahead ++ [Call.exit.toNotification])) ∧
    (¬ reached.Clear → parted.Handles later reached.due ∧ reached.due <+: ahead) ∧
    ¬ ended.Waits ∧
    ∀ answers, ((turn answers)^[ended.left] ended).serving = .finished := by
  intro reached ahead parted ended
  have tied : reached.Tied := Tied.run (fun _ => ⟨rfl, nofun⟩) alone
  obtain ⟨closed, clear, unclear⟩ := due_parted parts
  have handles := handles_due closed later
  have still := closed_run closed later
  refine ⟨(tied parts.link.1).2, ?_, ?_, not_waits still, ?_⟩
  · intro quiet
    rw [← clear quiet]
    exact handles
  · intro loud
    rw [unclear loud] at handles
    exact ⟨handles, reached.due_prefix⟩
  · intro answers
    exact finished_turns still (Nat.le_refl _)

theorem run_farewell_noted :
    let acts : List Act :=
      [.near .start, .near .shutdown, .pull, .answer (.ok .null), .write, .near .intake,
        .near (.call (.notify ⟨"note", .null⟩ fun _ => .skip))]
    let later : List Act :=
      [.pull, .answer (.ok .null), .near .intake, .pull, .answer (.ok .null), .pull]
    let reached := (create Config.default).run acts
    let parted := reached.act (.near (.poll (.nth 1) ⟨0⟩))
    ((create Config.default).Alone acts ∧ reached.world.Parts (.nth 1) ⟨0⟩ ∧ reached.Clear ∧
      (parted.run later).serving = .finished) ∧
    parted.handled later =
      [.notification "note" .null, Call.exit.toNotification] := by
  intro acts later reached parted
  have alone : (create Config.default).Alone acts := alone_of_own (by simp [acts])
  have parts : reached.world.Parts (.nth 1) ⟨0⟩ :=
    .of_answered (by decide +kernel) (by decide +kernel) (by decide +kernel) (by decide +kernel)
  have ahead : reached.client.codec.heard reached.client.link.queue.units =
      [.notification "note" .null] := by
    rfl
  have clear : reached.Clear := by
    refine ⟨rfl, ?_⟩
    rw [ahead]
    simp [Message.asks]
  have finished : (parted.run later).serving = .finished := by rfl
  obtain ⟨-, farewell, -⟩ := run_farewell Config.default acts later (.nth 1) ⟨0⟩ alone parts
  have handled := (farewell clear).through finished
  rw [ahead] at handled
  exact ⟨⟨alone, parts, clear, finished⟩, handled⟩

/-- A request that is queued before the farewell keeps the router from it. -/
theorem not_forall_farewell :
    ¬ ∀ (config : Config) (acts later : List Act) (id : Id) (now : Duration),
      (create config).Alone acts → ((create config).run acts).world.Parts id now →
      let whole := acts ++ .near (.poll id now) :: later
      ((create config).run whole).serving = .finished →
      Call.exit.toNotification ∈ (create config).handled whole := by
  intro all
  let acts : List Act :=
    [.near .start, .near .shutdown, .pull, .answer (.ok .null), .write, .near .intake,
      .near (.call (.request ⟨"late", .null⟩ fun _ => .skip))]
  let later : List Act := [.pull, .answer (.ok .null), .write]
  have alone : (create Config.default).Alone acts := alone_of_own (by simp [acts])
  let reached := (create Config.default).run acts
  have parts : reached.world.Parts (.nth 1) ⟨0⟩ :=
    .of_answered (by decide +kernel) (by decide +kernel) (by decide +kernel) (by decide +kernel)
  have finished : ((create Config.default).run
      (acts ++ .near (.poll (.nth 1) ⟨0⟩) :: later)).serving = .finished := by
    rfl
  have handled : (create Config.default).handled (acts ++ .near (.poll (.nth 1) ⟨0⟩) :: later) =
      [Call.shutdown.toRequest (.nth 1), .request (.nth 2) "late" .null] := by
    rfl
  have member := all Config.default acts later (.nth 1) ⟨0⟩ alone parts finished
  rw [handled] at member
  simp [Call.toNotification, Call.toRequest] at member

end Dialogue

end Airlock
