import Airlock.Channel.Sink

/-!
# Delivery through the sink

Any number of calls for writing and reading go on at the same time. A call is polled at any moment
until it is answered, or it is dropped before. In between the sink is closed and aborted, in any
order and repeatedly, and handles of both sides come and go. The history lists all of it.

The answer to a poll is a function of the history (`Call.due`), so nothing else about the order in
which calls are polled matters. Every event of a run follows from the events before it
(`Event.Follows`), and the units in the sink are the accepted ones that nobody has read.
-/

set_option autoImplicit false

namespace Airlock.Sink

/-! ## Calls in progress -/

inductive Call where
  | write (unit : Bytes)
  | read

inductive Event where
  | begun (ticket : Nat) (call : Call)
  | accepted (ticket : Nat) (unit : Bytes)
  | refused (ticket : Nat) (error : Error)
  | delivered (ticket : Nat) (unit : Bytes)
  /-- a read was told that nothing more comes -/
  | ended (ticket : Nat)
  | failed (ticket : Nat) (error : Error)
  | dropped (ticket : Nat)
  | closed
  | aborted (reason : String)

/-- What happened to a sink, the newest first. -/
abbrev History := List Event

/-- One poll of a call; it is answered unless it has to wait. -/
def Call.poll (call : Call) (ticket : Nat) (sink : Sink) : Option Event × Sink :=
  match call with
  | .write unit =>
    match sink.write unit with
    | (.ready (.ok ()), after) => (some (.accepted ticket unit), after)
    | (.ready (.error error), after) => (some (.refused ticket error), after)
    | (.waiting, after) => (none, after)
  | .read =>
    match sink.read with
    | (.ready (.ok (some unit)), after) => (some (.delivered ticket unit), after)
    | (.ready (.ok none), after) => (some (.ended ticket), after)
    | (.ready (.error error), after) => (some (.failed ticket error), after)
    | (.waiting, after) => (none, after)

structure World where
  sink : Sink
  /-- the calls that are neither answered nor dropped -/
  waiting? : Nat → Option Call := fun _ => none
  tickets : Nat := 0
  events : History := []

inductive Act where
  | begin (call : Call)
  | poll (ticket : Nat)
  | drop (ticket : Nat)
  | close
  | abort (reason : String)
  | addWriter
  | dropWriter
  | addReader
  | dropReader

namespace World

def create (highWaterMark : Nat) : World :=
  { sink := Sink.create highWaterMark }

def finish (world : World) (ticket : Nat) (event : Event) (sink : Sink) : World :=
  { world with
    sink
    waiting? := fun other => if other = ticket then none else world.waiting? other
    events := event :: world.events }

/-- The sink closes, or was closed already. -/
def shut (world : World) (sink : Sink) : World :=
  { world with sink, events := .closed :: world.events }

def act (world : World) : Act → World
  | .begin call =>
    { world with
      waiting? := fun other => if other = world.tickets then some call else world.waiting? other
      tickets := world.tickets + 1
      events := .begun world.tickets call :: world.events }
  | .poll ticket =>
    match world.waiting? ticket with
    | some call =>
      match call.poll ticket world.sink with
      | (some event, after) => world.finish ticket event after
      | (none, after) => { world with sink := after }
    | none => world
  | .drop ticket =>
    match world.waiting? ticket with
    | some _ => world.finish ticket (.dropped ticket) world.sink
    | none => world
  | .close => world.shut world.sink.close.2
  | .abort reason =>
    { world with sink := world.sink.abort reason, events := .aborted reason :: world.events }
  | .addWriter => { world with sink := world.sink.addWriter }
  | .dropWriter =>
    if world.sink.writers ≤ 1 then world.shut world.sink.dropWriter
    else { world with sink := world.sink.dropWriter }
  | .addReader => { world with sink := world.sink.addReader }
  | .dropReader =>
    if world.sink.readers ≤ 1 then world.shut world.sink.dropReader
    else { world with sink := world.sink.dropReader }

def run (world : World) (acts : List Act) : World :=
  acts.foldl act world

end World

/-! ## What a history tells -/

/-- The call that an event is the last of. -/
def Event.concluded? : Event → Option Nat
  | .accepted ticket _ | .refused ticket _ | .delivered ticket _ | .ended ticket
  | .failed ticket _ | .dropped ticket => some ticket
  | .begun .. | .closed | .aborted _ => none

namespace History

def concluded (history : History) : List Nat :=
  history.filterMap Event.concluded?

/-- The accepted writes, the oldest first. -/
def accepted : History → List (Nat × Bytes)
  | [] => []
  | .accepted ticket unit :: earlier => accepted earlier ++ [(ticket, unit)]
  | _ :: earlier => accepted earlier

def delivered : History → List Bytes
  | [] => []
  | .delivered _ unit :: earlier => delivered earlier ++ [unit]
  | _ :: earlier => delivered earlier

def shut : History → Bool
  | [] => false
  | .closed :: _ | .aborted _ :: _ => true
  | _ :: earlier => shut earlier

/-- The reason of the first abort. -/
def abortReason? : History → Option String
  | [] => none
  | .aborted reason :: earlier => (abortReason? earlier).or (some reason)
  | _ :: earlier => abortReason? earlier

/-- The error of a write to a sink that is shut. -/
def refusal (history : History) : Error :=
  match history.abortReason? with
  | some reason => .aborted reason
  | none => .closed

/-- A call has begun and is not over. -/
structure Awaits (history : History) (ticket : Nat) (call : Call) : Prop where
  begun : .begun ticket call ∈ history
  unsettled : ticket ∉ history.concluded

end History

/-- What a call is answered, if it is answered now. -/
def Call.due (call : Call) (ticket highWaterMark : Nat) (history : History) : Option Event :=
  match call with
  | .write unit =>
    if history.shut then some (.refused ticket history.refusal)
    else if history.accepted.length < history.delivered.length + max highWaterMark 1 then
      some (.accepted ticket unit)
    else none
  | .read =>
    match history.abortReason? with
    | some reason => some (.failed ticket (.aborted reason))
    | none =>
      match history.accepted.drop history.delivered.length with
      | (_, unit) :: _ => some (.delivered ticket unit)
      | [] => if history.shut then some (.ended ticket) else none

def Event.Follows (highWaterMark : Nat) (earlier : History) : Event → Prop
  | .begun ticket _ => ∀ call, .begun ticket call ∉ earlier
  | .accepted ticket unit =>
    earlier.Awaits ticket (.write unit) ∧ earlier.shut = false ∧
      earlier.accepted.length < earlier.delivered.length + max highWaterMark 1
  | .refused ticket error =>
    (∃ unit, earlier.Awaits ticket (.write unit)) ∧ earlier.shut = true ∧
      error = earlier.refusal
  | .delivered ticket unit =>
    earlier.Awaits ticket .read ∧ earlier.abortReason? = none ∧
      earlier.delivered ++ [unit] <+: earlier.accepted.map Prod.snd
  | .ended ticket =>
    earlier.Awaits ticket .read ∧ earlier.abortReason? = none ∧ earlier.shut = true ∧
      earlier.delivered = earlier.accepted.map Prod.snd
  | .failed ticket error =>
    earlier.Awaits ticket .read ∧
      ∃ reason, earlier.abortReason? = some reason ∧ error = .aborted reason
  | .dropped ticket => ∃ call, earlier.Awaits ticket call
  | .closed | .aborted _ => True

/-- Every event follows from those before it. -/
def History.Lawful (highWaterMark : Nat) : History → Prop
  | [] => True
  | event :: earlier => event.Follows highWaterMark earlier ∧ Lawful highWaterMark earlier

/-! ## The sink reflects its history -/

variable {highWaterMark : Nat}

/-- What a sink and its calls have in common with the history. -/
structure Reflects (highWaterMark : Nat) (history : History) (sink : Sink) : Prop where
  capacity : sink.capacity = max highWaterMark 1
  bounded : sink.size ≤ max highWaterMark 1
  closed : sink.closed = history.shut
  reason : sink.abortReason? = history.abortReason?
  inOrder : history.delivered <+: history.accepted.map Prod.snd
  kept : history.abortReason? = none →
    history.accepted.map Prod.snd = history.delivered ++ sink.units
  sound : history.shut = false → history.abortReason? = none

private theorem Reflects.refusal {history : History} {sink : Sink}
    (reflects : Reflects highWaterMark history sink) : sink.refusal = history.refusal := by
  unfold Sink.refusal History.refusal
  have reason := reflects.reason
  cases aborted : history.abortReason? with
  | none => simp [reason, aborted]
  | some first => simp [reason, aborted]

private theorem Reflects.room {history : History} {sink : Sink}
    (reflects : Reflects highWaterMark history sink) (whole : history.abortReason? = none) :
    history.accepted.length = history.delivered.length + sink.size := by
  have lengths := congrArg List.length (reflects.kept whole)
  simpa [Sink.size] using lengths

private theorem Reflects.write {history : History} {sink : Sink} (ticket : Nat) (unit : Bytes)
    (reflects : Reflects highWaterMark history sink) :
    ((Call.write unit).poll ticket sink).1 = (Call.write unit).due ticket highWaterMark history ∧
      Reflects highWaterMark
        (((Call.write unit).due ticket highWaterMark history).toList ++ history)
        ((Call.write unit).poll ticket sink).2 := by
  cases shut : history.shut with
  | true =>
    have written : sink.write unit = (.ready (.error history.refusal), sink) := by
      simp [Sink.write, reflects.closed, shut, reflects.refusal]
    simp only [Call.poll, Call.due, written, shut, if_true, true_and]
    exact { reflects with }
  | false =>
    have whole := reflects.sound shut
    have room : sink.size < max highWaterMark 1 ↔
        history.accepted.length < history.delivered.length + max highWaterMark 1 := by
      rw [reflects.room whole]
      omega
    simp only [Call.poll, Call.due, Sink.write, reflects.closed, reflects.capacity, shut, ← room,
      Bool.false_eq_true, if_false]
    by_cases free : sink.size < max highWaterMark 1
    · simp only [free, if_true, true_and]
      exact {
        capacity := rfl
        bounded := by simpa [Sink.size] using Nat.succ_le_of_lt free
        closed := shut.symm
        reason := reflects.reason
        inOrder := reflects.inOrder.trans (by simp [History.accepted])
        kept := fun _ => by simp [History.accepted, History.delivered, reflects.kept whole]
        sound := reflects.sound }
    · simp only [free, if_false, true_and]
      exact reflects

private theorem Reflects.read {history : History} {sink : Sink} (ticket : Nat)
    (reflects : Reflects highWaterMark history sink) :
    (Call.read.poll ticket sink).1 = Call.read.due ticket highWaterMark history ∧
      Reflects highWaterMark ((Call.read.due ticket highWaterMark history).toList ++ history)
        (Call.read.poll ticket sink).2 := by
  cases aborted : history.abortReason? with
  | some reason =>
    simp only [Call.poll, Call.due, Sink.read, reflects.reason, aborted, true_and]
    exact {
      capacity := reflects.capacity
      bounded := Nat.zero_le _
      closed := reflects.closed
      reason := aborted.symm
      inOrder := reflects.inOrder
      kept := fun whole => nomatch aborted.symm.trans whole
      sound := reflects.sound }
  | none =>
    have kept := reflects.kept aborted
    have rest : (history.accepted.drop history.delivered.length).map Prod.snd = sink.units := by
      rw [List.map_drop, kept, List.drop_left]
    cases units : sink.units with
    | nil =>
      rw [units, List.map_eq_nil_iff] at rest
      simp only [Call.poll, Call.due, Sink.read, reflects.reason, aborted, units, rest,
        reflects.closed]
      cases shut : history.shut with
      | true => exact ⟨rfl, { reflects with }⟩
      | false => exact ⟨rfl, reflects⟩
    | cons unit others =>
      obtain ⟨entry, later, split, rfl, -⟩ := List.map_eq_cons_iff.mp (rest.trans units)
      rw [units] at kept
      simp only [Call.poll, Call.due, Sink.read, reflects.reason, aborted, units, split, true_and]
      exact {
        capacity := reflects.capacity
        bounded := by
          have bounded := reflects.bounded
          simp only [Sink.size, units, List.length_cons] at bounded ⊢
          omega
        closed := reflects.closed
        reason := aborted.symm
        inOrder := by simp [History.accepted, History.delivered, kept]
        kept := fun _ => by simp [History.accepted, History.delivered, kept]
        sound := reflects.sound }

private theorem Reflects.poll {history : History} {sink : Sink} (call : Call) (ticket : Nat)
    (reflects : Reflects highWaterMark history sink) :
    (call.poll ticket sink).1 = call.due ticket highWaterMark history ∧
      Reflects highWaterMark ((call.due ticket highWaterMark history).toList ++ history)
        (call.poll ticket sink).2 :=
  match call with
  | .write unit => reflects.write ticket unit
  | .read => reflects.read ticket

/-! ## Steps -/

variable {history : History} {world : World}

private theorem History.Lawful.nodup_concluded (lawful : history.Lawful highWaterMark) :
    history.concluded.Nodup := by
  induction history with
  | nil => exact List.nodup_nil
  | cons event earlier ih =>
    obtain ⟨follows, before⟩ := lawful
    cases event with
    | begun | closed | aborted => exact ih before
    | accepted | delivered | ended | failed =>
      exact List.nodup_cons.mpr ⟨follows.1.unsettled, ih before⟩
    | refused =>
      obtain ⟨⟨_, awaits⟩, -⟩ := follows
      exact List.nodup_cons.mpr ⟨awaits.unsettled, ih before⟩
    | dropped =>
      obtain ⟨_, awaits⟩ := follows
      exact List.nodup_cons.mpr ⟨awaits.unsettled, ih before⟩

private theorem History.accepted_subset_concluded {ticket : Nat}
    (accepted : ticket ∈ history.accepted.map Prod.fst) : ticket ∈ history.concluded := by
  induction history with
  | nil => cases accepted
  | cons event earlier ih =>
    cases event with
    | accepted other unit =>
      simp only [History.accepted, List.map_append, List.map_cons, List.map_nil, List.mem_append,
        List.mem_singleton] at accepted
      rcases accepted with before | rfl
      · exact List.mem_cons_of_mem _ (ih before)
      · exact List.mem_cons_self
    | begun | closed | aborted => exact ih accepted
    | refused | delivered | ended | failed | dropped => exact List.mem_cons_of_mem _ (ih accepted)

private theorem History.Lawful.spared {ticket : Nat} {error : Error}
    (lawful : history.Lawful highWaterMark) (refused : .refused ticket error ∈ history) :
    ticket ∉ history.accepted.map Prod.fst := by
  induction history with
  | nil => cases refused
  | cons event earlier ih =>
    obtain ⟨follows, before⟩ := lawful
    rcases List.mem_cons.mp refused with rfl | sooner
    · obtain ⟨⟨_, awaits⟩, -⟩ := follows
      exact fun accepted => awaits.unsettled (accepted_subset_concluded accepted)
    · have spared := ih before sooner
      cases event with
      | accepted other unit =>
        have settled : ticket ∈ History.concluded earlier :=
          List.mem_filterMap.mpr ⟨.refused ticket error, sooner, rfl⟩
        have different : ticket ≠ other := fun same => follows.1.unsettled (same ▸ settled)
        simpa [History.accepted, different] using spared
      | begun | closed | aborted | refused | delivered | ended | failed | dropped => exact spared

/-- What is due to a call that goes on may happen. -/
theorem Call.due_follows {call : Call} {ticket : Nat} {event : Event}
    (awaits : history.Awaits ticket call)
    (inOrder : history.delivered <+: history.accepted.map Prod.snd)
    (due : call.due ticket highWaterMark history = some event) :
    event.concluded? = some ticket ∧ event.Follows highWaterMark history := by
  cases call with
  | write unit =>
    unfold Call.due at due
    dsimp only at due
    split at due
    next shut =>
      cases due
      exact ⟨rfl, ⟨unit, awaits⟩, shut, rfl⟩
    next unshut =>
      split at due
      next room =>
        cases due
        exact ⟨rfl, awaits, by simpa using unshut, room⟩
      next => cases due
  | read =>
    unfold Call.due at due
    dsimp only at due
    split at due
    next reason aborted =>
      cases due
      exact ⟨rfl, awaits, reason, aborted, rfl⟩
    next unaborted =>
      obtain ⟨rest, split⟩ := inOrder
      have later : (history.accepted.drop history.delivered.length).map Prod.snd = rest := by
        rw [List.map_drop, ← split, List.drop_left]
      split at due
      next entry unit others next =>
        cases due
        rw [next] at later
        refine ⟨rfl, awaits, unaborted, others.map Prod.snd, ?_⟩
        rw [← split, ← later, List.map_cons, List.append_assoc, List.singleton_append]
      next none =>
        split at due
        next shut =>
          cases due
          rw [none] at later
          refine ⟨rfl, awaits, unaborted, shut, ?_⟩
          rw [← split, ← later, List.map_nil, List.append_nil]
        next => cases due

/-- The sink, the calls in progress and the tickets agree with a lawful history. -/
structure Tracks (highWaterMark : Nat) (world : World) : Prop where
  reflects : Reflects highWaterMark world.events world.sink
  waiting : ∀ ticket call, world.waiting? ticket = some call ↔ world.events.Awaits ticket call
  begun : ∀ ticket call, .begun ticket call ∈ world.events → ticket < world.tickets
  concluded : ∀ ticket ∈ world.events.concluded, ticket < world.tickets
  lawful : world.events.Lawful highWaterMark

private theorem tracks_create (highWaterMark : Nat) :
    Tracks highWaterMark (World.create highWaterMark) where
  reflects :=
    { capacity := rfl
      bounded := Nat.zero_le _
      closed := rfl
      reason := rfl
      inOrder := List.prefix_refl _
      kept := fun _ => rfl
      sound := fun _ => rfl }
  waiting := by
    intro ticket call
    exact ⟨nofun, fun awaits => nomatch awaits.begun⟩
  begun := nofun
  concluded := nofun
  lawful := trivial

private theorem Tracks.finish {ticket : Nat} {call : Call} {event : Event} {after : Sink}
    (tracks : Tracks highWaterMark world) (awaits : world.events.Awaits ticket call)
    (concluded : event.concluded? = some ticket)
    (follows : event.Follows highWaterMark world.events)
    (reflects : Reflects highWaterMark (event :: world.events) after) :
    Tracks highWaterMark (world.finish ticket event after) where
  reflects := reflects
  waiting := by
    have settled :
        History.concluded (event :: world.events) = ticket :: world.events.concluded := by
      simp [History.concluded, concluded]
    intro other otherCall
    -- A call goes on if it went on before and is not the one that is over now.
    constructor
    · intro waiting
      simp only [World.finish, Option.ite_none_left_eq_some] at waiting
      obtain ⟨different, waiting⟩ := waiting
      have before := (tracks.waiting other otherCall).mp waiting
      refine ⟨List.mem_cons_of_mem _ before.begun, ?_⟩
      rw [World.finish, settled, List.mem_cons]
      exact fun one => one.elim different before.unsettled
    · rintro ⟨begun, unsettled⟩
      rw [World.finish, settled, List.mem_cons, not_or] at unsettled
      have earlier : .begun other otherCall ∈ world.events := by
        rcases List.mem_cons.mp begun with same | earlier
        · rw [← same] at concluded
          cases concluded
        · exact earlier
      simp only [World.finish, unsettled.1, if_false]
      exact (tracks.waiting other otherCall).mpr ⟨earlier, unsettled.2⟩
  begun := by
    intro other otherCall begun
    rcases List.mem_cons.mp begun with same | earlier
    · rw [← same] at concluded
      cases concluded
    · exact tracks.begun other otherCall earlier
  concluded := by
    intro other member
    simp only [World.finish, History.concluded, List.filterMap_cons, concluded,
      List.mem_cons] at member
    rcases member with rfl | earlier
    · exact tracks.begun other call awaits.begun
    · exact tracks.concluded other earlier
  lawful := ⟨follows, tracks.lawful⟩

private theorem Tracks.note {event : Event} {after : Sink} (tracks : Tracks highWaterMark world)
    (shuts : event = .closed ∨ ∃ reason, event = .aborted reason)
    (reflects : Reflects highWaterMark (event :: world.events) after) :
    Tracks highWaterMark { world with sink := after, events := event :: world.events } := by
  have same : History.concluded (event :: world.events) = world.events.concluded := by
    obtain rfl | ⟨reason, rfl⟩ := shuts <;> rfl
  have earlier : ∀ ticket call, .begun ticket call ∈ event :: world.events ↔
      .begun ticket call ∈ world.events := by
    obtain rfl | ⟨reason, rfl⟩ := shuts <;> simp
  exact {
    reflects
    waiting := by
      intro ticket call
      rw [tracks.waiting]
      constructor
      · exact fun awaits => ⟨(earlier ticket call).mpr awaits.begun, same ▸ awaits.unsettled⟩
      · exact fun awaits => ⟨(earlier ticket call).mp awaits.begun, same ▸ awaits.unsettled⟩
    begun := fun ticket call member => tracks.begun ticket call ((earlier ticket call).mp member)
    concluded := fun ticket member => tracks.concluded ticket (same ▸ member)
    lawful := ⟨by obtain rfl | ⟨reason, rfl⟩ := shuts <;> trivial, tracks.lawful⟩ }

private theorem Tracks.begin (call : Call) (tracks : Tracks highWaterMark world) :
    Tracks highWaterMark (world.act (.begin call)) where
  reflects := { tracks.reflects with }
  waiting := by
    intro ticket other
    by_cases new : ticket = world.tickets
    · subst new
      simp only [World.act, if_true, Option.some.injEq]
      constructor
      · rintro rfl
        exact ⟨List.mem_cons_self, fun settled => Nat.lt_irrefl _ (tracks.concluded _ settled)⟩
      · rintro ⟨begun, -⟩
        rcases List.mem_cons.mp begun with same | earlier
        · cases same
          rfl
        · exact absurd (tracks.begun _ _ earlier) (Nat.lt_irrefl _)
    · simp only [World.act, new, if_false, tracks.waiting]
      constructor
      · exact fun ⟨begun, unsettled⟩ => ⟨List.mem_cons_of_mem _ begun, unsettled⟩
      · rintro ⟨begun, unsettled⟩
        refine ⟨?_, unsettled⟩
        rcases List.mem_cons.mp begun with same | earlier
        · cases same
          exact absurd rfl new
        · exact earlier
  begun := by
    intro ticket other begun
    rcases List.mem_cons.mp begun with same | earlier
    · cases same
      exact Nat.lt_succ_self _
    · exact Nat.lt_succ_of_lt (tracks.begun ticket other earlier)
  concluded := fun ticket member => Nat.lt_succ_of_lt (tracks.concluded ticket member)
  lawful :=
    ⟨fun other begun => Nat.lt_irrefl _ (tracks.begun _ other begun), tracks.lawful⟩

private theorem Tracks.poll {ticket : Nat} {call : Call} (tracks : Tracks highWaterMark world)
    (awaits : world.events.Awaits ticket call) :
    (world.act (.poll ticket)).events =
        (call.due ticket highWaterMark world.events).toList ++ world.events ∧
      Tracks highWaterMark (world.act (.poll ticket)) := by
  obtain ⟨answer, reflects⟩ := tracks.reflects.poll call ticket
  simp only [World.act, (tracks.waiting ticket call).mpr awaits]
  rcases polled : call.poll ticket world.sink with ⟨event?, after⟩
  rw [polled] at answer reflects
  subst answer
  cases due : call.due ticket highWaterMark world.events with
  | none =>
    rw [due] at reflects
    exact ⟨rfl, { tracks with reflects }⟩
  | some event =>
    rw [due] at reflects
    obtain ⟨concluded, follows⟩ := Call.due_follows awaits tracks.reflects.inOrder due
    exact ⟨rfl, tracks.finish awaits concluded follows reflects⟩

private theorem Tracks.shut {after : Sink} (tracks : Tracks highWaterMark world)
    (closed : after.closed = true) (capacity : after.capacity = world.sink.capacity)
    (units : after.units = world.sink.units)
    (reason : after.abortReason? = world.sink.abortReason?) :
    Tracks highWaterMark (world.shut after) := by
  have reflects := tracks.reflects
  refine tracks.note (.inl rfl) ?_
  exact {
    capacity := capacity.trans reflects.capacity
    bounded := by simpa [Sink.size, units] using reflects.bounded
    closed
    reason := reason.trans reflects.reason
    inOrder := reflects.inOrder
    kept := fun whole => units ▸ reflects.kept whole
    sound := nofun }

private theorem Tracks.abort (reason : String) (tracks : Tracks highWaterMark world) :
    Tracks highWaterMark (world.act (.abort reason)) := by
  have reflects := tracks.reflects
  refine tracks.note (.inr ⟨reason, rfl⟩) ?_
  exact {
    capacity := reflects.capacity
    bounded := reflects.bounded
    closed := rfl
    reason := congrArg (·.or (some reason)) reflects.reason
    inOrder := reflects.inOrder
    kept := by
      intro whole
      simp [History.abortReason?] at whole
    sound := nofun }

private theorem Tracks.act (tracks : Tracks highWaterMark world) (act : Act) :
    Tracks highWaterMark (world.act act) := by
  have reflects := tracks.reflects
  cases act with
  | begin call => exact tracks.begin call
  | poll ticket =>
    cases waiting : world.waiting? ticket with
    | some call => exact (tracks.poll ((tracks.waiting ticket call).mp waiting)).2
    | none =>
      simp only [World.act, waiting]
      exact tracks
  | drop ticket =>
    cases waiting : world.waiting? ticket with
    | some call =>
      have awaits := (tracks.waiting ticket call).mp waiting
      simp only [World.act, waiting]
      exact tracks.finish awaits rfl ⟨call, awaits⟩ { reflects with }
    | none =>
      simp only [World.act, waiting]
      exact tracks
  | close => exact tracks.shut rfl rfl rfl rfl
  | abort reason => exact tracks.abort reason
  | addWriter | addReader => exact { tracks with reflects := { reflects with } }
  | dropWriter =>
    by_cases last : world.sink.writers ≤ 1
    · simp only [World.act, last, if_true]
      exact tracks.shut (by simp [dropWriter, last]) rfl rfl rfl
    · simp only [World.act, last, if_false]
      exact { tracks with
        reflects := { reflects with closed := by simpa [dropWriter, last] using reflects.closed } }
  | dropReader =>
    by_cases last : world.sink.readers ≤ 1
    · simp only [World.act, last, if_true]
      exact tracks.shut (by simp [dropReader, last]) rfl rfl rfl
    · simp only [World.act, last, if_false]
      exact { tracks with
        reflects := { reflects with closed := by simpa [dropReader, last] using reflects.closed } }

/-! ## Runs -/

private theorem Tracks.run (tracks : Tracks highWaterMark world) (acts : List Act) :
    Tracks highWaterMark (world.run acts) := by
  induction acts generalizing world with
  | nil => exact tracks
  | cons act rest ih => exact ih (tracks.act act)

/-- What a sink promises at any moment of any run. -/
structure Faithful (highWaterMark : Nat) (world : World) : Prop where
  bounded : world.sink.size ≤ max highWaterMark 1
  headroom : world.sink.desiredSize + world.sink.size = max highWaterMark 1
  /-- nothing is lost, doubled or moved, as long as nobody aborts -/
  lossless : world.events.abortReason? = none →
    world.events.delivered ++ world.sink.units = world.events.accepted.map Prod.snd
  inOrder : world.events.delivered <+: world.events.accepted.map Prod.snd
  /-- no call is over twice -/
  once : world.events.concluded.Nodup
  /-- a write that fails is never among those that are read -/
  spared : ∀ ticket error, .refused ticket error ∈ world.events →
    ticket ∉ world.events.accepted.map Prod.fst
  lawful : world.events.Lawful highWaterMark
  /-- a call that goes on gets, at a poll, what is due to it -/
  answers : ∀ ticket call, world.events.Awaits ticket call →
    (world.act (.poll ticket)).events =
      (call.due ticket highWaterMark world.events).toList ++ world.events

theorem World.run_faithful (highWaterMark : Nat) (acts : List Act) :
    Faithful highWaterMark ((create highWaterMark).run acts) := by
  have tracks := (tracks_create highWaterMark).run acts
  have reflects := tracks.reflects
  exact {
    bounded := reflects.bounded
    headroom := by
      have bounded := reflects.bounded
      rw [desiredSize, reflects.capacity]
      omega
    lossless := fun whole => (reflects.kept whole).symm
    inOrder := reflects.inOrder
    once := tracks.lawful.nodup_concluded
    spared := fun _ _ refused => tracks.lawful.spared refused
    lawful := tracks.lawful
    answers := fun ticket call awaits => (tracks.poll awaits).1 }

end Airlock.Sink
