import Airlock.Channel.Queue

/-!
# Transit through the queue

Any number of producers put units in while any number of pulls go on, suspended or not. In between
units are taken without waiting, either side closes the queue, and handles of both sides come and
go. The history lists all of it.

What comes of an act is a function of the history (`Act.due`), so neither the order in which
suspended pulls are polled nor the producer that a unit comes from matters. Every event of a run
follows from the events before it (`Event.Follows`), and the units in the queue are the accepted
ones that nobody has taken.
-/

set_option autoImplicit false

namespace Airlock.Queue

/-! ## Acts and events -/

inductive Side where
  | producer
  | reader
  deriving DecidableEq

inductive Event where
  | enqueued (producer : Nat) (unit : Bytes)
  | refused (producer : Nat) (error : Error)
  | pulled (call : Nat) (unit : Bytes)
  /-- a pull has to be polled again -/
  | suspended (call : Nat)
  /-- a pull was told that nothing more comes -/
  | ended (call : Nat)
  | tried (unit? : Option Bytes)
  | streamed (units : List Bytes)
  /-- a call to close, and whether it was told that the queue had been open -/
  | closed (side : Side) (first : Bool)
  | joined (side : Side)
  | left (side : Side)

/-- What happened to a queue, the newest first. -/
abbrev History := List Event

inductive Act where
  | enqueue (producer : Nat) (unit : Bytes)
  /-- a pull is polled, for the first time or again -/
  | poll (call : Nat)
  | tryPull
  | takeAll
  | close (side : Side)
  | join (side : Side)
  | leave (side : Side)

def Act.perform (queue : Queue) : Act → Event × Queue
  | .enqueue producer unit =>
    match queue.enqueue unit with
    | .ok after => (.enqueued producer unit, after)
    | .error error => (.refused producer error, queue)
  | .poll call =>
    match queue.pull with
    | (.ready (some unit), after) => (.pulled call unit, after)
    | (.ready none, after) => (.ended call, after)
    | (.waiting, after) => (.suspended call, after)
  | .tryPull => (.tried queue.tryPull.1, queue.tryPull.2)
  | .takeAll => (.streamed queue.takeAll.1, queue.takeAll.2)
  | .close side => (.closed side queue.close.1, queue.close.2)
  | .join .producer => (.joined .producer, queue.addProducer)
  | .join .reader => (.joined .reader, queue.addReader)
  | .leave .producer => (.left .producer, queue.dropProducer)
  | .leave .reader => (.left .reader, queue.dropReader)

structure World where
  queue : Queue := {}
  events : History := []

namespace World

def act (world : World) (act : Act) : World :=
  let (event, queue) := act.perform world.queue
  { queue, events := event :: world.events }

def run (world : World) (acts : List Act) : World :=
  acts.foldl World.act world

end World

/-! ## What a history tells -/

namespace History

/-- The units that went in with their producers, the oldest first. -/
def accepted : History → List (Nat × Bytes)
  | [] => []
  | .enqueued producer unit :: earlier => accepted earlier ++ [(producer, unit)]
  | _ :: earlier => accepted earlier

def units (history : History) : List Bytes :=
  history.accepted.map Prod.snd

/-- The units that came out by whatever means, the oldest first. -/
def taken : History → List Bytes
  | [] => []
  | .pulled _ unit :: earlier | .tried (some unit) :: earlier => taken earlier ++ [unit]
  | .streamed units :: earlier => taken earlier ++ units
  | _ :: earlier => taken earlier

/-- The units that are still to come out. -/
def rest (history : History) : List Bytes :=
  history.units.drop history.taken.length

/-- What the calls to close were told, the oldest first. -/
def verdicts : History → List Bool
  | [] => []
  | .closed _ first :: earlier => verdicts earlier ++ [first]
  | _ :: earlier => verdicts earlier

def handles (side : Side) : History → Nat
  | [] => 1
  | .joined other :: earlier =>
    if other = side then handles side earlier + 1 else handles side earlier
  | .left other :: earlier =>
    if other = side then handles side earlier - 1 else handles side earlier
  | _ :: earlier => handles side earlier

/-- A side has dropped its last handle. -/
def abandoned : History → Bool
  | [] => false
  | .left side :: earlier => abandoned earlier || handles side earlier ≤ 1
  | _ :: earlier => abandoned earlier

def shut (history : History) : Bool :=
  !history.verdicts.isEmpty || history.abandoned

end History

def Act.due (history : History) : Act → Event
  | .enqueue producer unit =>
    if history.shut then .refused producer .closed else .enqueued producer unit
  | .poll call =>
    match history.rest with
    | unit :: _ => .pulled call unit
    | [] => if history.shut then .ended call else .suspended call
  | .tryPull => .tried history.rest.head?
  | .takeAll => .streamed history.rest
  | .close side => .closed side !history.shut
  | .join side => .joined side
  | .leave side => .left side

def Event.Follows (earlier : History) : Event → Prop
  | .enqueued .. => earlier.shut = false
  | .refused _ error => earlier.shut = true ∧ error = .closed
  | .pulled _ unit | .tried (some unit) => earlier.taken ++ [unit] <+: earlier.units
  | .suspended _ => earlier.shut = false ∧ earlier.taken = earlier.units
  | .ended _ => earlier.shut = true ∧ earlier.taken = earlier.units
  | .tried none => earlier.taken = earlier.units
  | .streamed units => earlier.taken ++ units = earlier.units
  | .closed _ first => first = !earlier.shut
  | .joined _ | .left _ => True

/-- Every event follows from those before it. -/
def History.Lawful : History → Prop
  | [] => True
  | event :: earlier => event.Follows earlier ∧ Lawful earlier

/-! ## The queue reflects its history -/

/-- What a queue has in common with the history. -/
structure Reflects (history : History) (queue : Queue) : Prop where
  units : history.taken ++ queue.units = history.units
  closed : queue.closed = history.shut
  producers : queue.producers = history.handles .producer
  readers : queue.readers = history.handles .reader

variable {history : History} {queue : Queue} {world : World}

private theorem Reflects.rest (reflects : Reflects history queue) : history.rest = queue.units := by
  rw [History.rest, ← reflects.units, List.drop_left]

private theorem Reflects.enqueue (producer : Nat) (unit : Bytes)
    (reflects : Reflects history queue) :
    ((Act.enqueue producer unit).perform queue).1 = (Act.enqueue producer unit).due history ∧
      Reflects ((Act.enqueue producer unit).due history :: history)
        ((Act.enqueue producer unit).perform queue).2 := by
  cases shut : history.shut with
  | true =>
    simp only [Act.perform, Act.due, Queue.enqueue, reflects.closed, shut, if_true, true_and]
    exact { reflects with }
  | false =>
    simp only [Act.perform, Act.due, Queue.enqueue, reflects.closed, shut, Bool.false_eq_true,
      if_false, true_and]
    exact {
      units := by
        simp only [History.taken, History.units, History.accepted, List.map_append, List.map_cons,
          List.map_nil, ← List.append_assoc]
        exact congrArg (· ++ [unit]) reflects.units
      closed := shut.symm
      producers := reflects.producers
      readers := reflects.readers }

private theorem Reflects.poll (call : Nat) (reflects : Reflects history queue) :
    ((Act.poll call).perform queue).1 = (Act.poll call).due history ∧
      Reflects ((Act.poll call).due history :: history) ((Act.poll call).perform queue).2 := by
  have kept := reflects.units
  cases units : queue.units with
  | cons unit others =>
    simp only [Act.perform, Act.due, pull, reflects.rest, units, true_and]
    rw [units] at kept
    exact { reflects with units := (List.append_assoc ..).trans kept }
  | nil =>
    simp only [Act.perform, Act.due, pull, reflects.rest, units, reflects.closed]
    cases shut : history.shut with
    | true => exact ⟨rfl, { reflects with }⟩
    | false => exact ⟨rfl, { reflects with }⟩

private theorem Reflects.tryPull (reflects : Reflects history queue) :
    (Act.tryPull.perform queue).1 = Act.tryPull.due history ∧
      Reflects (Act.tryPull.due history :: history) (Act.tryPull.perform queue).2 := by
  have kept := reflects.units
  cases units : queue.units with
  | cons unit others =>
    simp only [Act.perform, Act.due, Queue.tryPull, reflects.rest, units, List.head?_cons, true_and]
    rw [units] at kept
    exact { reflects with units := (List.append_assoc ..).trans kept }
  | nil =>
    simp only [Act.perform, Act.due, Queue.tryPull, reflects.rest, units, List.head?_nil, true_and]
    exact { reflects with }

private theorem Reflects.takeAll (reflects : Reflects history queue) :
    (Act.takeAll.perform queue).1 = Act.takeAll.due history ∧
      Reflects (Act.takeAll.due history :: history) (Act.takeAll.perform queue).2 := by
  simp only [Act.perform, Act.due, Queue.takeAll, reflects.rest, true_and]
  exact { reflects with units := (List.append_nil _).trans reflects.units }

private theorem Reflects.close (side : Side) (reflects : Reflects history queue) :
    ((Act.close side).perform queue).1 = (Act.close side).due history ∧
      Reflects ((Act.close side).due history :: history) ((Act.close side).perform queue).2 := by
  simp only [Act.perform, Act.due, Queue.close, reflects.closed, true_and]
  exact { reflects with closed := by simp [History.shut, History.verdicts] }

private theorem Reflects.handle (side : Side) (reflects : Reflects history queue) :
    Reflects (.joined side :: history) ((Act.join side).perform queue).2 ∧
      Reflects (.left side :: history) ((Act.leave side).perform queue).2 := by
  have closed := reflects.closed
  have producers := reflects.producers
  have readers := reflects.readers
  cases side with
  | producer =>
    constructor
    · exact { reflects with producers := congrArg (· + 1) producers }
    · exact {
        units := reflects.units
        closed := by
          simp [Act.perform, dropProducer, History.shut, History.abandoned, closed, producers,
            Bool.or_assoc, History.verdicts]
        producers := congrArg (· - 1) producers
        readers }
  | reader =>
    constructor
    · exact { reflects with readers := congrArg (· + 1) readers }
    · exact {
        units := reflects.units
        closed := by
          simp [Act.perform, dropReader, History.shut, History.abandoned, closed, readers,
            Bool.or_assoc, History.verdicts]
        producers
        readers := congrArg (· - 1) readers }

private theorem Reflects.perform (act : Act) (reflects : Reflects history queue) :
    (act.perform queue).1 = act.due history ∧
      Reflects (act.due history :: history) (act.perform queue).2 := by
  cases act with
  | enqueue producer unit => exact reflects.enqueue producer unit
  | poll call => exact reflects.poll call
  | tryPull => exact reflects.tryPull
  | takeAll => exact reflects.takeAll
  | close side => exact reflects.close side
  | join side => cases side <;> exact ⟨rfl, (reflects.handle _).1⟩
  | leave side => cases side <;> exact ⟨rfl, (reflects.handle _).2⟩

/-! ## Steps -/

/-- What is due to an act may happen. -/
theorem Act.due_follows (act : Act) (reflects : Reflects history queue) :
    (act.due history).Follows history := by
  have kept := reflects.units
  rw [← reflects.rest] at kept
  cases act with
  | enqueue producer unit =>
    cases shut : history.shut with
    | true => simp [Act.due, Event.Follows, shut]
    | false => simp [Act.due, Event.Follows, shut]
  | poll call =>
    cases rest : history.rest with
    | cons unit others =>
      simp only [Act.due, rest, Event.Follows]
      exact ⟨others, by rw [← kept, rest, List.append_assoc, List.singleton_append]⟩
    | nil =>
      rw [rest, List.append_nil] at kept
      cases shut : history.shut with
      | true => simp [Act.due, Event.Follows, rest, shut, kept]
      | false => simp [Act.due, Event.Follows, rest, shut, kept]
  | tryPull =>
    cases rest : history.rest with
    | cons unit others =>
      simp only [Act.due, rest, Event.Follows, List.head?_cons]
      exact ⟨others, by rw [← kept, rest, List.append_assoc, List.singleton_append]⟩
    | nil =>
      rw [rest, List.append_nil] at kept
      simp only [Act.due, rest, Event.Follows, List.head?_nil, kept]
  | takeAll => exact kept
  | close side => exact rfl
  | join side | leave side => trivial

/-- The queue agrees with a lawful history. -/
structure Tracks (world : World) : Prop where
  reflects : Reflects world.events world.queue
  lawful : world.events.Lawful

private theorem Tracks.events (tracks : Tracks world) (act : Act) :
    (world.act act).events = act.due world.events :: world.events :=
  congrArg (· :: world.events) (tracks.reflects.perform act).1

private theorem Tracks.act (tracks : Tracks world) (act : Act) : Tracks (world.act act) where
  reflects := by
    rw [tracks.events act]
    exact (tracks.reflects.perform act).2
  lawful := by
    rw [tracks.events act]
    exact ⟨act.due_follows tracks.reflects, tracks.lawful⟩

private theorem shut_cons (event : Event) (shut : history.shut = true) :
    History.shut (event :: history) = true := by
  cases event with
  | closed => simp [History.shut, History.verdicts]
  | left side =>
    simp only [History.shut, History.verdicts, History.abandoned, Bool.or_eq_true] at shut ⊢
    exact shut.imp_right .inl
  | enqueued | refused | pulled | suspended | ended | tried | streamed | joined => exact shut

/-- Only a call to a queue that nobody had closed is told so. -/
theorem History.Lawful.verdicts (lawful : history.Lawful) :
    history.verdicts.count true ≤ 1 ∧
      (history.abandoned = false →
        history.verdicts = [] ∨
          ∃ others, history.verdicts = true :: List.replicate others false) := by
  induction history with
  | nil => exact ⟨Nat.zero_le _, fun _ => .inl rfl⟩
  | cons event earlier ih =>
    obtain ⟨follows, before⟩ := lawful
    obtain ⟨once, leading⟩ := ih before
    cases event with
    | closed side first =>
      obtain rfl : first = !shut earlier := follows
      simp only [History.verdicts, abandoned, List.count_append]
      cases none : History.verdicts earlier with
      | nil =>
        rw [List.count_nil, Nat.zero_add]
        refine ⟨List.count_le_length, fun kept => .inr ⟨0, ?_⟩⟩
        simp [shut, none, kept]
      | cons verdict others =>
        have shut : shut earlier = true := by simp [shut, none]
        rw [none] at once leading
        refine ⟨by simpa [shut] using once, fun kept => .inr ?_⟩
        obtain none | ⟨others, split⟩ := leading kept
        · cases none
        · exact ⟨others + 1, by rw [split, shut]; simp [List.replicate_succ']⟩
    | left side =>
      refine ⟨once, fun kept => leading ?_⟩
      simp only [abandoned, Bool.or_eq_false_iff] at kept
      exact kept.1
    | enqueued | refused | pulled | suspended | ended | tried | streamed | joined =>
      exact ⟨once, leading⟩

/-! ## Runs -/

private theorem Tracks.run (tracks : Tracks world) (acts : List Act) : Tracks (world.run acts) := by
  induction acts generalizing world with
  | nil => exact tracks
  | cons act rest ih => exact ih (tracks.act act)

private theorem Tracks.shut (tracks : Tracks world) (shut : world.events.shut = true)
    (acts : List Act) :
    (world.run acts).events.shut = true := by
  induction acts generalizing world with
  | nil => exact shut
  | cons act rest ih =>
    refine ih (tracks.act act) ?_
    rw [tracks.events act]
    exact shut_cons _ shut

/-- What a queue promises at any moment of any run. -/
structure Orderly (world : World) : Prop where
  /-- nothing is lost, doubled or moved, whichever producer it comes from -/
  conserved : world.events.taken ++ world.queue.units = world.events.units
  closed : world.queue.closed = world.events.shut
  lawful : world.events.Lawful
  answers : ∀ act, (world.act act).events = act.due world.events :: world.events
  /-- a refused unit leaves no trace -/
  spared : world.queue.closed = true → ∀ producer unit,
    (world.act (.enqueue producer unit)).queue = world.queue
  /-- two calls to close are never both told that the queue had been open -/
  once : world.events.verdicts.count true ≤ 1
  /-- unless a side lost its last handle, the first call to close is told so -/
  first : world.events.abandoned = false →
    world.events.verdicts = [] ∨
      ∃ others, world.events.verdicts = true :: List.replicate others false
  final : world.queue.closed = true → ∀ later, (world.run later).queue.closed = true

theorem World.run_orderly (acts : List Act) : Orderly (World.run {} acts) := by
  have fresh : Tracks {} := { reflects := ⟨rfl, rfl, rfl, rfl⟩, lawful := trivial }
  have tracks := fresh.run acts
  have closed := tracks.reflects.closed
  exact {
    conserved := tracks.reflects.units
    closed
    lawful := tracks.lawful
    answers := tracks.events
    spared := by
      intro shut producer unit
      simp only [World.act, Act.perform, Queue.enqueue, shut, if_true]
    once := tracks.lawful.verdicts.1
    first := tracks.lawful.verdicts.2
    final := by
      intro shut later
      rw [(tracks.run later).reflects.closed]
      exact tracks.shut (closed.symm.trans shut) later }

end Airlock.Queue
