import Airlock.Client.Incoming

/-!
# Noting events while others take them

Only the loop over incoming units notes events, one at a time: it tries to put the event into the
buffer, drops the oldest one if the buffer was full, and tries again. Events are taken at any
moment, in between these steps too, so the buffer that was found full may have room before anything
is dropped.

The history lists the steps. What is buffered is what the history leaves over: the events that were
put in, less those that left, which they do in their order. Undisturbed, the steps are what noting
an event does at once.
-/

set_option autoImplicit false

namespace Airlock.EventBuffer

/-- Puts an event into the buffer, if there is room. -/
def offer (buffer : EventBuffer) (event : Event) : Option EventBuffer :=
  if buffer.events.length < buffer.capacity then
    some { buffer with events := buffer.events ++ [event] }
  else none

/-! ## Acts and happenings -/

inductive Act where
  /-- the loop begins to note an event, unless it is busy with another one -/
  | note (event : Event)
  /-- the loop goes on with the event that it is noting -/
  | proceed
  | receive

inductive Happening where
  | kept (event : Event)
  /-- there was no room for the event -/
  | blocked (event : Event)
  | discarded (event? : Option Event)
  /-- there was no room for the event the second time either -/
  | lost (event : Event)
  | received (event? : Option Event)

/-- What happened to a buffer, the newest first. -/
abbrev History := List Happening

/-- Where the loop stands. -/
inductive Stage where
  | idle
  | blocked (event : Event)
  | cleared (event : Event)

structure World where
  buffer : EventBuffer
  stage : Stage := .idle
  history : History := []

namespace World

/-- The channel of events of a new client. -/
def create (config : Config) (link : Link) : World :=
  { buffer := (Client.create config link : Client).events }

def act (world : World) : Act → World
  | .note event =>
    match world.stage, world.buffer.offer event with
    | .idle, some buffer => { world with buffer, history := .kept event :: world.history }
    | .idle, none =>
      { world with stage := .blocked event, history := .blocked event :: world.history }
    | _, _ => world
  | .proceed =>
    match world.stage with
    | .idle => world
    | .blocked event =>
      let (oldest?, buffer) := world.buffer.pop
      { buffer, stage := .cleared event, history := .discarded oldest? :: world.history }
    | .cleared event =>
      match world.buffer.offer event with
      | some buffer => { buffer, history := .kept event :: world.history }
      | none => { world with stage := .idle, history := .lost event :: world.history }
  | .receive =>
    let (event?, buffer) := world.buffer.pop
    { world with buffer, history := .received event? :: world.history }

def run (world : World) (acts : List Act) : World :=
  acts.foldl act world

private theorem run_append (world : World) (first second : List Act) :
    world.run (first ++ second) = (world.run first).run second :=
  List.foldl_append

end World

/-! ## What a history tells -/

namespace History

/-- The events that were put in, the oldest first. -/
def emitted : History → List Event
  | [] => []
  | .kept event :: earlier => emitted earlier ++ [event]
  | _ :: earlier => emitted earlier

def received : History → List Event
  | [] => []
  | .received event? :: earlier => received earlier ++ event?.toList
  | _ :: earlier => received earlier

/-- The events that left, the oldest first: they were received or discarded. -/
def gone : History → List Event
  | [] => []
  | .received event? :: earlier => gone earlier ++ event?.toList
  | .discarded event? :: earlier => gone earlier ++ event?.toList
  | _ :: earlier => gone earlier

/-- The events that are left over. -/
def buffered (history : History) : List Event :=
  history.emitted.drop history.gone.length

/-- The event that is being noted and what was buffered when there was no room for it, as long as
nothing was discarded for it. -/
def blocked? : History → Option (Event × List Event)
  | .blocked event :: earlier => some (event, buffered earlier)
  | .received _ :: earlier => blocked? earlier
  | _ => none

end History

/-- What may happen after a history. -/
def Happening.Follows (capacity : Nat) (earlier : History) : Happening → Prop
  | .kept _ => earlier.buffered.length < capacity
  | .blocked _ => earlier.buffered.length = capacity
  | .discarded event? => ∃ event found, earlier.blocked? = some (event, found) ∧
      found.length = capacity ∧ earlier.buffered <:+ found ∧ event? = earlier.buffered.head?
  | .lost _ => False
  | .received event? => event? = earlier.buffered.head?

/-- Every happening follows from those before it. -/
def History.Lawful (capacity : Nat) : History → Prop
  | [] => True
  | happening :: earlier => happening.Follows capacity earlier ∧ Lawful capacity earlier

variable {capacity : Nat} {history : History} {world : World} {event : Event}

private theorem History.received_sublist_gone (history : History) :
    history.received.Sublist history.gone := by
  induction history with
  | nil => exact .slnil
  | cons happening earlier ih =>
    cases happening with
    | received event? => exact ih.append_right _
    | discarded event? => exact ih.trans (List.sublist_append_left ..)
    | kept | blocked | lost => exact ih

private theorem History.Lawful.spares (lawful : history.Lawful capacity) :
    .lost event ∉ history := by
  induction history with
  | nil => exact List.not_mem_nil
  | cons happening earlier ih =>
    obtain ⟨follows, lawful⟩ := lawful
    refine List.not_mem_cons_of_ne_of_not_mem ?_ (ih lawful)
    rintro rfl
    exact follows

/-! ## The buffer reflects its history -/

private theorem toList_pop_append (buffer : EventBuffer) :
    buffer.pop.1.toList ++ buffer.pop.2.events = buffer.events := by
  rw [pop]
  cases buffer.events <;> rfl

/-- Why the loop stands where it does. -/
def Justified (capacity : Nat) (history : History) (events : List Event) : Stage → Prop
  | .idle => True
  | .blocked event => ∃ found, history.blocked? = some (event, found) ∧ found.length = capacity ∧
      events <:+ found
  | .cleared _ => events.length < capacity

/-- The world is where its history has brought it. -/
structure Tracks (capacity : Nat) (world : World) : Prop where
  room : world.buffer.capacity = capacity
  bounded : world.buffer.events.length ≤ capacity
  conserved : world.history.gone ++ world.buffer.events = world.history.emitted
  lawful : world.history.Lawful capacity
  justified : Justified capacity world.history world.buffer.events world.stage

namespace Tracks

private theorem buffered (tracks : Tracks capacity world) :
    world.history.buffered = world.buffer.events := by
  rw [History.buffered, ← tracks.conserved, List.drop_left]

private theorem create (config : Config) (link : Link) :
    Tracks config.eventCapacity (World.create config link) where
  room := rfl
  bounded := Nat.zero_le _
  conserved := rfl
  lawful := trivial
  justified := trivial

private theorem keep (tracks : Tracks capacity world)
    (fits : world.buffer.events.length < capacity) :
    Tracks capacity
      { buffer := { world.buffer with events := world.buffer.events ++ [event] }
        stage := .idle
        history := .kept event :: world.history } where
  room := tracks.room
  bounded := by simpa using Nat.succ_le_of_lt fits
  conserved := by simp [History.gone, History.emitted, ← tracks.conserved]
  lawful := ⟨by simpa [Happening.Follows, tracks.buffered] using fits, tracks.lawful⟩
  justified := trivial

private theorem block (tracks : Tracks capacity world)
    (full : world.buffer.events.length = capacity) :
    Tracks capacity
      { world with stage := .blocked event, history := .blocked event :: world.history } where
  room := tracks.room
  bounded := tracks.bounded
  conserved := tracks.conserved
  lawful := ⟨by rwa [Happening.Follows, tracks.buffered], tracks.lawful⟩
  justified :=
    ⟨world.buffer.events, by rw [History.blocked?, tracks.buffered], full, List.suffix_rfl⟩

/-- The oldest event leaves for a blocked one, unless all have left meanwhile. -/
theorem discard (positive : 0 < capacity) (tracks : Tracks capacity world)
    (stage : world.stage = .blocked event) :
    Tracks capacity
      { buffer := world.buffer.pop.2
        stage := .cleared event
        history := .discarded world.buffer.pop.1 :: world.history } where
  room := tracks.room
  bounded := Nat.le_trans (List.drop_sublist ..).length_le tracks.bounded
  conserved := by
    simp [History.gone, History.emitted, toList_pop_append, tracks.conserved]
  lawful := by
    have justified := tracks.justified
    rw [stage] at justified
    obtain ⟨found, blocked, full, rest⟩ := justified
    exact ⟨⟨event, found, blocked, full, tracks.buffered ▸ rest, tracks.buffered ▸ rfl⟩,
      tracks.lawful⟩
  justified := by
    have := tracks.bounded
    simp only [Justified, pop, List.length_drop]
    omega

/-- The oldest event is received. What was found for a blocked event only loses events. -/
theorem receive (tracks : Tracks capacity world) : Tracks capacity (world.act .receive) where
  room := tracks.room
  bounded := Nat.le_trans (List.drop_sublist ..).length_le tracks.bounded
  conserved := by
    simp [World.act, History.gone, History.emitted, toList_pop_append, tracks.conserved]
  lawful := ⟨tracks.buffered ▸ rfl, tracks.lawful⟩
  justified := by
    have fewer : world.buffer.pop.2.events <:+ world.buffer.events := List.drop_suffix ..
    have justified := tracks.justified
    cases stage : world.stage with
    | idle => simp only [World.act, stage, Justified]
    | blocked event =>
      rw [stage] at justified
      obtain ⟨found, blocked, full, rest⟩ := justified
      simp only [World.act, stage]
      exact ⟨found, blocked, full, fewer.trans rest⟩
    | cleared event =>
      rw [stage] at justified
      simp only [World.act, stage]
      exact Nat.lt_of_le_of_lt fewer.length_le justified

private theorem note (tracks : Tracks capacity world) :
    Tracks capacity (world.act (.note event)) := by
  cases stage : world.stage with
  | blocked | cleared => simpa only [World.act, stage] using tracks
  | idle =>
    by_cases fits : world.buffer.events.length < world.buffer.capacity
    · simp only [World.act, stage, offer, if_pos fits]
      exact tracks.keep (tracks.room ▸ fits)
    · simp only [World.act, stage, offer, if_neg fits]
      have room := tracks.room
      have bounded := tracks.bounded
      exact tracks.block (by omega)

private theorem proceed (positive : 0 < capacity) (tracks : Tracks capacity world) :
    Tracks capacity (world.act .proceed) := by
  have justified := tracks.justified
  cases stage : world.stage with
  | idle => simpa only [World.act, stage] using tracks
  | blocked event =>
    simp only [World.act, stage]
    exact tracks.discard positive stage
  | cleared event =>
    rw [stage, Justified, ← tracks.room] at justified
    simp only [World.act, stage, offer, if_pos justified]
    exact tracks.keep (tracks.room ▸ justified)

private theorem act (positive : 0 < capacity) (tracks : Tracks capacity world) (act : Act) :
    Tracks capacity (world.act act) := by
  cases act with
  | note event => exact tracks.note
  | proceed => exact tracks.proceed positive
  | receive => exact tracks.receive

private theorem run (positive : 0 < capacity) (tracks : Tracks capacity world) (acts : List Act) :
    Tracks capacity (world.run acts) := by
  induction acts generalizing world with
  | nil => exact tracks
  | cons act acts ih => exact ih (tracks.act positive act)

end Tracks

/-! ## An event gets in -/

/-- All steps of noting an event, and how often others receive after the first and the second. -/
def noting (event : Event) (first second : Nat) : List Act :=
  .note event :: (.replicate first .receive ++
    .proceed :: (.replicate second .receive ++ [.proceed]))

/-- The event gets in behind those that were put in before, in so many further steps of the loop. -/
inductive Nears (event : Event) (before : List Event) (world : World) : Nat → Prop where
  | done {steps : Nat} (idle : world.stage = .idle)
      (emitted : world.history.emitted = before ++ [event]) : Nears event before world steps
  | cleared (stage : world.stage = .cleared event) (emitted : world.history.emitted = before) :
      Nears event before world 1
  | blocked (stage : world.stage = .blocked event) (emitted : world.history.emitted = before) :
      Nears event before world 2

namespace Nears

variable {before : List Event} {steps : Nat}

private theorem note (idle : world.stage = .idle) :
    Nears event world.history.emitted (world.act (.note event)) 2 := by
  by_cases fits : world.buffer.events.length < world.buffer.capacity
  · exact .done (by simp [World.act, idle, offer, fits])
      (by simp [World.act, idle, offer, fits, History.emitted])
  · exact .blocked (by simp [World.act, idle, offer, fits])
      (by simp [World.act, idle, offer, fits, History.emitted])

/-- Receiving does not concern the loop. -/
theorem receive (nears : Nears event before world steps) :
    Nears event before (world.act .receive) steps := by
  cases nears with
  | done idle emitted => exact .done idle emitted
  | cleared stage emitted => exact .cleared stage emitted
  | blocked stage emitted => exact .blocked stage emitted

private theorem receives (nears : Nears event before world steps) (count : Nat) :
    Nears event before (world.run (.replicate count .receive)) steps := by
  induction count generalizing world with
  | zero => exact nears
  | succ count ih => exact ih nears.receive

private theorem proceed (tracks : Tracks capacity world)
    (nears : Nears event before world (steps + 1)) :
    Nears event before (world.act .proceed) steps := by
  cases nears with
  | done idle emitted =>
    have same : world.act .proceed = world := by simp only [World.act, idle]
    rw [same]
    exact .done idle emitted
  | cleared stage emitted =>
    have fits := tracks.justified
    rw [stage, Justified, ← tracks.room] at fits
    exact .done (by simp [World.act, stage, offer, fits])
      (by simp [World.act, stage, offer, fits, History.emitted, emitted])
  | blocked stage emitted =>
    exact .cleared (by simp only [World.act, stage])
      (by simp [World.act, stage, History.emitted, emitted])

end Nears

namespace World

/-- Whatever is received meanwhile, the event gets in and the loop is done with it. -/
theorem run_noting (positive : 0 < capacity) (tracks : Tracks capacity world)
    (idle : world.stage = .idle) (event : Event) (first second : Nat) :
    (world.run (noting event first second)).stage = .idle ∧
      (world.run (noting event first second)).history.emitted =
        world.history.emitted ++ [event] := by
  let noted := (world.act (.note event)).run (.replicate first .receive)
  let cleared := (noted.act .proceed).run (.replicate second .receive)
  have split : world.run (noting event first second) = cleared.act .proceed :=
    (run_append ..).trans (run_append ..)
  have tracksNoted : Tracks capacity noted := tracks.note.run positive _
  have tracksCleared : Tracks capacity cleared := (tracksNoted.proceed positive).run positive _
  have nears : Nears event world.history.emitted (cleared.act .proceed) 0 :=
    ((((Nears.note idle).receives first).proceed tracksNoted).receives second).proceed tracksCleared
  cases nears with
  | done idle emitted => exact split ▸ ⟨idle, emitted⟩

/-- Undisturbed, the steps are what noting an event does at once. -/
theorem run_noting_undisturbed (positive : 0 < capacity) (tracks : Tracks capacity world)
    (idle : world.stage = .idle) (event : Event) :
    (world.run (noting event 0 0)).buffer = world.buffer.push event := by
  have room := tracks.room
  have bounded := tracks.bounded
  by_cases fits : world.buffer.events.length < world.buffer.capacity
  · simp [noting, run, act, idle, offer, push, fits]
  · have fits' : world.buffer.events.length - 1 < world.buffer.capacity := by omega
    simp [noting, run, act, idle, offer, push, pop, fits, fits']

/-- Receiving until nothing is left is what taking all events does at once. -/
theorem run_receives_all (world : World) :
    let drained := world.run (.replicate world.buffer.events.length .receive)
    drained.buffer = world.buffer.takeAll.2 ∧
      drained.history.received = world.history.received ++ world.buffer.takeAll.1 := by
  obtain ⟨⟨capacity, events⟩, stage, history⟩ := world
  induction events generalizing history with
  | nil => exact ⟨rfl, (List.append_nil _).symm⟩
  | cons event events ih =>
    obtain ⟨buffer, received⟩ := ih (.received (some event) :: history)
    refine ⟨buffer, received.trans ?_⟩
    exact List.append_assoc ..

end World

/-! ## The newest are kept -/

/-- How a world stands whose buffer has this capacity. -/
structure KeepsNewest (capacity : Nat) (world : World) : Prop where
  /-- what is buffered are the newest of the events that were put in, in their order -/
  newest : world.buffer.events <:+ world.history.emitted
  bounded : world.buffer.events.length ≤ capacity
  /-- each event that was put in is either buffered or left once -/
  conserved : world.history.gone ++ world.buffer.events = world.history.emitted
  leftOver : world.history.buffered = world.buffer.events
  received : world.history.received.Sublist world.history.emitted
  /-- only for an event that found the buffer full another one was discarded, the oldest one -/
  lawful : world.history.Lawful capacity
  /-- no event is lost that is being noted -/
  spared : ∀ event, .lost event ∉ world.history
  /-- whatever is received meanwhile, the next event gets in -/
  noted : world.stage = .idle → ∀ event first second,
    (world.run (noting event first second)).stage = .idle ∧
      (world.run (noting event first second)).history.emitted = world.history.emitted ++ [event]
  atOnce : world.stage = .idle → ∀ event,
    (world.run (noting event 0 0)).buffer = world.buffer.push event
  drained :
    let drained := world.run (.replicate world.buffer.events.length .receive)
    drained.buffer = world.buffer.takeAll.2 ∧
      drained.history.received = world.history.received ++ world.buffer.takeAll.1

/-- However noting and receiving interleave, the buffer of a client keeps the newest events. -/
theorem run_keepsNewest (config : Config) (link : Link) (acts : List Act) :
    KeepsNewest config.eventCapacity ((World.create config link).run acts) := by
  have positive := config.eventCapacity_pos
  have tracks := (Tracks.create config link).run positive acts
  have newest := tracks.conserved ▸ List.suffix_append ..
  constructor
  case newest => exact newest
  case bounded => exact tracks.bounded
  case conserved => exact tracks.conserved
  case leftOver => exact tracks.buffered
  case received =>
    rw [← tracks.conserved]
    exact (History.received_sublist_gone _).trans (List.sublist_append_left ..)
  case lawful => exact tracks.lawful
  case spared => exact fun _ => tracks.lawful.spares
  case noted => exact World.run_noting positive tracks
  case atOnce => exact World.run_noting_undisturbed positive tracks
  case drained => exact World.run_receives_all _

end Airlock.EventBuffer
