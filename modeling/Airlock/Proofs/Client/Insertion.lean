import Airlock.Proofs.Client.Noise
import Mathlib.Data.List.Induction

/-!
# Runs with noise in them

A run with noise is a list of beats: the acts of a run, and among them units that come in besides.
Such a unit is the first one in the sink when the loop takes its next step. Leaving the noise out
gives the acts of the run without it, and the two runs are compared beat by beat: whatever can be
looked at in an act is the same in both, and in a step that takes in noise there is nothing to look
at but the event that it makes.
-/

set_option autoImplicit false

namespace Airlock.Client

inductive Beat where
  | act (act : Act)
  /-- a unit comes in that is noise -/
  | noise (unit : Bytes)

namespace Beat

def act? : Beat → Option Act
  | .act next => some next
  | .noise _ => none

/-- What happens in a beat. -/
def move : Beat → Act
  | .act next => next
  | .noise _ => .intake

def noisy : Beat → Bool
  | .act _ => false
  | .noise _ => true

/-- What is said of the noise in a beat, if there is some. -/
def strayed {α : Type} (stray : Bytes → List α) : Beat → List α
  | .act _ => []
  | .noise unit => stray unit

/-- The run without the noise. -/
def acts (beats : List Beat) : List Act :=
  beats.filterMap act?

private theorem acts_append (first second : List Beat) :
    acts (first ++ second) = acts first ++ acts second :=
  List.filterMap_append

end Beat

namespace World

/-- The world with a unit in front of those that wait in the sink. -/
def ahead (world : World) (unit : Bytes) : World :=
  world.linked { world.client.link with
    sink := { world.client.link.sink with units := unit :: world.client.link.sink.units } }

/-- Where nothing waits in an open sink, a unit in front is a unit that the peer wrote. -/
theorem ahead_empty {world : World} (unit : Bytes) (empty : world.client.link.sink.units = [])
    (open? : world.client.link.sink.closed = false)
    (room : 0 < world.client.link.sink.capacity) :
    world.act (.link (.write unit)) = world.ahead unit := by
  have written : (world.client.link.sink.write unit).2 =
      { world.client.link.sink with units := [unit] } := by
    simp [Sink.write, open?, Sink.size, empty, room]
  unfold ahead
  rw [empty]
  exact congrArg (fun sink => world.linked { world.client.link with sink }) written

/-- The world that a beat meets. -/
def facing (world : World) : Beat → World
  | .act _ => world
  | .noise unit => world.ahead unit

def heed (world : World) (beat : Beat) : World :=
  (world.facing beat).act beat.move

def play (world : World) (beats : List Beat) : World :=
  beats.foldl heed world

/-- What there is to see in the acts of a run. -/
def collect {α : Type} (view : World → Act → List α) : World → List Act → List α
  | _, [] => []
  | world, next :: rest => view world next ++ collect view (world.act next) rest

/-- What there is to see in the beats of a run, each with whether it comes of noise. -/
def follow {α : Type} (view : World → Act → List α) : World → List Beat → List (α × Bool)
  | _, [] => []
  | world, next :: rest =>
    (view (world.facing next) next.move).map (·, next.noisy) ++ follow view (world.heed next) rest

end World

/-- What comes of acts. -/
def ofActs {α : Type} (items : List (α × Bool)) : List α :=
  (items.filter (!·.2)).map (·.1)

/-- What comes of noise. -/
def ofNoise {α : Type} (items : List (α × Bool)) : List α :=
  (items.filter (·.2)).map (·.1)

section
variable {α : Type}

private theorem ofActs_append (first second : List (α × Bool)) :
    ofActs (first ++ second) = ofActs first ++ ofActs second := by
  rw [ofActs, List.filter_append, List.map_append]
  rfl

private theorem ofNoise_append (first second : List (α × Bool)) :
    ofNoise (first ++ second) = ofNoise first ++ ofNoise second := by
  rw [ofNoise, List.filter_append, List.map_append]
  rfl

private theorem ofActs_tagged (items : List α) (noisy : Bool) :
    ofActs (items.map (·, noisy)) = if noisy then [] else items := by
  cases noisy <;> simp [ofActs, List.filter_map, Function.comp_def]

private theorem ofNoise_tagged (items : List α) (noisy : Bool) :
    ofNoise (items.map (·, noisy)) = if noisy then items else [] := by
  cases noisy <;> simp [ofNoise, List.filter_map, Function.comp_def]

/-- Where nothing comes of noise, all comes of acts. -/
theorem ofActs_of_silent {items : List (α × Bool)} (silent : ofNoise items = []) :
    items.map (·.1) = ofActs items := by
  have none : ∀ item ∈ items, item.2 ≠ true := by
    have empty := List.map_eq_nil_iff.mp silent
    exact List.filter_eq_nil_iff.mp empty
  have all : items.filter (!·.2) = items :=
    List.filter_eq_self.mpr fun item member => by simp [none item member]
  rw [ofActs, all]

end

namespace World

section
variable {α : Type} (view : World → Act → List α)

private theorem play_append (world : World) (first second : List Beat) :
    world.play (first ++ second) = (world.play first).play second :=
  List.foldl_append

private theorem collect_append (world : World) (first second : List Act) :
    world.collect view (first ++ second) =
      world.collect view first ++ (world.run first).collect view second := by
  induction first generalizing world with
  | nil => rfl
  | cons next rest ih =>
    rw [List.cons_append, collect, ih, collect, List.append_assoc]
    rfl

private theorem follow_append (world : World) (first second : List Beat) :
    world.follow view (first ++ second) =
      world.follow view first ++ (world.play first).follow view second := by
  induction first generalizing world with
  | nil => rfl
  | cons next rest ih =>
    rw [List.cons_append, follow, ih, follow, List.append_assoc]
    rfl

private theorem follow_last (world : World) (before : List Beat) (last : Beat) :
    world.follow view (before ++ [last]) = world.follow view before ++
      (view ((world.play before).facing last) last.move).map (·, last.noisy) := by
  rw [follow_append, follow, follow, List.append_nil]

end

/-! ## What there is to see -/

/-- The trail of an act, with nothing said of event buffers. -/
def actBlind (world : World) (act : Act) : Trail :=
  Trail.blind (world.actTrail act)

/-- What is more in an act than steps of the loop and events. -/
def actAudible (world : World) (act : Act) : Trail :=
  Trail.audible (world.actTrail act)

private theorem collect_blind (world : World) (acts : List Act) :
    world.collect actBlind acts = Trail.blind (world.trail acts) := by
  induction acts generalizing world with
  | nil => rfl
  | cons next rest ih =>
    rw [collect, ih, trail, Trail.blind_append]
    rfl

private theorem collect_pulled (world : World) (acts : List Act) :
    world.collect actPulled acts = world.pulled acts := by
  induction acts generalizing world with
  | nil => rfl
  | cons next rest ih =>
    rw [collect, ih, pulled]

/-- A view of acts in which a client that does not listen looks the same with any events. -/
def Steady {α : Type} (view : World → Act → List α) : Prop :=
  ∀ {world : World} {act : Act} (events : EventBuffer), world.client.Deaf → act.Deaf →
    view (world.veil events) act = view world act

private theorem steady_blind : Steady actBlind :=
  fun events deaf quiet => (act_veil events deaf quiet).2.1

private theorem steady_audible : Steady actAudible :=
  fun events deaf quiet => congrArg (List.filter _) (act_veil events deaf quiet).2.1

private theorem steady_notices : Steady notices := by
  intro world act events _ _
  cases act with
  | call program => cases program <;> rfl
  | _ => rfl

private theorem steady_called : Steady actCalled := by
  intro world act events _ _
  cases act <;> rfl

private theorem steady_pulled : Steady actPulled := by
  intro world act events _ _
  cases act <;> rfl

/-- The event buffer at the end of a run holds what the run noted. -/
theorem events_run {world : World} (deaf : world.client.Deaf) {acts : List Act}
    (quiet : ∀ act ∈ acts, act.Deaf) :
    (world.run acts).client.events =
      (world.collect notices acts).foldl EventBuffer.after world.client.events := by
  induction acts generalizing world with
  | nil => rfl
  | cons next rest ih =>
    obtain ⟨quietNext, quietRest⟩ := List.forall_mem_cons.mp quiet
    obtain ⟨acted, -, still⟩ := act_veil world.client.events deaf quietNext
    have here : (world.act next).client.events =
        (world.notices next).foldl EventBuffer.after world.client.events :=
      congrArg (·.client.events) acted
    rw [collect, List.foldl_append, ← here]
    exact ih still quietRest

/-! ## Insertions -/

/-- Behind these acts a unit comes in that is noise there: the loop runs, what comes in was not
aborted, and the unit changes nothing of the client. -/
structure Intrudes (config : Config) (past : List Act) (unit : Bytes) : Prop where
  looping : ((create config).run past).looping = true
  flowing : ((create config).run past).client.link.sink.abortReason? = none
  noise : ((create config).run past).client.Noise ((create config).trail past).history.calls unit

/-- Every noise among the beats is noise where it comes in. -/
def Inserted (config : Config) (beats : List Beat) : Prop :=
  ∀ before unit behind, beats = before ++ .noise unit :: behind →
    Intrudes config (Beat.acts before) unit

private theorem Inserted.before {config : Config} {before : List Beat} {last : Beat}
    (inserted : Inserted config (before ++ [last])) : Inserted config before := by
  rintro earlier unit behind rfl
  exact inserted earlier unit (behind ++ [last]) (by simp)

private theorem Inserted.last {config : Config} {before : List Beat} {unit : Bytes}
    (inserted : Inserted config (before ++ [.noise unit])) :
    Intrudes config (Beat.acts before) unit :=
  inserted before unit [] rfl

private theorem Inserted.nil (config : Config) : Inserted config [] := by
  intro before unit behind split
  cases before <;> cases split

private theorem Inserted.append {config : Config} {before : List Beat} {last : Beat}
    (inserted : Inserted config before)
    (intrudes : ∀ unit, last = .noise unit → Intrudes config (Beat.acts before) unit) :
    Inserted config (before ++ [last]) := by
  intro earlier unit behind split
  obtain rfl | ⟨others, final, rfl⟩ := List.eq_nil_or_concat behind
  · obtain ⟨rfl, same⟩ := List.append_inj' split rfl
    exact intrudes unit (List.singleton_inj.mp same)
  · rw [List.concat_eq_append, ← List.cons_append, ← List.append_assoc] at split
    obtain ⟨rfl, -⟩ := List.append_inj' split rfl
    exact inserted earlier unit others rfl

private theorem Inserted.act {config : Config} {before : List Beat}
    (inserted : Inserted config before)
    (next : Act) : Inserted config (before ++ [.act next]) := by
  refine inserted.append fun unit same => ?_
  cases same

/-- The events that a unit makes if it is noise. -/
def noted (codec : Codec) (unit : Bytes) : List Event :=
  match codec.decode unit with
  | .error error => [.decodeFailed error]
  | .ok (.response id _) => [.orphaned id]
  | .ok (.notification _ _) | .ok (.request _ _ _) => []

private theorem reports_noise {client : Client} {calls : Nat} {unit : Bytes}
    (noise : client.Noise calls unit) : client.reports unit = noted client.codec unit := by
  unfold Noise at noise
  unfold reports noted
  cases reads : client.codec.decode unit with
  | error error => rfl
  | ok message =>
    cases message with
    | response id outcome =>
      rw [reads] at noise
      have unknown : client.pending.contains id = false := decide_eq_false noise.1
      simp only [unknown]
      rfl
    | notification method params => rfl
    | request id method params => rfl

private theorem read_ahead {sink : Sink} (flowing : sink.abortReason? = none) (unit : Bytes) :
    ({ sink with units := unit :: sink.units } : Sink).read =
      (.ready (.ok (some unit)), sink) := by
  obtain ⟨capacity, units, closed, reason?, writers, readers⟩ := sink
  obtain rfl : reason? = none := flowing
  rfl

/-- A step of the loop that takes in noise makes its events and does nothing else. -/
theorem Intrudes.intake {config : Config} {past : List Act} {unit : Bytes}
    (intrudes : Intrudes config past unit) :
    let world := (create config).run past
    (world.ahead unit).act .intake =
        world.veil ((noted config.codec unit).foldl EventBuffer.push world.client.events) ∧
      (world.ahead unit).actAudible .intake = [] ∧
      (world.ahead unit).actCalled .intake = [] ∧
      (world.ahead unit).notices .intake = (noted config.codec unit).map .told := by
  intro world
  obtain ⟨looping, flowing, noise⟩ := intrudes
  obtain ⟨-, follows⟩ := path_trail (follows_create config) past
  have sound := (run_audited config past).kept.sound follows.calm.mode
  have busy : (world.ahead unit).looping = true := looping
  have reads : (world.ahead unit).client.link.receive =
      (.ready (.ok (some unit)), world.client.link) := by
    have taken := read_ahead flowing unit
    exact congrArg (fun pair : Poll (Except Error (Option Bytes)) × Sink =>
      (pair.1, { world.client.link with sink := pair.2 })) taken
  have next : (world.ahead unit).client.next? = some unit := by
    unfold next?
    rw [reads]
  have received : (world.ahead unit).client.received = world.client := by
    unfold Client.received
    rw [reads]
    rfl
  have codec : world.client.codec = config.codec := ((create config).keeps_run past).1.codec
  have reported : world.client.reports unit = noted config.codec unit :=
    codec ▸ reports_noise noise
  obtain ⟨accepted, silent, uncalled⟩ := accept_noise sound noise
  rw [reported] at accepted
  have stepped := step_next next
  rw [received, accepted] at stepped
  refine ⟨?_, ?_, ?_, ?_⟩
  · rw [act, if_pos busy, stepped]
    rfl
  · have trail : (world.ahead unit).actTrail .intake =
        (.quiet, world.client) :: world.client.acceptTrail unit := by
      rw [(intake_looping busy).1, (step_eq _).1, reads, received]
    unfold actAudible
    rw [trail]
    exact silent
  · rw [actCalled, if_pos busy, next, Option.toList_some, List.flatMap_singleton]
    exact uncalled
  · rw [notices, if_pos busy, next, Option.toList_some, List.flatMap_singleton]
    exact congrArg _ reported

/-! ## Runs -/

/-- The run with noise is the run without it, with other events: those that were noted in turn. -/
structure Muffled (start : World) (beats : List Beat) : Prop where
  world : start.play beats = (start.run (Beat.acts beats)).veil
    (((start.follow notices beats).map (·.1)).foldl EventBuffer.after start.client.events)
  deaf : (start.run (Beat.acts beats)).client.Deaf

/-- A beat more keeps the two runs together: an act does the same in both, and noise makes its
events in the one. -/
theorem Muffled.append {config : Config} {before : List Beat} {last : Beat}
    (muffled : (create config).Muffled before)
    (intrudes : ∀ unit, last = .noise unit → Intrudes config (Beat.acts before) unit)
    (quiet : ∀ act ∈ last.act?, act.Deaf) : (create config).Muffled (before ++ [last]) := by
  obtain ⟨same, deaf⟩ := muffled
  let clean := (create config).run (Beat.acts before)
  let told := ((create config).follow notices before).map (·.1)
  let events := told.foldl EventBuffer.after (create config : World).client.events
  have played : (create config).play (before ++ [last]) =
      ((clean.veil events).facing last).act last.move := by
    rw [play_append, same]
    rfl
  have noticed : ((create config).follow notices (before ++ [last])).map (·.1) =
      told ++ ((clean.veil events).facing last).notices last.move := by
    rw [follow_last, List.map_append, List.map_map, same]
    exact congrArg _ (List.map_id _)
  cases last with
  | act next =>
    have quietNext : next.Deaf := quiet next rfl
    obtain ⟨acted, -, still⟩ := act_veil events deaf quietNext
    have run : (create config).run (Beat.acts (before ++ [.act next])) = clean.act next := by
      rw [Beat.acts_append, run_append]
      rfl
    have noticedClean : (clean.veil events).notices next = clean.notices next :=
      steady_notices events deaf quietNext
    refine ⟨?_, run ▸ still⟩
    rw [played, run, noticed, List.foldl_append]
    exact acted.trans (congrArg (fun told => (clean.act next).veil
      (told.foldl EventBuffer.after events)) noticedClean.symm)
  | noise unit =>
    have run : (create config).run (Beat.acts (before ++ [.noise unit])) = clean := by
      rw [Beat.acts_append]
      exact congrArg _ (List.append_nil _)
    have deafAhead : (clean.ahead unit).client.Deaf := deaf.of_listeners rfl
    obtain ⟨acted, -⟩ := (intrudes unit rfl).intake
    obtain ⟨veiled, -⟩ := intake_veil events deafAhead
    refine ⟨?_, run ▸ deaf⟩
    rw [played, run, noticed, List.foldl_append]
    refine veiled.trans ?_
    rw [acted]
    rfl

private theorem deaf_create (config : Config) : (create config).client.Deaf :=
  ⟨nofun, nofun, nofun⟩

private theorem muffled (config : Config) (beats : List Beat) (inserted : Inserted config beats)
    (quiet : ∀ act ∈ Beat.acts beats, act.Deaf) : (create config).Muffled beats := by
  induction beats using List.reverseRecOn with
  | nil => exact ⟨rfl, deaf_create config⟩
  | append_singleton before last ih =>
    rw [Beat.acts_append] at quiet
    obtain ⟨quietBefore, quietLast⟩ := List.forall_mem_append.mp quiet
    refine (ih inserted.before quietBefore).append ?_ ?_
    · rintro unit rfl
      exact inserted.last
    · intro act found
      apply quietLast
      exact List.mem_filterMap.mpr ⟨last, List.mem_singleton_self last, found⟩

section
variable {α : Type} {view : World → Act → List α}

/-- What there is to see in the acts of a run is the same with noise in it. -/
theorem follow_acts (steady : Steady view) {config : Config} {beats : List Beat}
    (inserted : Inserted config beats) (quiet : ∀ act ∈ Beat.acts beats, act.Deaf) :
    ofActs ((create config).follow view beats) =
      (create config).collect view (Beat.acts beats) := by
  induction beats using List.reverseRecOn with
  | nil => rfl
  | append_singleton before last ih =>
    rw [Beat.acts_append] at quiet
    obtain ⟨quietBefore, quietLast⟩ := List.forall_mem_append.mp quiet
    obtain ⟨same, deaf⟩ := muffled config before inserted.before quietBefore
    rw [follow_last, ofActs_append, ih inserted.before quietBefore, Beat.acts_append,
      collect_append, ofActs_tagged]
    cases last with
    | noise unit => rfl
    | act next =>
      have seen : view ((create config).play before) next =
          view ((create config).run (Beat.acts before)) next := by
        rw [same]
        exact steady _ deaf (quietLast next (List.mem_singleton_self next))
      exact congrArg _ (seen.trans (List.append_nil _).symm)

/-- What there is to see in the noise is what there is to see where the noise comes in in the run
without it. -/
theorem follow_noise (steady : Steady view) {stray : Bytes → List α} {config : Config}
    {beats : List Beat} (inserted : Inserted config beats)
    (quiet : ∀ act ∈ Beat.acts beats, act.Deaf)
    (strays : ∀ past unit, Intrudes config past unit →
      view (((create config).run past).ahead unit) .intake = stray unit) :
    ofNoise ((create config).follow view beats) = beats.flatMap (Beat.strayed stray) := by
  induction beats using List.reverseRecOn with
  | nil => rfl
  | append_singleton before last ih =>
    rw [Beat.acts_append] at quiet
    obtain ⟨quietBefore, -⟩ := List.forall_mem_append.mp quiet
    obtain ⟨same, deaf⟩ := muffled config before inserted.before quietBefore
    rw [follow_last, ofNoise_append, ih inserted.before quietBefore, List.flatMap_append,
      List.flatMap_singleton, ofNoise_tagged]
    cases last with
    | act next => rfl
    | noise unit =>
      have deafAhead : (((create config).run (Beat.acts before)).ahead unit).client.Deaf :=
        deaf.of_listeners rfl
      have seen : view (((create config).play before).ahead unit) .intake =
          view (((create config).run (Beat.acts before)).ahead unit) .intake := by
        rw [same]
        exact steady _ deafAhead trivial
      exact congrArg _ (seen.trans (strays _ unit inserted.last))

private theorem flatMap_strayed_nil (beats : List Beat) :
    beats.flatMap (Beat.strayed fun _ => ([] : List α)) = [] := by
  apply List.flatMap_eq_nil_iff.mpr
  intro beat _
  cases beat <;> rfl

/-- Where nothing is to be seen in noise, the two runs show the same. -/
theorem follow_silent (steady : Steady view) {config : Config} {beats : List Beat}
    (inserted : Inserted config beats) (quiet : ∀ act ∈ Beat.acts beats, act.Deaf)
    (silent : ∀ past unit, Intrudes config past unit →
      view (((create config).run past).ahead unit) .intake = []) :
    ((create config).follow view beats).map (·.1) =
      (create config).collect view (Beat.acts beats) := by
  have none := follow_noise steady inserted quiet silent
  rw [flatMap_strayed_nil] at none
  exact (ofActs_of_silent none).trans (follow_acts steady inserted quiet)

end

/-- Noise that comes in anywhere in a run changes nothing but events, as long as hooks and handlers
take none: each act has the same trail as in the run without the noise, with the same hooks in the
same order, the same results of requests and the same clients; the loop calls the same handlers with
the same params; the far end takes the same units out of the queue; and what is left at the end
differs in nothing but the event buffer. The events of the run without the noise are made as they
were, and among them each unit that is no message makes one event, and so does each response to no
request in flight, in the order in which they come in. -/
theorem play_muffled (config : Config) (beats : List Beat) (inserted : Inserted config beats)
    (quiet : ∀ act ∈ Beat.acts beats, act.Deaf) :
    let start := create config
    let acts := Beat.acts beats
    let told := start.follow notices beats
    start.play beats = (start.run acts).veil (start.play beats).client.events ∧
      ofActs (start.follow actBlind beats) = Trail.blind (start.trail acts) ∧
      (start.follow actAudible beats).map (·.1) = start.collect actAudible acts ∧
      (start.follow actCalled beats).map (·.1) = start.collect actCalled acts ∧
      (start.follow actPulled beats).map (·.1) = start.pulled acts ∧
      (start.play beats).client.events =
        (told.map (·.1)).foldl EventBuffer.after start.client.events ∧
      (start.run acts).client.events =
        (start.collect notices acts).foldl EventBuffer.after start.client.events ∧
      ofActs told = start.collect notices acts ∧
      ofNoise told =
        beats.flatMap (Beat.strayed fun unit => (noted config.codec unit).map .told) := by
  intro start acts told
  obtain ⟨same, -⟩ := muffled config beats inserted quiet
  have events : (start.play beats).client.events =
      (told.map (·.1)).foldl EventBuffer.after start.client.events :=
    congrArg (·.client.events) same
  refine ⟨same.trans (by rw [events]), ?_, ?_, ?_, ?_, events, ?_, ?_, ?_⟩
  · rw [← collect_blind]
    exact follow_acts steady_blind inserted quiet
  · exact follow_silent steady_audible inserted quiet fun _ _ intrudes => intrudes.intake.2.1
  · exact follow_silent steady_called inserted quiet fun _ _ intrudes => intrudes.intake.2.2.1
  · rw [← collect_pulled]
    exact follow_silent steady_pulled inserted quiet fun _ _ _ => rfl
  · exact events_run (deaf_create config) quiet
  · exact follow_acts steady_notices inserted quiet
  · exact follow_noise steady_notices inserted quiet fun _ _ intrudes => intrudes.intake.2.2.2

theorem play_muffled_orphan :
    let config : Config := { Config.default with format := .messagePack }
    let start := create config
    let answer := config.codec.encode (.response (.nth 1) (.ok .null))
    let orphan := config.codec.encode (.response (.nth 9) (.ok .null))
    let ask : Act := .call (.request ⟨"ping", .null⟩ fun _ => .skip)
    let beats : List Beat :=
      [.act .start, .act ask, .noise orphan, .act (.link (.write answer)), .act .intake]
    (start.play beats).client.delivered = [(.nth 1, .ok .null)] ∧
      ofNoise (start.follow notices beats) = [.told (.orphaned (.nth 9))] ∧
      start.play beats = (start.run [.start, ask, .link (.write answer), .intake]).veil
        (start.play beats).client.events := by
  intro config start answer orphan ask beats
  have reads : config.codec.decode orphan = .ok (.response (.nth 9) (.ok .null)) := by rfl
  have intrudes : Intrudes config [.start, ask] orphan := by
    refine ⟨rfl, rfl, ?_⟩
    unfold Noise
    rw [show ((create config).run [.start, ask]).client.codec = config.codec from rfl, reads]
    exact ⟨by decide, fun late => absurd late (by decide)⟩
  have asked : Inserted config [.act .start, .act ask] :=
    ((Inserted.nil config).act .start).act ask
  have intruded : Inserted config [.act .start, .act ask, .noise orphan] :=
    asked.append fun unit same => Beat.noise.inj same ▸ intrudes
  have inserted : Inserted config beats := (intruded.act (.link (.write answer))).act .intake
  have quiet : ∀ act ∈ Beat.acts beats, act.Deaf := by
    intro act member
    obtain _ | ⟨_, _ | ⟨_, _ | ⟨_, _ | ⟨_, ⟨⟩⟩⟩⟩⟩ := member
    · trivial
    · exact fun _ => trivial
    · trivial
    · trivial
  obtain ⟨same, -, -, -, -, -, -, -, noise⟩ := play_muffled config beats inserted quiet
  refine ⟨rfl, noise.trans ?_, same⟩
  rfl

end World

end Airlock.Client
