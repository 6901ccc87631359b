import Airlock.Peer.Script
import Airlock.Session.Waiting
import Airlock.Proofs.Session.Conclusion

/-!
# The life of a session

A session is offered peers and started, by anybody and in any order. A call that starts it looks up
the host first and begins it later, and in between anything may happen; others who hold the host may
start it without the session. Only the first peer counts, and only the first call that begins the
host. When the run is over that call returns, and if it went through the session it terminates it.
-/

set_option autoImplicit false

namespace Airlock

variable {τ : Type}

/-! ## Calls that start a host -/

/-- Who starts a host: somebody through its session, or somebody who holds the host. -/
inductive Caller where
  | session
  | holder
  deriving DecidableEq

/-- How far a call that starts a host has got. -/
inductive Standing where
  /-- it knows the host and has not tried to begin it yet -/
  | holding
  | refused (error : Error)
  | running
  | returned (result : Except Error Unit)

structure Start where
  caller : Caller
  standing : Standing

/-- Whether the call got past the check for an earlier start. -/
def Start.past (start : Start) : Bool :=
  match start.standing with
  | .running | .returned _ => true
  | .holding | .refused _ => false

/-- A call is refused only because the host was begun before, or because there is none yet. -/
def Start.Answered (start : Start) : Prop :=
  ∀ error, start.standing = .refused error →
    error = .alreadyStarted ∨ start.caller = .session ∧ error = .notInitialized

/-- Whether a call through a session that returns this terminates the session. -/
def Session.terminates : Except Error Unit → Bool
  | .error .alreadyStarted => false
  | _ => true

/-! ## Sessions in use -/

/-- A session with what goes on behind it, and with all calls that were made to start its host. -/
structure Lifetime (τ : Type) where
  config : Config
  hosting? : Option (Hosting τ) := none
  terminated : Bool := false
  starts : List Start := []

namespace Lifetime

/-- Looking at a session, its host or its client is no act, for it changes nothing. -/
inductive Act (τ : Type) where
  | offer (peer : Peer τ) (state : τ)
  /-- a call to start is made; it looks up the host unless it holds it already -/
  | enter (caller : Caller)
  /-- the call with this index tries to begin the host -/
  | begin (index : Nat)
  /-- anything that goes on in the host or around its client -/
  | work (act : Hosting.Act)
  /-- the call with this index returns, if it runs the host and the run is over -/
  | finish (index : Nat)

def create (config : Config) : Lifetime τ :=
  { config }

def session (life : Lifetime τ) : Session τ where
  config := life.config
  slot :=
    match life.hosting? with
    | none => .empty
    | some hosting =>
      if life.terminated then .terminated hosting.host else .running hosting.host

/-- How far the run of the host has got, if it was begun. -/
def progress? (life : Lifetime τ) : Option Progress :=
  life.hosting?.bind (·.progress?)

def enter (life : Lifetime τ) (start : Start) : Lifetime τ :=
  { life with starts := life.starts ++ [start] }

def begin (life : Lifetime τ) (index : Nat) (hosting : Hosting τ) (caller : Caller) :
    Lifetime τ :=
  match hosting.host.begin with
  | .ok _ =>
    { life with
      hosting? := some (hosting.act .start)
      starts := life.starts.set index ⟨caller, .running⟩ }
  | .error error => { life with starts := life.starts.set index ⟨caller, .refused error⟩ }

def finish (life : Lifetime τ) (index : Nat) (caller : Caller) (result : Except Error Unit) :
    Lifetime τ :=
  { life with
    terminated := life.terminated || caller = .session && Session.terminates result
    starts := life.starts.set index ⟨caller, .returned result⟩ }

def act (life : Lifetime τ) : Act τ → Lifetime τ
  | .offer peer state =>
    match life.hosting? with
    | none => { life with hosting? := some (Hosting.create peer state life.config) }
    | some _ => life
  | .enter caller =>
    match life.hosting?, caller with
    | some _, caller => life.enter ⟨caller, .holding⟩
    | none, .session => life.enter ⟨.session, .refused .notInitialized⟩
    | none, .holder => life
  | .begin index =>
    match life.hosting?, life.starts[index]? with
    | some hosting, some ⟨caller, .holding⟩ => life.begin index hosting caller
    | _, _ => life
  | .work .start => life
  | .work act => { life with hosting? := life.hosting?.map (·.act act) }
  | .finish index =>
    match life.progress?.bind Host.result?, life.starts[index]? with
    | some result, some ⟨caller, .running⟩ => life.finish index caller result
    | _, _ => life

def run (life : Lifetime τ) (acts : List (Act τ)) : Lifetime τ :=
  acts.foldl act life

/-- The calls that got past the check for an earlier start. -/
def past (life : Lifetime τ) : List Start :=
  life.starts.filter Start.past

/-! ## What the session does -/

variable {life : Lifetime τ} {hosting : Hosting τ} {progress : Progress}

private theorem host?_session : life.session.host? = life.hosting?.map Hosting.host := by
  unfold session Session.host?
  cases life.hosting? with
  | none => rfl
  | some hosting => cases life.terminated <;> rfl

/-- The first call begins the host. -/
theorem begin_first (idle : hosting.progress? = none) :
    ∃ progress, hosting.host.begin = .ok (progress, (hosting.act .start).host) ∧
      (hosting.act .start).progress? = some progress := by
  have fresh : hosting.host.started = false := by simp [Hosting.host, idle]
  simp only [Hosting.act, Host.begin, fresh]
  cases hosting.host.client.startDrain <;> exact ⟨_, rfl, rfl⟩

/-- An offer is what the session makes of it. -/
theorem session_offer (fresh : life.hosting? = none → life.terminated = false) (peer : Peer τ)
    (state : τ) :
    (life.act (.offer peer state)).session = (life.session.offer peer state).2 := by
  obtain ⟨config, _ | hosting, terminated, starts⟩ := life
  · cases fresh rfl
    rfl
  · cases terminated <;> rfl

/-- A call through the session begins what the session begins. -/
theorem session_begin {index : Nat}
    (holds : life.starts[index]? = some ⟨.session, .holding⟩) :
    (life.act (.begin index)).session =
      (life.session.begin.map Prod.snd).toOption.getD life.session := by
  unfold Session.begin
  rw [host?_session]
  obtain ⟨config, _ | hosting, terminated, starts⟩ := life
  · rfl
  · dsimp only at holds
    dsimp only [act, Option.map_some]
    rw [holds]
    dsimp only [begin]
    cases idle : hosting.progress? with
    | some progress =>
      rw [(Hosting.begin_again (by rw [idle]; nofun)).1]
      rfl
    | none =>
      obtain ⟨progress, begun, -⟩ := begin_first idle
      rw [begun]
      cases terminated <;> rfl

/-- A call through the session that returns finishes the session with its result. -/
theorem session_finish {index : Nat} {result : Except Error Unit}
    (complete : life.progress?.bind Host.result? = some result)
    (runs : life.starts[index]? = some ⟨.session, .running⟩) :
    (life.act (.finish index)).session = life.session.finish result := by
  have acts : life.act (.finish index) = life.finish index .session result := by
    simp only [act, complete, runs]
  rw [acts]
  obtain ⟨config, _ | hosting, terminated, starts⟩ := life
  · cases complete
  · rcases result with (_ | _ | _) | _ <;> cases terminated <;> rfl

/-! ## The invariant -/

/-- A call that got past runs, or has returned the result of the run; it terminated the session iff
it went through it. -/
inductive Follows (life : Lifetime τ) (progress : Progress) : Start → Prop where
  | running {caller : Caller} (alive : life.terminated = false) :
      Follows life progress ⟨caller, .running⟩
  | returned {caller : Caller} {result : Except Error Unit}
      (complete : Host.result? progress = some result)
      (ends : life.terminated = (caller = .session && Session.terminates result)) :
      Follows life progress ⟨caller, .returned result⟩

/-- The session, the host and the calls agree with each other. -/
structure Sound (life : Lifetime τ) : Prop where
  hosting : ∀ hosting, life.hosting? = some hosting → hosting.Sound
  idle : life.progress? = none → life.terminated = false ∧ life.past = []
  begun : ∀ progress, life.progress? = some progress →
    ∃ start, life.past = [start] ∧ life.Follows progress start
  answered : ∀ start ∈ life.starts, start.Answered

private theorem sound_create (config : Config) : (create config : Lifetime τ).Sound where
  hosting _ none := by cases none
  idle _ := ⟨rfl, rfl⟩
  begun _ none := by cases none
  answered := List.forall_mem_nil _

private theorem filter_past {start : Start} (past : start.past = true) :
    [start].filter Start.past = [start] :=
  List.filter_cons_of_pos past

private theorem filter_aside {start : Start} (aside : start.past = false) :
    [start].filter Start.past = [] :=
  List.filter_cons_of_neg (by rw [aside]; nofun)

/-- A call changes its standing; all others stay where they are. -/
theorem past_set {starts : List Start} {index : Nat} {old : Start}
    (there : starts[index]? = some old) (new : Start) :
    ∃ before behind,
      starts.filter Start.past = before ++ [old].filter Start.past ++ behind ∧
      (starts.set index new).filter Start.past =
        before ++ [new].filter Start.past ++ behind := by
  obtain ⟨inside, rfl⟩ := List.getElem?_eq_some_iff.mp there
  have whole : starts = starts.take index ++ [starts[index]] ++ starts.drop (index + 1) := by
    rw [List.append_assoc, List.singleton_append, List.getElem_cons_drop, List.take_append_drop]
  have changed : starts.set index new =
      starts.take index ++ [new] ++ starts.drop (index + 1) := by
    rw [List.set_eq_take_append_cons_drop, if_pos inside, List.append_assoc,
      List.singleton_append]
  refine ⟨(starts.take index).filter Start.past, (starts.drop (index + 1)).filter Start.past, ?_⟩
  rw [← List.filter_append, ← List.filter_append, ← List.filter_append, ← List.filter_append,
    ← whole, ← changed]
  exact ⟨rfl, rfl⟩

/-- A call that did not get past and still does not changes nothing for the others. -/
theorem past_set_aside {starts : List Start} {index : Nat} {old : Start} (new : Start)
    (there : starts[index]? = some old) (before : old.past = false) (after : new.past = false) :
    (starts.set index new).filter Start.past = starts.filter Start.past := by
  obtain ⟨_, _, same, changed⟩ := past_set there new
  rw [changed, same, filter_aside before, filter_aside after]

/-- When nobody got past, the first call that does is the only one. -/
theorem past_set_first {starts : List Start} {index : Nat} {old : Start} (new : Start)
    (there : starts[index]? = some old) (none : starts.filter Start.past = [])
    (after : new.past = true) : (starts.set index new).filter Start.past = [new] := by
  obtain ⟨_, _, same, changed⟩ := past_set there new
  rw [none] at same
  obtain ⟨front, rfl⟩ := List.append_eq_nil_iff.mp same.symm
  obtain ⟨rfl, -⟩ := List.append_eq_nil_iff.mp front
  rw [changed, filter_past after]
  rfl

/-- A call that got past as the only one goes on as the only one. -/
theorem past_set_only {starts : List Start} {index : Nat} {old only : Start} (new : Start)
    (there : starts[index]? = some old) (single : starts.filter Start.past = [only])
    (before : old.past = true) (after : new.past = true) :
    old = only ∧ (starts.set index new).filter Start.past = [new] := by
  obtain ⟨front, back, same, changed⟩ := past_set there new
  rw [filter_past before] at same
  rw [filter_past after] at changed
  have one : front ++ [old] ++ back = [only] := same.symm.trans single
  have lengths := congrArg List.length one
  simp only [List.length_append, List.length_singleton] at lengths
  obtain rfl := List.length_eq_zero_iff.mp (show front.length = 0 by omega)
  obtain rfl := List.length_eq_zero_iff.mp (show back.length = 0 by omega)
  exact ⟨List.singleton_inj.mp one, changed⟩

private theorem answered_set {starts : List Start} (answered : ∀ start ∈ starts, start.Answered)
    (index : Nat) {new : Start} (newly : new.Answered) :
    ∀ start ∈ starts.set index new, start.Answered := by
  intro start member
  obtain before | rfl := List.mem_or_eq_of_mem_set member
  · exact answered start before
  · exact newly

private theorem Sound.enter (sound : life.Sound) {start : Start} (aside : start.past = false)
    (answered : start.Answered) : (life.enter start).Sound := by
  have past : (life.enter start).past = life.past := by
    rw [Lifetime.past, Lifetime.enter, List.filter_append, filter_aside aside]
    exact List.append_nil _
  constructor
  case hosting => exact sound.hosting
  case idle =>
    intro none
    rw [past]
    exact sound.idle none
  case begun =>
    intro progress here
    obtain ⟨only, single, follows⟩ := sound.begun progress here
    refine ⟨only, past.trans single, ?_⟩
    cases follows with
    | running alive => exact .running alive
    | returned complete ends => exact .returned complete ends
  case answered =>
    exact List.forall_mem_append.mpr ⟨sound.answered, List.forall_mem_singleton.mpr answered⟩

private theorem Sound.begin (sound : life.Sound) {index : Nat} {hosting : Hosting τ}
    {caller : Caller}
    (here : life.hosting? = some hosting)
    (holds : life.starts[index]? = some ⟨caller, .holding⟩) :
    (life.begin index hosting caller).Sound := by
  have working := sound.hosting hosting here
  have running : life.progress? = hosting.progress? := by rw [progress?, here]; rfl
  cases progressed : hosting.progress? with
  | some earlier =>
    have begun : hosting.progress? ≠ none := by rw [progressed]; nofun
    have past := past_set_aside ⟨caller, .refused .alreadyStarted⟩ holds rfl rfl
    rw [Lifetime.begin, (Hosting.begin_again begun).1]
    constructor
    case hosting => exact sound.hosting
    case idle => exact fun none => absurd (running.symm.trans none) begun
    case begun =>
      intro progress there
      obtain ⟨only, single, follows⟩ := sound.begun progress there
      refine ⟨only, past.trans single, ?_⟩
      cases follows with
      | running alive => exact .running alive
      | returned complete ends => exact .returned complete ends
    case answered =>
      refine answered_set sound.answered index ?_
      rintro error ⟨⟩
      exact .inl rfl
  | none =>
    obtain ⟨alive, nobody⟩ := sound.idle (running.trans progressed)
    have past := past_set_first ⟨caller, .running⟩ holds nobody rfl
    obtain ⟨progress, begun, further⟩ := begin_first progressed
    rw [Lifetime.begin, begun]
    constructor
    case hosting =>
      rintro _ ⟨⟩
      exact working.act .start
    case idle => exact fun still => absurd (further.symm.trans still) nofun
    case begun => exact fun progress _ => ⟨_, past, .running alive⟩
    case answered => exact answered_set sound.answered index nofun

private theorem Sound.finish (sound : life.Sound) {index : Nat} {caller : Caller}
    {result : Except Error Unit} (complete : life.progress?.bind Host.result? = some result)
    (runs : life.starts[index]? = some ⟨caller, .running⟩) :
    (life.finish index caller result).Sound := by
  obtain ⟨progress, here, ended⟩ := Option.bind_eq_some_iff.mp complete
  obtain ⟨only, single, follows⟩ := sound.begun progress here
  obtain ⟨rfl, past⟩ := past_set_only ⟨caller, .returned result⟩ runs single rfl rfl
  constructor
  case hosting => exact sound.hosting
  case idle => exact fun none => absurd (here.symm.trans none) nofun
  case begun =>
    intro other there
    obtain rfl := Option.some.inj (here.symm.trans there)
    cases follows with
    | running alive =>
      refine ⟨_, past, .returned ended ?_⟩
      rw [Lifetime.finish, alive, Bool.false_or]
  case answered => exact answered_set sound.answered index nofun

/-- A run that was not begun does not begin by itself. -/
theorem idle_work {hosting : Hosting τ} (idle : hosting.progress? = none) {next : Hosting.Act}
    (aside : next ≠ .start) : (hosting.act next).progress? = none := by
  cases next with
  | near act =>
    rw [Hosting.act]
    split <;> exact idle
  | start => exact absurd rfl aside
  | serve | intake => simp only [Hosting.act, idle]

private theorem Sound.work (sound : life.Sound) {hosting : Hosting τ}
    (here : life.hosting? = some hosting)
    {next : Hosting.Act} (aside : next ≠ .start) :
    ({ life with hosting? := some (hosting.act next) } : Lifetime τ).Sound := by
  have running : life.progress? = hosting.progress? := by rw [progress?, here]; rfl
  constructor
  case hosting =>
    rintro _ ⟨⟩
    exact (sound.hosting hosting here).act next
  case idle =>
    intro still
    refine sound.idle ?_
    rw [running]
    exact Classical.not_not.mp fun begun => Hosting.begun_act begun next still
  case begun =>
    intro progress there
    have after : (hosting.act next).progress? = some progress := there
    cases earlier : hosting.progress? with
    | none => cases (idle_work earlier aside).symm.trans after
    | some before =>
      obtain ⟨only, single, follows⟩ := sound.begun before (running.trans earlier)
      refine ⟨only, single, ?_⟩
      cases follows with
      | running alive => exact .running alive
      | returned complete ends =>
        obtain ⟨served, drained, rfl, -⟩ := Hosting.result_some complete
        cases (Hosting.ended_act earlier next).symm.trans after
        exact .returned complete ends
  case answered => exact sound.answered

private theorem act_work {next : Hosting.Act} (aside : next ≠ .start) :
    life.act (.work next) = { life with hosting? := life.hosting?.map (·.act next) } := by
  cases next with
  | start => exact absurd rfl aside
  | near | serve | intake => rfl

private theorem Sound.act (sound : life.Sound) (next : Act τ) : (life.act next).Sound := by
  cases next with
  | offer peer state =>
    cases here : life.hosting? with
    | some hosting => simpa only [Lifetime.act, here] using sound
    | none =>
      have idle : life.progress? = none := by rw [progress?, here]; rfl
      simp only [Lifetime.act, here]
      constructor
      case hosting =>
        rintro _ ⟨⟩
        exact Hosting.sound_create peer state life.config
      case idle => exact fun _ => sound.idle idle
      case begun => exact fun _ none => by cases none
      case answered => exact sound.answered
  | enter caller =>
    cases here : life.hosting? with
    | some hosting =>
      simp only [Lifetime.act, here]
      exact sound.enter rfl nofun
    | none =>
      cases caller with
      | holder => simpa only [Lifetime.act, here] using sound
      | session =>
        simp only [Lifetime.act, here]
        refine sound.enter rfl ?_
        rintro error ⟨⟩
        exact .inr ⟨rfl, rfl⟩
  | begin index =>
    simp only [Lifetime.act]
    split
    next hosting caller here holds => exact sound.begin here holds
    next => exact sound
  | work next =>
    by_cases starts : next = .start
    · subst starts
      exact sound
    · rw [act_work starts]
      cases here : life.hosting? with
      | some hosting => exact sound.work here starts
      | none =>
        rw [Option.map_none, ← here]
        exact sound
  | finish index =>
    simp only [Lifetime.act]
    split
    next result caller complete runs => exact sound.finish complete runs
    next => exact sound

private theorem Sound.run (sound : life.Sound) (acts : List (Act τ)) : (life.run acts).Sound := by
  induction acts generalizing life with
  | nil => exact sound
  | cons next rest ih => exact ih (sound.act next)

/-! ## What is settled for good -/

/-- The peer that an act offers. -/
def Act.peer? : Act τ → Option (Peer τ)
  | .offer peer _ => some peer
  | .enter _ | .begin _ | .work _ | .finish _ => none

/-- The peer behind the session, once there is one. -/
def peer? (life : Lifetime τ) : Option (Peer τ) :=
  life.hosting?.map (·.peer)

/-- Only the first peer that is offered counts. -/
theorem peer_act (life : Lifetime τ) (next : Act τ) :
    (life.act next).peer? = life.peer?.or next.peer? := by
  cases next with
  | offer peer state =>
    cases here : life.hosting? <;> simp [act, peer?, Act.peer?, here, Hosting.create]
  | enter caller =>
    cases here : life.hosting? <;> cases caller <;> simp [act, peer?, Act.peer?, here, enter]
  | begin index =>
    simp only [act]
    split
    next hosting caller here holds =>
      rw [begin, peer?, here]
      split <;> simp [peer?, Act.peer?, here, Hosting.peer_act]
    next => exact Option.or_none.symm
  | work next =>
    by_cases starts : next = .start
    · subst starts
      exact Option.or_none.symm
    · rw [act_work starts]
      cases here : life.hosting? <;> simp [peer?, Act.peer?, here, Hosting.peer_act]
  | finish index =>
    simp only [act]
    split <;> exact Option.or_none.symm

private theorem peer_run (life : Lifetime τ) (acts : List (Act τ)) :
    (life.run acts).peer? = life.peer?.or (acts.findSome? Act.peer?) := by
  induction acts generalizing life with
  | nil => exact Option.or_none.symm
  | cons next rest ih =>
    have further : (life.run (next :: rest)).peer? = _ := ih (life.act next)
    rw [further, peer_act, Option.or_assoc, List.findSome?_cons]
    cases next.peer? <;> rfl

/-! ## Polls of a call -/

private theorem run_append (life : Lifetime τ) (first second : List (Act τ)) :
    life.run (first ++ second) = (life.run first).run second :=
  List.foldl_append

private theorem run_work (here : life.hosting? = some hosting) {acts : List Hosting.Act}
    (own : ∀ act ∈ acts, act.own = true) :
    life.run (acts.map .work) = { life with hosting? := some (hosting.run acts) } := by
  induction acts generalizing life hosting with
  | nil =>
    have same : { life with hosting? := some hosting } = life := by rw [← here]
    exact same.symm
  | cons next rest ih =>
    obtain ⟨first, others⟩ := List.forall_mem_cons.mp own
    have aside : next ≠ .start := by
      rintro rfl
      cases first
    have acts : life.act (.work next) = { life with hosting? := some (hosting.act next) } := by
      rw [act_work aside, here]
      rfl
    have further := @ih (life.act (.work next)) (hosting.act next) (by rw [acts]) others
    rw [acts] at further
    rw [List.map_cons]
    change (life.act (.work next)).run (rest.map .work) = _
    rw [acts]
    exact further

/-- Stated of any function, for of the run of a host it would be checked by running it. -/
theorem goOn_session (advance : Host τ → Progress → Bool × Progress × Host τ)
    (here : life.hosting? = some hosting) {after : Hosting τ}
    (host : after.host = (advance hosting.host progress).2.2) :
    life.session.goOn advance progress =
      ((advance hosting.host progress).1, (advance hosting.host progress).2.1,
        ({ life with hosting? := some after } : Lifetime τ).session) := by
  obtain ⟨config, _, terminated, starts⟩ := life
  cases here
  cases terminated with
  | false =>
    show (_, _, (⟨config, .running (advance hosting.host progress).2.2⟩ : Session τ)) = _
    rw [← host]
    rfl
  | true =>
    show (_, _, (⟨config, .terminated (advance hosting.host progress).2.2⟩ : Session τ)) = _
    rw [← host]
    rfl

/-- A poll of a call that went through the session does what acts do: the run goes on, and when it
is over the call returns. -/
theorem reaches_turn (here : life.hosting? = some hosting)
    (begun : hosting.progress? = some progress) {index : Nat}
    (runs : life.starts[index]? = some ⟨.session, .running⟩) (now : Duration)
    (jobs : List (Option Progress)) :
    ∃ acts, (life.run acts).session =
      (Session.Task.turn now (.start progress) { session := life.session, jobs }).2.session := by
  obtain ⟨acts, own, host, further⟩ := Hosting.reaches_run begun
  let later : Lifetime τ := { life with hosting? := some (hosting.run acts) }
  have reached : life.run (acts.map .work) = later := run_work here own
  rw [Session.Task.turn, goOn_session Host.run here host]
  generalize hosting.host.run progress = polled at *
  obtain ⟨moved, polled, hosted⟩ := polled
  dsimp only at *
  cases complete : Host.result? polled with
  | none => exact ⟨acts.map .work, congrArg session reached⟩
  | some result =>
    have progressed : later.progress? = some polled := further
    have ended : later.progress?.bind Host.result? = some result := by
      rw [progressed]
      exact complete
    refine ⟨acts.map .work ++ [.finish index], ?_⟩
    rw [run_append, reached]
    exact session_finish ended runs

/-! ## Whole lives -/

private theorem stateName_session (life : Lifetime τ) :
    life.session.stateName =
      if life.hosting?.isNone then "Uninitialized"
      else if life.terminated then "Terminated" else "Running" := by
  obtain ⟨config, _ | hosting, terminated, starts⟩ := life
  · rfl
  · cases terminated <;> rfl

/-- A session stays in its state or goes on to the next one. -/
inductive Moves : String → String → Prop where
  | stays (state : String) : Moves state state
  | begins : Moves "Uninitialized" "Running"
  | ends : Moves "Running" "Terminated"

private theorem moves_act (sound : life.Sound) (next : Act τ) :
    Moves life.session.stateName (life.act next).session.stateName := by
  have stays {after : Lifetime τ} (hosting : after.hosting?.isNone = life.hosting?.isNone)
      (terminated : after.terminated = life.terminated) :
      Moves life.session.stateName after.session.stateName := by
    rw [stateName_session, stateName_session, hosting, terminated]
    exact .stays _
  cases next with
  | offer peer state =>
    cases here : life.hosting? with
    | some hosting => exact stays (by simp [act, here]) (by simp [act, here])
    | none =>
      obtain ⟨alive, -⟩ := sound.idle (by rw [progress?, here]; rfl)
      rw [stateName_session, stateName_session]
      simp only [act, here, alive]
      exact .begins
  | enter caller =>
    apply stays
    · cases here : life.hosting? <;> cases caller <;> simp [act, here, enter]
    · cases here : life.hosting? <;> cases caller <;> simp [act, here, enter]
  | begin index =>
    simp only [act]
    split
    next hosting caller here holds =>
      rw [begin]
      split
      · exact stays (by rw [here]; rfl) rfl
      · exact stays rfl rfl
    next => exact .stays _
  | work next =>
    by_cases starts : next = .start
    · subst starts
      exact .stays _
    · rw [act_work starts]
      exact stays (Option.isNone_map ..) rfl
  | finish index =>
    simp only [act]
    split
    next result caller complete runs =>
      obtain ⟨progress, here, -⟩ := Option.bind_eq_some_iff.mp complete
      obtain ⟨hosting, there, -⟩ := Option.bind_eq_some_iff.mp here
      have alive : life.terminated = false := by
        obtain ⟨only, single, follows⟩ := sound.begun progress here
        obtain ⟨rfl, -⟩ := past_set_only ⟨caller, .returned result⟩ runs single rfl rfl
        cases follows
        assumption
      rw [stateName_session, stateName_session]
      simp only [finish, there, alive]
      cases caller = .session && Session.terminates result
      · exact .stays _
      · exact .ends
    next => exact .stays _

/-- The peer did not end with the error of a host that was begun before. -/
def Honest (life : Lifetime τ) : Prop :=
  ∀ progress, life.progress? = some progress → progress.served? ≠ some (.error .alreadyStarted)

private theorem terminates_result (sound : hosting.Sound) (here : hosting.progress? = some progress)
    (honest : progress.served? ≠ some (.error .alreadyStarted)) {result : Except Error Unit}
    (complete : Host.result? progress = some result) : Session.terminates result = true := by
  obtain ⟨served, drained, rfl, rfl⟩ := Hosting.result_some complete
  cases served with
  | error error =>
    unfold Session.terminates
    split
    next early =>
      cases early
      exact absurd rfl honest
    next => rfl
  | ok =>
    obtain ⟨-, well | ⟨reason, aborted, -⟩⟩ := sound.drained _ drained here rfl
    · rw [well]
      rfl
    · rw [aborted]
      rfl

/-- A call that has returned from the run has returned its result. -/
theorem Sound.over_of_returned (sound : life.Sound) {caller : Caller} {result : Except Error Unit}
    (member : ⟨caller, .returned result⟩ ∈ life.starts) :
    ∃ progress, life.progress? = some progress ∧ Host.result? progress = some result ∧
      life.terminated = (caller = .session && Session.terminates result) := by
  have member : ⟨caller, .returned result⟩ ∈ life.past := List.mem_filter.mpr ⟨member, rfl⟩
  cases here : life.progress? with
  | none =>
    rw [(sound.idle here).2] at member
    cases member
  | some progress =>
    obtain ⟨only, single, follows⟩ := sound.begun progress here
    rw [single] at member
    obtain rfl := List.mem_singleton.mp member
    cases follows with
    | returned complete ends => exact ⟨progress, rfl, complete, ends⟩

private theorem terminated_iff (sound : life.Sound) (honest : life.Honest) :
    life.session.stateName = "Terminated" ↔
      ∃ result, ⟨.session, .returned result⟩ ∈ life.starts := by
  have name : life.session.stateName = "Terminated" ↔
      life.hosting?.isSome = true ∧ life.terminated = true := by
    rw [stateName_session]
    cases life.hosting? <;> cases life.terminated <;> simp
  rw [name]
  constructor
  · rintro ⟨-, ended⟩
    cases here : life.progress? with
    | none => cases (sound.idle here).1.symm.trans ended
    | some progress =>
      obtain ⟨only, single, follows⟩ := sound.begun progress here
      cases follows with
      | running alive => cases alive.symm.trans ended
      | @returned caller result complete ends =>
        rw [ended, eq_comm, Bool.and_eq_true, decide_eq_true_iff] at ends
        obtain ⟨rfl, -⟩ := ends
        have member : ⟨.session, .returned result⟩ ∈ life.past := single ▸ List.mem_cons_self
        exact ⟨result, (List.mem_filter.mp member).1⟩
  · rintro ⟨result, member⟩
    obtain ⟨progress, here, complete, ends⟩ := sound.over_of_returned member
    obtain ⟨hosting, there, begun⟩ := Option.bind_eq_some_iff.mp here
    have working := sound.hosting hosting there
    rw [terminates_result working begun (honest progress here) complete] at ends
    exact ⟨by rw [there]; rfl, ends⟩

/-- What is true of a session after any acts. -/
structure Lifecycle (acts : List (Act τ)) (life : Lifetime τ) : Prop where
  uninitialized : life.session.stateName = "Uninitialized" ↔ life.session.host? = none
  /-- the peer is the one that was offered first, and remains so -/
  peer : life.session.host?.map (·.peer) = acts.findSome? Act.peer?
  offers : ∀ peer state,
    (life.act (.offer peer state)).session = (life.session.offer peer state).2
  /-- every later offer gives the same host back and changes nothing -/
  later : ∀ host, life.session.host? = some host → ∀ peer state,
    life.session.offer peer state = (host, life.session) ∧ life.act (.offer peer state) = life
  moves : ∀ next, Moves life.session.stateName (life.act next).session.stateName
  early : life.session.host? = none → life.session.begin = .error .notInitialized ∧
    life.act (.enter .session) = life.enter ⟨.session, .refused .notInitialized⟩
  begins : ∀ index : Nat, life.starts[index]? = some ⟨.session, .holding⟩ →
    (life.act (.begin index)).session =
      (life.session.begin.map Prod.snd).toOption.getD life.session
  finishes : ∀ (index : Nat) result, life.progress?.bind Host.result? = some result →
    life.starts[index]? = some ⟨.session, .running⟩ →
    (life.act (.finish index)).session = life.session.finish result
  /-- one call gets past the check for an earlier start, and all others are refused -/
  once : life.past.length ≤ 1
  again : life.past ≠ [] → ∀ host, life.session.host? = some host →
    host.begin = .error .alreadyStarted
  answered : ∀ start ∈ life.starts, start.Answered
  terminated : life.session.stateName = "Terminated" ↔
    ∃ result, ⟨.session, .returned result⟩ ∈ life.starts
  closed : life.session.stateName = "Terminated" → ∀ host, life.session.host? = some host →
    host.client.phase = .closed

/-- A session is offered peers and started, by anybody and at any time, and anything goes on around
its client in between. The first peer counts for good, and so does the first call that begins the
host; the session moves forward only, and it is terminated once that call has returned to somebody
who made it through the session. -/
theorem run_lifecycle (config : Config) (acts : List (Act τ))
    (honest : ((create config).run acts).Honest) :
    Lifecycle acts ((create config).run acts) := by
  have sound : ((create config).run acts : Lifetime τ).Sound := (sound_create config).run acts
  have peers := peer_run (create config) acts
  generalize (create config).run acts = life at honest sound peers ⊢
  constructor
  case uninitialized =>
    rw [stateName_session, host?_session]
    cases life.hosting? <;> cases life.terminated <;> simp
  case peer =>
    rw [host?_session, Option.map_map]
    exact peers
  case offers =>
    refine session_offer fun none => (sound.idle ?_).1
    rw [progress?, none]
    rfl
  case later =>
    intro host there peer state
    refine ⟨by rw [Session.offer, there], ?_⟩
    rw [host?_session] at there
    obtain ⟨hosting, here, -⟩ := Option.map_eq_some_iff.mp there
    simp only [act, here]
  case moves => exact moves_act sound
  case early =>
    intro none
    refine ⟨by rw [Session.begin, none], ?_⟩
    rw [host?_session] at none
    simp only [act, Option.map_eq_none_iff.mp none]
  case begins => exact fun index => session_begin
  case finishes => exact fun index result => session_finish
  case once =>
    cases here : life.progress? with
    | none => simp [(sound.idle here).2]
    | some progress =>
      obtain ⟨only, single, -⟩ := sound.begun progress here
      simp [single]
  case again =>
    intro some host there
    rw [host?_session] at there
    obtain ⟨hosting, here, rfl⟩ := Option.map_eq_some_iff.mp there
    refine (Hosting.begin_again fun idle => some ?_).1
    exact (sound.idle (by rw [progress?, here]; exact idle)).2
  case answered => exact sound.answered
  case terminated => exact terminated_iff sound honest
  case closed =>
    intro name host there
    rw [host?_session] at there
    obtain ⟨hosting, here, rfl⟩ := Option.map_eq_some_iff.mp there
    obtain ⟨result, member⟩ := (terminated_iff sound honest).mp name
    obtain ⟨progress, begun, complete, -⟩ := sound.over_of_returned member
    obtain ⟨served, drained, rfl, -⟩ := Hosting.result_some complete
    have running : hosting.progress? = some ⟨some served, some drained⟩ := by
      rw [progress?, here] at begun
      exact begun
    exact ((sound.hosting hosting here).drained _ drained running rfl).1

/-- A first call comes too early. Then two calls overlap: the one through the session begins the
host, whose peer fails. In the end a second peer is offered. -/
theorem run_lifecycle_overlapping :
    let fails := Script.fail 1 none
    let acts : List (Act Script.Playing) := [.enter .session, .offer Script.peer fails,
      .enter .session, .enter .holder, .begin 1,
      .work (.near (.call (.request ⟨"add", .null⟩ fun _ => .skip))), .begin 2, .work .serve,
      .work .serve, .work .intake, .finish 1, .offer Script.peer (Script.fail 0 none)]
    let life := (create Config.default).run acts
    life.Honest ∧ life.session.stateName = "Terminated" ∧
      life.starts = [⟨.session, .refused .notInitialized⟩,
        ⟨.session, .returned (.error (.invalidState "peer failed"))⟩,
        ⟨.holder, .refused .alreadyStarted⟩] ∧
      Lifecycle acts life := by
  intro fails acts life
  have honest : life.Honest := by
    rintro progress ⟨⟩
    nofun
  exact ⟨honest, rfl, rfl, run_lifecycle Config.default acts honest⟩

end Lifetime

end Airlock
