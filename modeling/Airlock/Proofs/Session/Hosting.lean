import Airlock.Host
import Airlock.Proofs.Client.Ending

/-!
# Hosts at work

A host at work is a host with all that goes on around its client. The peer makes its moves and the
loop takes its steps one at a time; in between anything may happen to the client, and to the link
from either side. Only the host starts the loop. Running a host as far as it goes is so many of
these acts, so what holds after any acts also holds whenever a run of the host is polled.
-/

set_option autoImplicit false

namespace Airlock

variable {τ : Type}

/-! ## Moves of a peer -/

/-- What a move does to the link. -/
def Move.links : Move τ → List LinkMove
  | .pull _ => [.pull]
  | .write unit _ => [.write unit]
  | .close _ => [.closeSink]
  | .abort reason _ => [.abort reason]
  | .finish _ => [.closeSink, .dropPeer]

/-- The link after a move. A peer that is finished drops its end. -/
def Advance.link (before : Link) : Advance τ → Link
  | .moved _ after => after
  | .waiting => before
  | .finished _ => before.closeSink.dropPeer

theorem Peer.link_advance (peer : Peer τ) (codec : Codec) (state : τ) (link : Link) :
    (peer.advance codec state link).link link =
      (peer.move codec state).links.foldl Link.after link := by
  unfold advance
  cases peer.move codec state with
  | pull next =>
    rcases link.pull_cases with ⟨_, _, -, taken⟩ | ⟨-, -, ended⟩ | ⟨-, -, same⟩
    · simp [Move.links, Link.after, taken, Advance.link]
    · simp [Move.links, Link.after, ended, Advance.link]
    · simp [Move.links, Link.after, same, Advance.link]
  | write unit next =>
    rcases link.write_cases unit with ⟨-, _, refused⟩ | accepted | ⟨-, same⟩
    · simp [Move.links, Link.after, refused, Advance.link]
    · simp [Move.links, Link.after, accepted, Advance.link]
    · simp [Move.links, Link.after, same, Advance.link]
  | close next | abort reason next | finish result => rfl

private theorem Peer.move_of_finished {peer : Peer τ} {codec : Codec} {state : τ} {link : Link}
    {result : Except Error Unit} (finished : peer.advance codec state link = .finished result) :
    peer.move codec state = .finish result := by
  unfold advance at finished
  split at finished
  · split at finished <;> cases finished
  · split at finished <;> cases finished
  · cases finished
  · cases finished
  · rename_i move
    cases finished
    exact move

namespace Client

/-- The loop ends well or with the reason of an abort, and it closes the client. -/
theorem step_ended {client after : Client} {result : Except Error Unit}
    (stepped : client.step = (.ended result, after)) :
    after.phase = .closed ∧
      (result = .ok () ∨
        ∃ reason, result = .error (.aborted reason) ∧
          client.link.sink.abortReason? = some reason) := by
  unfold step at stepped
  rcases client.link.receive_cases with
    ⟨unit, rest, -, -, taken⟩ | ⟨reason, aborted, dropped⟩ | ⟨-, -, ended⟩ | ⟨-, -, -, waits⟩
  · rw [taken] at stepped
    cases stepped
  · rw [dropped] at stepped
    cases stepped
    exact ⟨phase_close _, .inr ⟨reason, rfl, aborted⟩⟩
  · rw [ended] at stepped
    cases stepped
    exact ⟨phase_close _, .inl rfl⟩
  · rw [waits] at stepped
    cases stepped

/-- A loop that has ended with a result has still done so later. -/
theorem Keeps.drained {client after : Client} {result : Except Error Unit}
    (keeps : Keeps client after)
    (drained : client.phase = .closed ∧
      (result = .ok () ∨
        ∃ reason, result = .error (.aborted reason) ∧
          client.link.sink.abortReason? = some reason)) :
    after.phase = .closed ∧
      (result = .ok () ∨
        ∃ reason, result = .error (.aborted reason) ∧
          after.link.sink.abortReason? = some reason) :=
  ⟨keeps.phase drained.1, drained.2.imp_right fun ⟨reason, failed, aborted⟩ =>
    ⟨reason, failed, keeps.reason aborted⟩⟩

private theorem Takes.shut {client last : Client} {trail : Trail} (takes : Takes client trail last)
    (shut : client.Shut) : last.Shut := by
  have received : client.received.Shut := by
    intro closed
    have keeps := keeps_received client
    exact ⟨keeps.shut (shut closed).queue, keeps.ended (shut closed).sink⟩
  cases takes with
  | plain other chain => exact chain.shut received
  | response taken reads chain => exact chain.shut received

namespace World

variable {world : World}

private theorem run_links (moves : List LinkMove) :
    world.run (moves.map .link) = world.linked (moves.foldl Link.after world.client.link) := by
  induction moves generalizing world with
  | nil => rfl
  | cons move rest ih => exact ih

private theorem running_aside {act : Act} (aside : act.loops = false) :
    (world.act act).client.running = world.client.running := by
  cases act with
  | link move => rfl
  | call | await | shutdown | poll | forget => exact (world.chain_act rfl).running
  | start | intake | cancel => cases aside

/-- A client that is closed has closed its link, whatever happens. -/
theorem shut_act (shut : world.client.Shut) (act : Act) : (world.act act).client.Shut := by
  cases act with
  | link move =>
    intro closed
    exact ⟨queue_closed_after move (shut closed).queue, sink_closed_after move (shut closed).sink⟩
  | start =>
    rcases world.start_cases with ⟨-, -, same⟩ | ⟨-, -, after⟩
    · rw [same]
      exact shut
    · rw [after]
      exact shut
  | intake =>
    cases looping : world.looping with
    | false =>
      rw [(intake_idle looping).2]
      exact shut
    | true =>
      rw [(intake_looping looping).2]
      exact (takes_step world.client).shut shut
  | call | cancel | await | shutdown | poll | forget => exact (world.chain_act rfl).shut shut

private theorem shut_run (shut : world.client.Shut) (acts : List Act) :
    (world.run acts).client.Shut := by
  induction acts generalizing world with
  | nil => exact shut
  | cons act rest ih => exact ih (shut_act shut act)

end World

end Client

/-! ## Hosts at work -/

structure Hosting (τ : Type) where
  peer : Peer τ
  codec : Codec
  state : τ
  world : Client.World
  /-- how far the run of the host has got, if it was begun -/
  progress? : Option Progress := none

namespace Hosting

inductive Act where
  /-- anything but what the host does with the loop -/
  | near (act : Client.Act)
  | start
  /-- the peer makes one move, if it can -/
  | serve
  /-- the loop takes one step -/
  | intake

/-- The acts of a run of the host. -/
def Act.own : Act → Bool
  | .serve | .intake => true
  | .near _ | .start => false

def create (peer : Peer τ) (state : τ) (config : Config) : Hosting τ :=
  { peer, codec := config.codec, state, world := Client.World.create config }

def client (hosting : Hosting τ) : Client :=
  hosting.world.client

def host (hosting : Hosting τ) : Host τ where
  peer := hosting.peer
  codec := hosting.codec
  state := hosting.state
  client := hosting.client
  started := hosting.progress?.isSome

/-- The same work with another client. -/
def withClient (hosting : Hosting τ) (client : Client) : Hosting τ :=
  { hosting with world := { hosting.world with client } }

/-- The same work with the host and the progress of a run. -/
def become (hosting : Hosting τ) (progress : Progress) (host : Host τ) : Hosting τ :=
  { hosting with
    state := host.state
    world := { hosting.world with client := host.client, looping := progress.drained?.isNone }
    progress? := some progress }

def serve (hosting : Hosting τ) (progress : Progress) : Hosting τ :=
  match hosting.peer.advance hosting.codec hosting.state hosting.client.link with
  | .moved state link => { hosting with state, world := hosting.world.linked link }
  | .waiting => hosting
  | .finished result =>
    { hosting with
      world := hosting.world.linked hosting.client.link.closeSink.dropPeer
      progress? := some { progress with served? := some result } }

def intake (hosting : Hosting τ) (progress : Progress) : Hosting τ :=
  match hosting.client.step with
  | (.ended result, after) =>
    { hosting with
      world := { hosting.world with client := after, looping := false }
      progress? := some { progress with drained? := some result } }
  | (_, after) => { hosting with world := { hosting.world with client := after } }

def act (hosting : Hosting τ) : Act → Hosting τ
  | .near act => if act.loops then hosting else { hosting with world := hosting.world.act act }
  | .start =>
    match hosting.host.begin with
    | .ok (progress, host) => hosting.become progress host
    | .error _ => hosting
  | .serve =>
    match hosting.progress? with
    | some progress => if progress.served?.isSome then hosting else hosting.serve progress
    | none => hosting
  | .intake =>
    match hosting.progress? with
    | some progress => if progress.drained?.isSome then hosting else hosting.intake progress
    | none => hosting

def run (hosting : Hosting τ) (acts : List Act) : Hosting τ :=
  acts.foldl act hosting

/-- What an act is to the world around the client. -/
def moves (hosting : Hosting τ) : Act → List Client.Act
  | .near act => if act.loops then [] else [act]
  | .start => if hosting.progress?.isSome then [] else [.start]
  | .serve =>
    match hosting.progress? with
    | some progress =>
      if progress.served?.isSome then []
      else (hosting.peer.move hosting.codec hosting.state).links.map .link
    | none => []
  | .intake =>
    match hosting.progress? with
    | some progress => if progress.drained?.isSome then [] else [.intake]
    | none => []

def trail : Hosting τ → List Act → Client.Trail
  | _, [] => []
  | hosting, next :: rest =>
    hosting.world.trail (hosting.moves next) ++ trail (hosting.act next) rest

/-! ## The invariant -/

/-- The two loops and the client agree with the progress of the host. -/
structure Sound (hosting : Hosting τ) : Prop where
  idle : hosting.progress? = none → hosting.world.looping = false ∧ hosting.client.running = false
  running : hosting.progress? ≠ none → hosting.client.running = true
  looping : ∀ progress, hosting.progress? = some progress →
    hosting.world.looping = progress.drained?.isNone
  served : ∀ progress result, hosting.progress? = some progress →
    progress.served? = some result →
    hosting.peer.move hosting.codec hosting.state = .finish result ∧
      hosting.client.link.sink.closed = true
  drained : ∀ progress result, hosting.progress? = some progress →
    progress.drained? = some result →
    hosting.client.phase = .closed ∧
      (result = .ok () ∨
        ∃ reason, result = .error (.aborted reason) ∧
          hosting.client.link.sink.abortReason? = some reason)
  shut : hosting.client.Shut

theorem sound_create (peer : Peer τ) (state : τ) (config : Config) :
    (create peer state config).Sound where
  idle _ := ⟨rfl, rfl⟩
  running begun := absurd rfl begun
  looping _ begun := by cases begun
  served _ _ begun := by cases begun
  drained _ _ begun := by cases begun
  shut closed := by cases closed

variable {hosting : Hosting τ} {progress : Progress}

private theorem world_serve :
    (hosting.serve progress).world =
      hosting.world.run ((hosting.peer.move hosting.codec hosting.state).links.map .link) := by
  rw [Client.World.run_links]
  have linked := hosting.peer.link_advance hosting.codec hosting.state hosting.client.link
  unfold serve
  cases advanced : hosting.peer.advance hosting.codec hosting.state hosting.client.link with
  | moved state link => rw [advanced] at linked; exact congrArg hosting.world.linked linked
  | waiting => rw [advanced] at linked; exact congrArg hosting.world.linked linked
  | finished result => rw [advanced] at linked; exact congrArg hosting.world.linked linked

private theorem world_intake (looping : hosting.world.looping = true) :
    (hosting.intake progress).world = hosting.world.act .intake := by
  simp only [intake, Client.World.act, looping, if_true, client]
  rcases hosting.world.client.step with ⟨accepted | waiting | result, after⟩ <;> rfl

theorem act_serve (begun : hosting.progress? = some progress) (unserved : progress.served? = none) :
    hosting.act .serve = hosting.serve progress := by
  simp [act, begun, unserved]

theorem act_intake (begun : hosting.progress? = some progress)
    (undrained : progress.drained? = none) : hosting.act .intake = hosting.intake progress := by
  simp [act, begun, undrained]

theorem act_serve_cases (hosting : Hosting τ) :
    hosting.act .serve = hosting ∨ ∃ progress, hosting.progress? = some progress ∧
      progress.served? = none ∧ hosting.act .serve = hosting.serve progress := by
  cases begun : hosting.progress? with
  | none => exact .inl (by simp [act, begun])
  | some progress =>
    cases served : progress.served? with
    | none => exact .inr ⟨progress, rfl, served, act_serve begun served⟩
    | some result => exact .inl (by simp [act, begun, served])

theorem act_intake_cases (hosting : Hosting τ) :
    hosting.act .intake = hosting ∨ ∃ progress, hosting.progress? = some progress ∧
      progress.drained? = none ∧ hosting.act .intake = hosting.intake progress := by
  cases begun : hosting.progress? with
  | none => exact .inl (by simp [act, begun])
  | some progress =>
    cases drained : progress.drained? with
    | none => exact .inr ⟨progress, rfl, drained, act_intake begun drained⟩
    | some result => exact .inl (by simp [act, begun, drained])

/-- A host that was begun is not begun again. -/
theorem begin_again (begun : hosting.progress? ≠ none) :
    hosting.host.begin = .error .alreadyStarted ∧ hosting.act .start = hosting := by
  have started : hosting.host.started = true := Option.isSome_iff_ne_none.mpr begun
  have refused : hosting.host.begin = .error .alreadyStarted := if_pos started
  exact ⟨refused, by simp only [act, refused]⟩

theorem act_start_again (begun : hosting.progress? = some progress) :
    hosting.act .start = hosting :=
  (begin_again (Option.ne_none_iff_exists'.mpr ⟨progress, begun⟩)).2

theorem Sound.begin (sound : hosting.Sound) (idle : hosting.progress? = none) :
    hosting.act .start =
      { hosting with
        world := { hosting.world with
          client := { hosting.client with running := true }, looping := true }
        progress? := some {} } := by
  have stopped : hosting.client.running = false := (sound.idle idle).2
  simp [act, Host.begin, host, idle, Client.startDrain, stopped, become]

theorem Sound.world_act (sound : hosting.Sound) (next : Act) :
    (hosting.act next).world = hosting.world.run (hosting.moves next) := by
  cases next with
  | near act =>
    simp only [Hosting.act, moves]
    split <;> rfl
  | start =>
    cases begun : hosting.progress? with
    | none =>
      have stopped : hosting.client.running = false := (sound.idle begun).2
      rw [sound.begin begun, moves, begun]
      rcases hosting.world.start_cases with ⟨running, -, -⟩ | ⟨-, -, after⟩
      · exact absurd (running.symm.trans stopped) nofun
      · exact after.symm
    | some progress =>
      rw [act_start_again begun, moves, begun]
      rfl
  | serve =>
    cases begun : hosting.progress? with
    | none => simp only [act, moves, begun]; rfl
    | some progress =>
      simp only [act, moves, begun]
      split
      · rfl
      · exact world_serve
  | intake =>
    cases begun : hosting.progress? with
    | none => simp only [act, moves, begun]; rfl
    | some progress =>
      simp only [act, moves, begun]
      split
      · rfl
      · rename_i undrained
        refine world_intake ?_
        rw [sound.looping progress begun]
        simpa using undrained

theorem Sound.keeps (sound : hosting.Sound) (next : Act) :
    Client.Keeps hosting.client (hosting.act next).client ∧ (hosting.act next).client.Shut := by
  unfold client
  rw [sound.world_act]
  exact ⟨(hosting.world.keeps_run _).1, Client.World.shut_run sound.shut _⟩

private theorem Sound.near (sound : hosting.Sound) {act : Client.Act} (aside : act.loops = false) :
    Sound { hosting with world := hosting.world.act act } where
  idle none :=
    have ⟨looping, running⟩ := sound.idle none
    ⟨(Client.World.looping_act aside).trans looping,
      (Client.World.running_aside aside).trans running⟩
  running begun := (Client.World.running_aside aside).trans (sound.running begun)
  looping progress begun := (Client.World.looping_act aside).trans (sound.looping progress begun)
  served progress result begun served :=
    have ⟨finished, closed⟩ := sound.served progress result begun served
    ⟨finished, (hosting.world.keeps_act act).1.ended closed⟩
  drained progress result begun drained :=
    (hosting.world.keeps_act act).1.drained (sound.drained progress result begun drained)
  shut := Client.World.shut_act sound.shut act

/-- The client of a host at work may change without any of the two loops. -/
theorem Sound.goOn (sound : hosting.Sound) (begun : hosting.progress? = some progress)
    {after : Client} (keeps : Client.Keeps hosting.client after) (shut : after.Shut) :
    (hosting.withClient after).Sound where
  idle none := absurd (begun.symm.trans none) nofun
  running started := keeps.running (sound.running started)
  looping := sound.looping
  served other result here served :=
    have ⟨finished, closed⟩ := sound.served other result here served
    ⟨finished, keeps.ended closed⟩
  drained other result here drained := keeps.drained (sound.drained other result here drained)
  shut

theorem Sound.serve (sound : hosting.Sound) (begun : hosting.progress? = some progress)
    (unserved : progress.served? = none) : (hosting.serve progress).Sound := by
  have keeps : Client.Keeps hosting.client (hosting.serve progress).client := by
    unfold client
    rw [world_serve]
    exact (hosting.world.keeps_run _).1
  have shut : (hosting.serve progress).client.Shut := by
    unfold client
    rw [world_serve]
    exact Client.World.shut_run sound.shut _
  have drained {result : Except Error Unit} (ended : progress.drained? = some result) :=
    keeps.drained (sound.drained progress result begun ended)
  have started : hosting.client.running = true := sound.running (by rw [begun]; nofun)
  have looping := sound.looping progress begun
  unfold Hosting.serve at keeps shut drained ⊢
  cases advanced : hosting.peer.advance hosting.codec hosting.state hosting.client.link with
  | moved state link =>
    rw [advanced] at keeps shut drained
    constructor
    case idle => exact fun none => absurd (begun.symm.trans none) nofun
    case running => exact fun _ => started
    case looping => exact sound.looping
    case served =>
      intro other result here served
      obtain rfl := Option.some.inj (begun.symm.trans here)
      exact absurd (unserved.symm.trans served) nofun
    case drained =>
      intro other result here ended
      obtain rfl := Option.some.inj (begun.symm.trans here)
      exact drained ended
    case shut => exact shut
  | waiting => exact sound
  | finished result =>
    rw [advanced] at keeps shut drained
    constructor
    case idle => nofun
    case running => exact fun _ => started
    case looping =>
      rintro other ⟨⟩
      exact looping
    case served =>
      rintro other found ⟨⟩ ⟨⟩
      exact ⟨Peer.move_of_finished advanced, rfl⟩
    case drained =>
      rintro other found ⟨⟩ ended
      exact drained ended
    case shut => exact shut

private theorem Sound.intake (sound : hosting.Sound) (begun : hosting.progress? = some progress)
    (undrained : progress.drained? = none) : (hosting.intake progress).Sound := by
  have looping : hosting.world.looping = true := by
    rw [sound.looping progress begun, undrained]
    rfl
  have keeps : Client.Keeps hosting.client (hosting.intake progress).client := by
    unfold client
    rw [world_intake looping]
    exact (hosting.world.keeps_act .intake).1
  have shut : (hosting.intake progress).client.Shut := by
    unfold client
    rw [world_intake looping]
    exact Client.World.shut_act sound.shut .intake
  have started : hosting.client.running = true := sound.running (by rw [begun]; nofun)
  unfold Hosting.intake at keeps shut ⊢
  rcases stepped : hosting.client.step with ⟨outcome, after⟩
  rw [stepped] at keeps shut
  cases outcome with
  | accepted => exact sound.goOn begun keeps shut
  | waiting => exact sound.goOn begun keeps shut
  | ended result =>
    obtain ⟨phase, why⟩ := Client.step_ended stepped
    constructor
    case idle => nofun
    case running => exact fun _ => keeps.running started
    case looping =>
      rintro other ⟨⟩
      rfl
    case served =>
      rintro other found ⟨⟩ served
      obtain ⟨finished, closed⟩ := sound.served progress found begun served
      exact ⟨finished, keeps.ended closed⟩
    case drained =>
      rintro other found ⟨⟩ ⟨⟩
      exact ⟨phase, why.imp_right fun ⟨reason, failed, aborted⟩ =>
        ⟨reason, failed, keeps.reason aborted⟩⟩
    case shut => exact shut

theorem Sound.act (sound : hosting.Sound) (next : Act) : (hosting.act next).Sound := by
  cases next with
  | near act =>
    by_cases loops : act.loops = true
    · simp only [Hosting.act, if_pos loops]
      exact sound
    · simp only [Hosting.act, if_neg loops]
      exact sound.near (by simpa using loops)
  | start =>
    cases begun : hosting.progress? with
    | some progress =>
      rw [act_start_again begun]
      exact sound
    | none =>
      rw [sound.begin begun]
      constructor
      case idle => nofun
      case running => exact fun _ => rfl
      case looping =>
        rintro other ⟨⟩
        rfl
      case served => rintro other found ⟨⟩ ⟨⟩
      case drained => rintro other found ⟨⟩ ⟨⟩
      case shut => exact sound.shut
  | serve =>
    rcases hosting.act_serve_cases with same | ⟨progress, begun, unserved, after⟩
    · rw [same]
      exact sound
    · rw [after]
      exact sound.serve begun unserved
  | intake =>
    rcases hosting.act_intake_cases with same | ⟨progress, begun, undrained, after⟩
    · rw [same]
      exact sound
    · rw [after]
      exact sound.intake begun undrained

theorem Sound.run (sound : hosting.Sound) (acts : List Act) : (hosting.run acts).Sound := by
  induction acts generalizing hosting with
  | nil => exact sound
  | cons next rest ih => exact ih (sound.act next)

/-! ## Runs -/

/-- A host at work is a run of the world around its client. -/
theorem Sound.run_world (sound : hosting.Sound) (acts : List Act) :
    ∃ moves, (hosting.run acts).world = hosting.world.run moves ∧
      hosting.trail acts = hosting.world.trail moves := by
  induction acts generalizing hosting with
  | nil => exact ⟨[], rfl, rfl⟩
  | cons next rest ih =>
    obtain ⟨moves, world, trail⟩ := ih (sound.act next)
    refine ⟨hosting.moves next ++ moves, ?_, ?_⟩
    · rw [Client.World.run_append, ← sound.world_act]
      exact world
    · rw [Client.World.trail_append, Hosting.trail, trail, ← sound.world_act]

private theorem run_append (first second : List Act) :
    hosting.run (first ++ second) = (hosting.run first).run second :=
  List.foldl_append

/-- A host that was begun stays so. -/
theorem begun_act (begun : hosting.progress? ≠ none) (next : Act) :
    (hosting.act next).progress? ≠ none := by
  cases next with
  | near act =>
    simp only [Hosting.act]
    split <;> exact begun
  | start => rwa [(begin_again begun).2]
  | serve =>
    rcases hosting.act_serve_cases with same | ⟨progress, here, -, after⟩
    · rwa [same]
    · rw [after, serve]
      split
      · exact begun
      · exact begun
      · nofun
  | intake =>
    rcases hosting.act_intake_cases with same | ⟨progress, here, -, after⟩
    · rwa [same]
    · rw [after, intake]
      split
      · nofun
      · exact begun

theorem begun_run (begun : hosting.progress? ≠ none) (acts : List Act) :
    (hosting.run acts).progress? ≠ none := by
  induction acts generalizing hosting with
  | nil => exact begun
  | cons next rest ih => exact ih (begun_act begun next)

theorem peer_act (hosting : Hosting τ) (next : Act) :
    (hosting.act next).peer = hosting.peer := by
  cases next with
  | near act =>
    rw [Hosting.act]
    split <;> rfl
  | start =>
    rw [Hosting.act]
    split <;> rfl
  | serve =>
    rcases hosting.act_serve_cases with same | ⟨progress, -, -, after⟩
    · rw [same]
    · rw [after, Hosting.serve]
      split <;> rfl
  | intake =>
    rcases hosting.act_intake_cases with same | ⟨progress, -, -, after⟩
    · rw [same]
    · rw [after, Hosting.intake]
      split <;> rfl

/-! ## Polls of a run -/

theorem result_some {result : Except Error Unit} (complete : Host.result? progress = some result) :
    ∃ served drained, progress = ⟨some served, some drained⟩ ∧
      result = match served with
        | .ok () => drained
        | .error error => .error error := by
  obtain ⟨_ | served, _ | drained⟩ := progress
  · cases complete
  · cases complete
  · cases complete
  · cases complete
    exact ⟨served, drained, rfl, by rcases served with error | ⟨⟩ <;> rfl⟩

/-- After the peer went as far as it can. -/
def afterPeer (hosting : Hosting τ) (progress : Progress) :
    Poll (Except Error Unit) × τ × Link → Hosting τ
  | (.waiting, state, link) => { hosting with state, world := hosting.world.linked link }
  | (.ready result, state, link) =>
    { hosting with
      state
      world := hosting.world.linked link.closeSink.dropPeer
      progress? := some { progress with served? := some result } }

/-- After the loop went as far as it can. -/
def afterLoop (hosting : Hosting τ) (progress : Progress) :
    Poll (Except Error Unit) × Client → Hosting τ
  | (.waiting, client) => { hosting with world := { hosting.world with client } }
  | (.ready result, client) =>
    { hosting with
      world := { hosting.world with client, looping := false }
      progress? := some { progress with drained? := some result } }

private theorem run_peer (begun : hosting.progress? = some progress)
    (unserved : progress.served? = none) :
    ∃ count, hosting.run (List.replicate count .serve) = hosting.afterPeer progress
      (hosting.peer.run hosting.codec hosting.state hosting.client.link) := by
  -- The parts of the hosting vary in the induction over the moves of the peer.
  generalize mover : hosting.peer = peer
  generalize spoken : hosting.codec = codec
  generalize started : hosting.state = from?
  generalize linked : hosting.client.link = far
  fun_induction Peer.run peer codec from? far generalizing hosting with
  | case1 from? far next after advanced ih =>
    subst mover spoken started linked
    have moved : hosting.act .serve =
        { hosting with state := next, world := hosting.world.linked after } := by
      rw [act_serve begun unserved, serve, advanced]
    obtain ⟨count, further⟩ := @ih (hosting.act .serve) (by rw [moved]; exact begun)
      (by rw [moved]) (by rw [moved]) (by rw [moved]) (by rw [moved]; rfl)
    refine ⟨count + 1, ?_⟩
    rw [List.replicate_succ]
    refine further.trans ?_
    rw [moved]
    rcases hosting.peer.run hosting.codec next after with ⟨_ | _, state, link⟩ <;> rfl
  | case2 from? far advanced =>
    subst mover spoken started linked
    exact ⟨0, rfl⟩
  | case3 from? far result advanced =>
    subst mover spoken started linked
    refine ⟨1, ?_⟩
    have finished : hosting.run [.serve] = hosting.serve progress := act_serve begun unserved
    rw [List.replicate_one, finished, serve, advanced]
    rfl

private theorem run_loop (begun : hosting.progress? = some progress)
    (undrained : progress.drained? = none) :
    ∃ count, hosting.run (List.replicate count .intake) =
      hosting.afterLoop progress hosting.client.drain := by
  generalize near : hosting.client = client
  fun_induction Client.drain client generalizing hosting with
  | case1 client next stepped ih =>
    subst near
    have moved : hosting.act .intake =
        { hosting with world := { hosting.world with client := next } } := by
      rw [act_intake begun undrained, intake, stepped]
    obtain ⟨count, further⟩ := @ih (hosting.act .intake) (by rw [moved]; exact begun)
      (by rw [moved]; rfl)
    refine ⟨count + 1, ?_⟩
    rw [List.replicate_succ]
    refine further.trans ?_
    rw [moved]
    rcases next.drain with ⟨_ | _, client⟩ <;> rfl
  | case2 client next stepped | case3 client next result stepped =>
    subst near
    refine ⟨1, ?_⟩
    have moved : hosting.run [.intake] = hosting.intake progress := act_intake begun undrained
    rw [List.replicate_one, moved, intake, stepped]
    rfl

/-- A host with its progress is reached by acts of its own. -/
def Reaches (hosting : Hosting τ) (polled : Progress × Host τ) : Prop :=
  ∃ acts, (∀ act ∈ acts, act.own = true) ∧ (hosting.run acts).host = polled.2 ∧
    (hosting.run acts).progress? = some polled.1

private theorem Reaches.refl (begun : hosting.progress? = some progress) :
    hosting.Reaches (progress, hosting.host) :=
  ⟨[], nofun, rfl, begun⟩

private theorem own_replicate {act : Act} (own : act.own = true) (count : Nat) :
    ∀ each ∈ List.replicate count act, each.own = true := by
  intro each member
  rw [List.eq_of_mem_replicate member]
  exact own

private theorem reaches_serve (begun : hosting.progress? = some progress) :
    hosting.Reaches (hosting.host.serve progress) := by
  have started : hosting.host.started = true := by simp [host, begun]
  unfold Host.serve
  cases unserved : progress.served? with
  | some result => exact .refl begun
  | none =>
    obtain ⟨count, after⟩ := run_peer begun unserved
    refine ⟨List.replicate count .serve, own_replicate rfl count, ?_⟩
    rw [after]
    simp only [host, begun]
    rcases hosting.peer.run hosting.codec hosting.state hosting.client.link with
      ⟨result | _, state, link⟩
    · exact ⟨rfl, rfl⟩
    · exact ⟨by simp [afterPeer, client, begun, Client.World.linked], begun⟩

private theorem reaches_drain (begun : hosting.progress? = some progress) :
    hosting.Reaches (hosting.host.drain progress) := by
  unfold Host.drain
  cases undrained : progress.drained? with
  | some result => exact .refl begun
  | none =>
    obtain ⟨count, after⟩ := run_loop begun undrained
    refine ⟨List.replicate count .intake, own_replicate rfl count, ?_⟩
    rw [after]
    simp only [host, begun]
    rcases hosting.client.drain with ⟨result | _, client⟩
    · exact ⟨rfl, rfl⟩
    · exact ⟨by simp [afterLoop, Hosting.client, begun], begun⟩

private theorem Reaches.trans {first second : Progress × Host τ}
    (before : hosting.Reaches first)
    (after : ∀ later : Hosting τ, later.host = first.2 → later.progress? = some first.1 →
      later.Reaches second) : hosting.Reaches second := by
  obtain ⟨acts, own, host, begun⟩ := before
  obtain ⟨more, further, last, ended⟩ := after _ host begun
  refine ⟨acts ++ more, ?_, by rw [run_append, last], by rw [run_append, ended]⟩
  intro act member
  exact (List.mem_append.mp member).elim (own act) (further act)

private theorem reaches_round (begun : hosting.progress? = some progress) :
    hosting.Reaches (hosting.host.round progress).2 := by
  refine (reaches_serve begun).trans ?_
  intro later host here
  have drained := reaches_drain here
  rw [host] at drained
  exact drained

private theorem reaches_rounds (limit : Nat) (begun : hosting.progress? = some progress) :
    hosting.Reaches (Host.rounds limit hosting.host progress).2 := by
  induction limit generalizing hosting progress with
  | zero => exact .refl begun
  | succ limit ih =>
    have first := reaches_round begun
    rw [Host.rounds]
    generalize hosting.host.round progress = polled at first ⊢
    obtain ⟨moved, progress, host⟩ := polled
    cases moved with
    | false => exact first
    | true =>
      refine first.trans ?_
      intro later there here
      have further := ih here
      rw [there] at further
      exact further

/-- However far a poll of the run goes, it goes there by moves of the peer and steps of the loop. -/
theorem reaches_run (begun : hosting.progress? = some progress) :
    hosting.Reaches (hosting.host.run progress).2 :=
  reaches_rounds _ begun

end Hosting

end Airlock
