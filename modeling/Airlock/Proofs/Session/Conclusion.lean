import Airlock.Peer.Script
import Airlock.Proofs.Session.Hosting

/-!
# Nothing is left half open

The run of a host is over when its peer and its loop have both ended, in whatever order and for
whatever reasons. Then the client is closed with both channels, every request that was ever issued
has come to a result, and it is settled for good what the run returned. A host that was started once
is never started again.
-/

set_option autoImplicit false

namespace Airlock

namespace Client

variable {client : Client} {history : History} {id : Id} {found : Except Error Value}

/-- Why a request came to a result: its response, its timeout, or the end of the client. -/
inductive Grounds (history : History) (id : Id) : Except Error Value → Prop where
  | answered {outcome : Outcome} (arrived : history.Answered id outcome) :
      Grounds history id (result outcome)
  | expired {timeout : Duration} (late : .expired id timeout ∈ history) :
      Grounds history id (.error (.timeout id timeout))
  | closed (ended : .closed ∈ history) : Grounds history id (.error .closed)

private theorem Grounds.cons (grounds : Grounds history id found) (occurrence : Occurrence) :
    Grounds (occurrence :: history) id found := by
  cases grounds with
  | answered arrived => exact .answered (arrived.cons occurrence)
  | expired late => exact .expired (List.mem_cons_of_mem _ late)
  | closed ended => exact .closed (List.mem_cons_of_mem _ ended)

private theorem grounds_of_decided (decided : history.verdict id = .decided found) :
    Grounds history id found := by
  induction history with
  | nil => cases decided
  | cons occurrence history ih =>
    rw [History.verdict_cons] at decided
    cases before : History.verdict id history with
    | decided earlier =>
      rw [before] at decided
      exact (ih (before.trans decided)).cons occurrence
    | unissued =>
      rw [before] at decided
      cases occurrence with
      | issued other call =>
        by_cases same : other = id
        · cases (if_pos same).symm.trans decided
        · cases (if_neg same).symm.trans decided
      | _ => cases decided
    | undecided =>
      rw [before] at decided
      cases occurrence with
      | arrived other outcome waited =>
        by_cases same : other = id
        · cases (if_pos same).symm.trans decided
          exact .answered ⟨waited, same ▸ List.mem_cons_self⟩
        · cases (if_neg same).symm.trans decided
      | expired other timeout =>
        by_cases same : other = id
        · cases (if_pos same).symm.trans decided
          exact .expired (same ▸ List.mem_cons_self)
        · cases (if_neg same).symm.trans decided
      | closed =>
        cases decided
        exact .closed List.mem_cons_self
      | _ => cases decided

/-- A request was issued iff there is a verdict on it. -/
theorem issued_iff : history.Issued id ↔ history.verdict id ≠ .unissued := by
  constructor
  · rintro ⟨call, member⟩
    induction history with
    | nil => cases member
    | cons occurrence history ih =>
      rw [History.verdict_cons]
      rcases List.mem_cons.mp member with rfl | before
      · cases History.verdict id history with
        | unissued => simp [Verdict.next]
        | undecided | decided => nofun
      · exact Verdict.next_issued (ih before) occurrence
  · intro known
    induction history with
    | nil => exact absurd rfl known
    | cons occurrence history ih =>
      rw [History.verdict_cons] at known
      rcases Verdict.next_cases id (History.verdict id history) occurrence with
        same | ⟨-, call, rfl⟩ | ⟨undecided, -⟩
      · exact (ih (same ▸ known)).cons occurrence
      · exact ⟨call, List.mem_cons_self⟩
      · exact (ih (by rw [undecided]; nofun)).cons occurrence

private theorem World.Told.settled (told : World.Told history client)
    (empty : client.pending.ids = [])
    (issued : history.Issued id) :
    ∃ found, ComesTo history client id found ∧ Grounds history id found := by
  cases verdict : history.verdict id with
  | unissued => exact absurd verdict (issued_iff.mp issued)
  | undecided =>
    have flies := (told.tracked.pending id).mpr verdict
    rw [empty] at flies
    cases flies
  | decided found => exact ⟨found, told.comesTo verdict, grounds_of_decided verdict⟩

/-- A closed client refuses every call. -/
theorem refused_of_closed (closed : client.phase = .closed) (call : Call) :
    (client.request call).1 = .error .closed ∧ client.notify call = .error .closed := by
  refine ⟨?_, if_pos closed⟩
  simp [request, begin, closed]

end Client

namespace Hosting

variable {τ : Type} {hosting : Hosting τ} {progress : Progress}

private theorem begun_of_start {acts : List Act} (started : .start ∈ acts) (sound : hosting.Sound) :
    (hosting.run acts).progress? ≠ none := by
  induction acts generalizing hosting with
  | nil => cases started
  | cons next rest ih =>
    rcases List.mem_cons.mp started with rfl | later
    · refine begun_run ?_ rest
      cases begun : hosting.progress? with
      | none =>
        rw [sound.begin begun]
        nofun
      | some progress =>
        have same := act_start_again begun
        rw [same, begun]
        nofun
    · exact ih later (sound.act next)

/-- The loop has a result only since a step of it ended with that result. -/
theorem drained_act (sound : hosting.Sound) {next : Act} {drained : Except Error Unit}
    (begun : (hosting.act next).progress? = some progress)
    (ended : progress.drained? = some drained) :
    (∃ earlier, hosting.progress? = some earlier ∧ earlier.drained? = some drained) ∨
      next = .intake ∧ hosting.client.step.1 = .ended drained := by
  cases next with
  | near act =>
    left
    rw [Hosting.act] at begun
    split at begun <;> exact ⟨progress, begun, ended⟩
  | start =>
    left
    cases idle : hosting.progress? with
    | none =>
      rw [sound.begin idle] at begun
      cases begun
      cases ended
    | some earlier =>
      rw [act_start_again idle] at begun
      exact ⟨progress, idle.symm.trans begun, ended⟩
  | serve =>
    left
    rcases hosting.act_serve_cases with same | ⟨earlier, here, -, after⟩
    · rw [same] at begun
      exact ⟨progress, begun, ended⟩
    · rw [after, serve] at begun
      refine ⟨earlier, here, ?_⟩
      split at begun
      · cases here.symm.trans begun
        exact ended
      · cases here.symm.trans begun
        exact ended
      · cases begun
        exact ended
  | intake =>
    rcases hosting.act_intake_cases with same | ⟨earlier, here, undrained, after⟩
    · rw [same] at begun
      exact .inl ⟨progress, begun, ended⟩
    · rw [after, intake] at begun
      split at begun
      · rename_i result client stepped
        cases begun
        cases ended
        exact .inr ⟨rfl, congrArg Prod.fst stepped⟩
      · cases here.symm.trans begun
        cases undrained.symm.trans ended

private theorem drained_run (sound : hosting.Sound) {acts : List Act} {drained : Except Error Unit}
    (begun : (hosting.run acts).progress? = some progress)
    (ended : progress.drained? = some drained) :
    (∃ earlier, hosting.progress? = some earlier ∧ earlier.drained? = some drained) ∨
      ∃ before rest, acts = before ++ .intake :: rest ∧
        (hosting.run before).client.step.1 = .ended drained := by
  induction acts generalizing hosting with
  | nil => exact .inl ⟨progress, begun, ended⟩
  | cons next rest ih =>
    rcases ih (sound.act next) begun with ⟨earlier, here, before⟩ | ⟨before, behind, rfl, stepped⟩
    · rcases drained_act sound here before with already | ⟨rfl, stepped⟩
      · exact .inl already
      · exact .inr ⟨[], rest, rfl, stepped⟩
    · exact .inr ⟨next :: before, behind, rfl, stepped⟩

/-- When both have ended, nothing that happens changes that any more. -/
theorem ended_act {served drained : Except Error Unit}
    (complete : hosting.progress? = some ⟨some served, some drained⟩) (next : Act) :
    (hosting.act next).progress? = some ⟨some served, some drained⟩ := by
  cases next with
  | near act =>
    rw [Hosting.act]
    split <;> exact complete
  | start => rwa [act_start_again complete]
  | serve =>
    rcases hosting.act_serve_cases with same | ⟨progress, here, unserved, -⟩
    · rwa [same]
    · cases complete.symm.trans here
      cases unserved
  | intake =>
    rcases hosting.act_intake_cases with same | ⟨progress, here, undrained, -⟩
    · rwa [same]
    · cases complete.symm.trans here
      cases undrained

private theorem ended_run {served drained : Except Error Unit}
    (complete : hosting.progress? = some ⟨some served, some drained⟩) (acts : List Act) :
    (hosting.run acts).progress? = some ⟨some served, some drained⟩ := by
  induction acts generalizing hosting with
  | nil => exact complete
  | cons next rest ih => exact ih (ended_act complete next)

/-! ## What a run leaves behind -/

/-- What a run that is over leaves behind, and what it returns. -/
structure Concluded (start : Hosting τ) (acts : List Act) (progress : Progress)
    (result : Except Error Unit) : Prop where
  phase : (start.run acts).client.phase = .closed
  pending : (start.run acts).client.pending.ids = []
  queue : (start.run acts).client.link.queue.closed = true
  sink : (start.run acts).client.link.sink.closed = true
  refused : ∀ later call, (((start.run acts).run later).client.request call).1 = .error .closed ∧
    ((start.run acts).run later).client.notify call = .error .closed
  /-- the error of the peer, if it failed, and otherwise what the loop ended with -/
  result : ∃ served drained, progress = ⟨some served, some drained⟩ ∧
    (start.run acts).peer.move (start.run acts).codec (start.run acts).state = .finish served ∧
    (∃ before rest, acts = before ++ .intake :: rest ∧
      (start.run before).client.step.1 = .ended drained) ∧
    result = match served with
      | .ok () => drained
      | .error error => .error error
  final : ∀ later, ((start.run acts).run later).progress? = some progress
  /-- every request, up to so many that no number comes round again, has come to its response, to
  its timeout or to nothing -/
  settled : (start.trail acts).history.calls < 0x8000000000000000 →
    ∀ id, (start.trail acts).history.Issued id → ∃ found,
      Client.ComesTo (start.trail acts).history (start.run acts).client id found ∧
        Client.Grounds (start.trail acts).history id found

/-- A host is started, and anything goes on around it. It is never started again. A poll of its run
goes on by further acts; and once both the peer and the loop have ended, nothing is left half
open. -/
theorem run_leaves_nothing_open (peer : Peer τ) (state : τ) (config : Config) (acts : List Act)
    (started : .start ∈ acts) :
    let start := create peer state config
    let reached := start.run acts
    ∃ progress, reached.progress? = some progress ∧
      reached.host.begin = .error .alreadyStarted ∧ reached.act .start = reached ∧
      reached.Reaches (reached.host.run progress).2 ∧
      ∀ result, Host.result? progress = some result → Concluded start acts progress result := by
  intro start reached
  have fresh : start.Sound := sound_create peer state config
  have begun : reached.progress? ≠ none := begun_of_start started fresh
  obtain ⟨refused, same⟩ := begin_again begun
  obtain ⟨progress, here⟩ := Option.ne_none_iff_exists'.mp begun
  refine ⟨progress, here, refused, same, reaches_run here, ?_⟩
  intro result complete
  obtain ⟨served, drained, rfl, first⟩ := result_some complete
  have sound : reached.Sound := fresh.run acts
  obtain ⟨finished, -⟩ := sound.served _ served here rfl
  obtain ⟨closed, -⟩ := sound.drained _ drained here rfl
  obtain ⟨moves, world, trail⟩ := fresh.run_world acts
  have near : reached.client = ((Client.World.create config).run moves).client :=
    congrArg Client.World.client world
  have torn : Client.Torn reached.client := by
    rw [near] at closed ⊢
    exact (Client.World.run_audited config moves).kept.torn closed
  constructor
  case phase => exact closed
  case pending => exact torn.pending
  case queue => exact torn.queue
  case sink => exact torn.sink
  case refused =>
    intro later call
    obtain ⟨further, after, -⟩ := sound.run_world later
    apply Client.refused_of_closed
    unfold client
    rw [after]
    exact (reached.world.keeps_run further).1.phase closed
  case result =>
    refine ⟨served, drained, rfl, finished, ?_, first⟩
    rcases drained_run fresh here rfl with ⟨earlier, none, -⟩ | stepped
    · cases none
    · exact stepped
  case final => exact fun later => ended_run here later
  case settled =>
    intro few id issued
    have told : Client.World.Told (start.trail acts).history reached.client := by
      rw [trail] at few ⊢
      rw [near]
      exact Client.World.run_told few
    exact told.settled torn.pending issued

/-- A peer that pulls the only request and fails: the run returns the failure, though its loop ended
well, and the request comes to nothing. -/
theorem run_leaves_nothing_open_failed :
    let start := create Script.peer (Script.fail 1 none) Config.default
    let acts : List Act :=
      [.near (.call (.request ⟨"add", .null⟩ fun _ => .skip)), .start, .serve, .serve, .intake]
    let progress : Progress := ⟨some (.error (.invalidState "peer failed")), some (.ok ())⟩
    .start ∈ acts ∧ (start.run acts).progress? = some progress ∧
      (start.run acts).client.result? (.nth 1) = some (.error .closed) ∧
      Concluded start acts progress (.error (.invalidState "peer failed")) := by
  refine ⟨.tail _ (.head _), rfl, rfl, ?_⟩
  obtain ⟨progress, begun, -, -, -, concludes⟩ :=
    run_leaves_nothing_open Script.peer (Script.fail 1 none) Config.default
      [.near (.call (.request ⟨"add", .null⟩ fun _ => .skip)), .start, .serve, .serve, .intake]
      (.tail _ (.head _))
  obtain rfl := Option.some.inj begun
  exact concludes (.error (.invalidState "peer failed")) rfl

end Hosting

end Airlock
