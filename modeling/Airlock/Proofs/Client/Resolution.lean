import Airlock.Proofs.Client.Soundness
import Airlock.Proofs.Client.Tracking

/-!
# Resolution of requests

Every handle resolves at most once, with what the history decided. Nothing else that happens to the
client has any influence on it.
-/

set_option autoImplicit false

namespace Airlock.Client

variable {history : History} {client after : Client}

/-! ## Runs -/

/-- What holds of every occurrence of a run: the client reflects the verdicts after it, and a
handle that resolves has not resolved before and gets what was decided. -/
structure Resolves (history : History) (_before : Client) (occurrence : Occurrence)
    (after : Client) : Prop where
  reflects : Reflects (occurrence :: history) after
  resolved : ∀ id found, occurrence = .resolved id found →
    history.verdict id = .decided found ∧ id ∉ history.resolutions

private theorem Tracked.resolves_of {occurrence : Occurrence}
    (tracked : Tracked (occurrence :: history) after) (other : occurrence.resolves = false) :
    Resolves history client occurrence after := by
  refine ⟨tracked.toReflects, ?_⟩
  rintro id found rfl
  cases other

private theorem Tracked.resolves {occurrence : Occurrence}
    (tracked : Tracked (occurrence :: history) after)
    (other : occurrence.resolves = false) :
    Trail.Along Resolves history client [(occurrence, after)] ∧
      Tracked (history.extend [(occurrence, after)]) after :=
  ⟨⟨tracked.resolves_of other, trivial⟩, tracked⟩

private theorem Tracked.resolves_same (tracked : Tracked history client) {occurrence : Occurrence}
    (still : occurrence.still = true) (steady : Steady client after) :
    Trail.Along Resolves history client [(occurrence, after)] ∧
      Tracked (history.extend [(occurrence, after)]) after := by
  obtain ⟨-, -, -, -, other⟩ := Occurrence.still_spec still history
  exact (tracked.same still steady).resolves other

private theorem Tracked.resolves_cons {middle : Client} {occurrence : Occurrence} {rest : Trail}
    (tracked : Tracked history client) (still : occurrence.still = true)
    (steady : Steady client middle)
    (further : Tracked (occurrence :: history) middle →
      Trail.Along Resolves (occurrence :: history) middle rest ∧
        Tracked (History.extend (occurrence :: history) rest) after) :
    Trail.Along Resolves history client ((occurrence, middle) :: rest) ∧
      Tracked (history.extend ((occurrence, middle) :: rest)) after := by
  have first := tracked.same still steady
  obtain ⟨along, final⟩ := further first
  obtain ⟨-, -, -, -, other⟩ := Occurrence.still_spec still history
  rw [History.extend_cons]
  exact ⟨⟨first.resolves_of other, along⟩, final⟩

theorem steady_abandonHandshake (client : Client) (id : Id) :
    Steady client (client.abandonHandshake id) := by
  unfold abandonHandshake
  split <;> exact {}

/-- Taking out a number that is not in flight changes nothing. -/
theorem steady_leaving {id : Id} (fresh : id ∉ client.pending.ids) :
    Steady client (client.numbered.leaving id) := by
  constructor
  case pending =>
    apply List.filter_eq_self.mpr
    intro other member
    apply decide_eq_true
    rintro rfl
    exact fresh member
  case delivered => rfl
  case handles => rfl

theorem ids_close (live : client.phase ≠ .closed) :
    client.close.pending.ids = [] ∧ client.close.delivered = client.delivered ∧
      client.close.handles = client.handles := by
  unfold close
  rw [if_neg live]
  exact ⟨rfl, rfl, rfl⟩

private theorem Tracked.result_decided (tracked : Tracked history client)
    (rest : history.frame.mode = .resting) {id : Id} (waits : id ∈ history.frame.waiting)
    {found : Except Error Value} (decided : client.result? id = some found) :
    history.verdict id = .decided found := by
  obtain ⟨known, unresolved⟩ := tracked.awaits waits
  rw [tracked.result rest known unresolved] at decided
  cases verdict : history.verdict id with
  | unissued => exact absurd verdict known
  | undecided =>
    rw [verdict] at decided
    cases decided
  | decided result =>
    rw [verdict] at decided
    cases decided
    rfl

private theorem tracked_step {chunk : Trail}
    (few : (history.extend chunk).calls < 0x8000000000000000)
    (kept : Kept history client) (tracked : Tracked history client)
    (step : Step history client chunk after) :
    Trail.Along Resolves history client chunk ∧ Tracked (history.extend chunk) after := by
  have number : Id.number client.nextId = .nth (history.calls + 1) := by
    rw [kept.numbered.next]
    rfl
  have highest : ∀ id, history.verdict id ≠ .unissued →
      ∃ earlier, earlier < history.calls + 1 ∧ id = .nth earlier := by
    intro id issued
    obtain ⟨count, small, same⟩ := tracked.issued id issued
    exact ⟨count, by omega, same⟩
  cases step with
  | refused barred => exact tracked.resolves_same rfl {}
  | withdrawn live plain =>
    simp only [History.extend_cons, History.extend_nil, History.calls_cons, Occurrence.calls,
      if_neg plain] at few
    exact tracked.resolves_same rfl (steady_leaving (kept.numbered.fresh few))
  | issued live plain sent =>
    simp only [History.extend_cons, History.extend_nil, History.calls_cons, Occurrence.calls,
      if_neg plain] at few
    subst sent
    rw [number]
    refine Tracked.resolves (tracked.issue (history.calls + 1) highest few ?_ rfl rfl rfl) rfl
    have one : (.issued (.nth (history.calls + 1)) _ : Occurrence).calls = 1 := if_neg plain
    exact Nat.le_of_eq (one ▸ (History.calls_cons _ history).symm)
  | attemptWithdrawn idle opening undone =>
    simp only [History.extend_cons, History.extend_nil, History.calls_cons, Occurrence.calls,
      if_pos opening] at few
    subst undone
    have steady := steady_leaving (kept.numbered.fresh few)
    exact tracked.resolves_cons rfl {} fun tracked =>
      tracked.resolves_same rfl ⟨steady.pending, rfl, rfl⟩
  | attemptIssued idle opening sent =>
    simp only [History.extend_cons, History.extend_nil, History.calls_cons, Occurrence.calls,
      if_pos opening] at few
    subst sent
    rw [number]
    refine tracked.resolves_cons rfl {} ?_
    intro tracked
    refine Tracked.resolves (tracked.issue (history.calls + 1) ?_ few ?_ rfl rfl rfl) rfl
    · intro id issued
      rw [History.verdict_cons, Verdict.next_idle rfl] at issued
      exact highest id issued
    · rw [History.calls_cons, Occurrence.calls, if_pos opening]
      exact Nat.le_refl _
  | held fresh => exact (tracked.hold fresh).resolves rfl
  | released => exact (tracked.drop (.inl ⟨rfl, rfl⟩)).resolves rfl
  | notified live => exact tracked.resolves_same rfl {}
  | queued early => exact tracked.resolves_same rfl {}
  | started late =>
    exact tracked.resolves_cons rfl {} fun tracked => tracked.resolves_same rfl {}
  | dropped late => exact tracked.resolves_same rfl {}
  | began next => exact tracked.resolves_same rfl {}
  | ended innermost => exact tracked.resolves_same rfl {}
  | closed live =>
    obtain ⟨pending, delivered, handles⟩ := ids_close live
    exact (tracked.close pending delivered handles).resolves rfl
  | arrived rest => exact (tracked.arrive rest _ _).resolves rfl
  | settled last outstanding past =>
    subst past
    exact tracked.resolves_same rfl {}
  | announced last live => exact tracked.resolves_same rfl {}
  | abandoned last outstanding => exact tracked.resolves_same rfl (steady_abandonHandshake client _)
  | gathered draining free some taken =>
    subst taken
    exact tracked.resolves_same rfl {}
  | opened draining free none open? done =>
    subst done
    exact tracked.resolves_same rfl {}
  | delivered waited free idle past done handed =>
    subst handed
    exact (tracked.deliver waited).resolves rfl
  | orphaned stray free idle past done noted =>
    subst noted
    refine Tracked.resolves (tracked.moved rfl ?_ rfl rfl (fun _ member => member) tracked.once
      tracked.known) rfl
    intro other answer
    constructor
    · rintro ⟨settled, mode⟩
      cases mode
    · rintro ⟨settled, mode⟩
      rw [stray] at mode
      cases mode
  | replied => exact tracked.resolves_same rfl {}
  | awaitedHeld held => exact (tracked.awaitHeld held).resolves rfl
  | awaitedFresh fresh => exact (tracked.awaitNew fresh).resolves rfl
  | @expired id timeout _ rest waits open? forgotten =>
    subst forgotten
    have steady := steady_abandonHandshake (client.leaving id) id
    have pending (other : Id) :
        other ∈ ((client.leaving id).abandonHandshake id).pending.ids ↔
          other ∈ client.pending.ids ∧ other ≠ id := by
      rw [steady.pending]
      exact mem_leaving
    have sublist : ((client.leaving id).abandonHandshake id).pending.ids.Sublist
        client.pending.ids := by
      rw [steady.pending]
      exact List.filter_sublist
    obtain ⟨decided, reflects, final⟩ := tracked.expire timeout rest waits open? pending sublist
      steady.delivered steady.handles
    obtain ⟨-, unresolved⟩ := tracked.awaits waits
    refine ⟨⟨⟨reflects, ?_⟩, ⟨final.toReflects, ?_⟩, trivial⟩, final⟩
    · intro other found here
      cases here
    · intro other found here
      cases here
      exact ⟨decided, unresolved⟩
  | @resolved _ found rest waits decided =>
    have final := tracked.resolve waits found
    obtain ⟨-, unresolved⟩ := tracked.awaits waits
    refine ⟨⟨⟨final.toReflects, ?_⟩, trivial⟩, final⟩
    intro other result here
    cases here
    exact ⟨tracked.result_decided rest waits decided, unresolved⟩
  | forgotten => exact (tracked.drop (.inr ⟨rfl, rfl⟩)).resolves rfl
  | quiet alike =>
    exact tracked.resolves_same rfl
      ⟨by rw [alike.same], by rw [alike.same], by rw [alike.same]⟩

/-- A path with few calls keeps the invariant, and resolves as decided. -/
theorem tracked_path {trail : Trail} (path : Path history client trail after)
    (few : (history.extend trail).calls < 0x8000000000000000) (kept : Kept history client)
    (tracked : Tracked history client) :
    Trail.Along Resolves history client trail ∧ Kept (history.extend trail) after ∧
      Tracked (history.extend trail) after :=
  @Path.along_within _ (fun history => history.calls < 0x8000000000000000)
    (fun history client => Kept history client ∧ Tracked history client) Resolves
    (fun bounded => Nat.lt_of_le_of_lt (calls_extend _ _) bounded)
    (fun bounded both step => by
      obtain ⟨along, tracked⟩ := tracked_step bounded both.1 both.2 step
      exact ⟨along, (kept_step both.1 step).2, tracked⟩) _ _ _ _ path few ⟨kept, tracked⟩

/-- A poll of an awaited handle goes by the verdict on its request. -/
theorem Tracked.poll (tracked : Tracked history client) (rest : history.frame.mode = .resting)
    {awaited : Awaited} (waits : awaited.id ∈ history.frame.waiting) (now : Duration) :
    (client.pollAwaited now awaited).1 =
      (history.verdict awaited.id).poll client.timeout? now awaited := by
  obtain ⟨known, unresolved⟩ := tracked.awaits waits
  have decided := tracked.result rest known unresolved
  unfold pollAwaited
  rw [decided]
  cases history.verdict awaited.id with
  | decided found => rfl
  | unissued | undecided =>
    cases client.timeout? with
    | none => rfl
    | some timeout =>
      dsimp only [Verdict.poll]
      split <;> rfl

/-- What a handle resolved with is still the verdict at the end. -/
theorem verdict_of_resolved {trail : Trail}
    (along : Trail.Along Resolves history client trail)
    (before : ∀ id found, .resolved id found ∈ history → history.verdict id = .decided found) :
    ∀ id found, .resolved id found ∈ history.extend trail →
      (history.extend trail).verdict id = .decided found := by
  induction trail generalizing history client with
  | nil => exact before
  | cons entry rest ih =>
    obtain ⟨here, further⟩ := along
    rw [History.extend_cons]
    apply ih further
    intro id found member
    have decided : history.verdict id = .decided found := by
      rcases List.mem_cons.mp member with now | earlier
      · exact (here.resolved id found now.symm).1
      · exact before id found earlier
    rw [History.verdict_cons, decided]
    rfl

namespace World

/-- In every run with fewer than `2 ^ 63` calls for a request: at every point the requests in flight
are in order those that are undecided, and what was handed over for a request is what decided it;
every handle resolves at most once, with what was decided; and a poll of an awaited handle is
answered by the verdict on its request alone. -/
theorem run_resolves (config : Config) (acts : List Act)
    (few : ((create config).trail acts).history.calls < 0x8000000000000000) :
    let start := create config
    let trail := start.trail acts
    let reached := start.run acts
    Trail.Along Resolves [] start.client trail ∧
      Trail.last start.client trail = reached.client ∧
      Reflects trail.history reached.client ∧
      trail.history.resolutions.Nodup ∧
      (∀ id found, .resolved id found ∈ trail.history →
        trail.history.verdict id = .decided found) ∧
      ∀ waiter ∈ reached.waiters, ∀ now,
        (reached.client.pollAwaited now waiter.awaited).1 =
          (trail.history.verdict waiter.awaited.id).poll reached.client.timeout? now
            waiter.awaited := by
  intro start trail reached
  obtain ⟨path, follows⟩ := path_trail (follows_create config) acts
  obtain ⟨along, -, tracked⟩ :=
    tracked_path path few (kept_create config _) (tracked_create config _)
  refine ⟨along, path.last, tracked.toReflects, ?_, verdict_of_resolved along ?_, ?_⟩
  · have moved := (List.nodup_append.mp tracked.once).2.1
    exact (List.nodup_append.mp moved).2.1
  · intro id found member
    cases member
  · intro waiter member now
    apply tracked.poll follows.calm.mode
    rw [follows.waiting]
    exact List.mem_map_of_mem member

/-- A client that is closed while the peer was asked for the orderly end: the handle resolves. -/
theorem run_resolves_closed :
    let acts : List Act := [.shutdown, .call (.close .skip), .poll (.nth 1) ⟨0⟩]
    let history := ((create Config.default).trail acts).history
    history.calls = 1 ∧ history.verdict (.nth 1) = .decided (.error .closed) := by
  intro acts history
  have one : history.calls = 1 := by decide +kernel
  have few : history.calls < 0x8000000000000000 := by
    rw [one]
    decide
  have last : history.head? = some (.resolved (.nth 1) (.error .closed)) := rfl
  obtain ⟨-, -, -, -, decided, -⟩ := run_resolves Config.default acts few
  exact ⟨one, decided _ _ (List.mem_of_mem_head? last)⟩

end World

end Airlock.Client
