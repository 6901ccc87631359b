import Airlock.Proofs.Client.Following

/-!
# When a drain ends

While hooks are drained every callback returns, since the hooks that it registers only wait. So each
batch comes to its end, and a hook that waits starts with the next one. The drain as a whole ends
just when only so many hooks are registered.
-/

set_option autoImplicit false

namespace Airlock.Client

variable {σ π : Type}

/-! ## What is listed of hooks -/

theorem Trail.begun_append (first second : Trail π) :
    Trail.begun (first ++ second) = first.begun ++ second.begun := by
  rw [Trail.begun, Trail.history, History.extend_append, begun_extend]
  rfl

private theorem begun_requestTrail (client : Client π) (call : Call) :
    (client.requestTrail call).begun = [] := by
  unfold requestTrail submitted
  split
  · rfl
  · dsimp only
    split <;> split <;> rfl

private theorem begun_closeTrail (client : Client π) : client.closeTrail.begun = [] := by
  unfold closeTrail
  split <;> rfl

private theorem registered_grows (history : History π) (trail : Trail π) :
    history.registered <+: (history.extend trail).registered := by
  induction trail generalizing history with
  | nil => exact List.prefix_refl _
  | cons entry rest ih =>
    rw [History.extend_cons]
    refine List.IsPrefix.trans ?_ (ih (entry.1 :: history))
    cases entry.1 with
    | registered hook => exact List.prefix_append _ _
    | _ => exact List.prefix_refl _

/-- What comes next in a client whose handshake is not done: the callback goes on, or has come to
its end. No hook starts. -/
def Move.Quiet (move : Move π) : Onward π → Prop
  | .goes next => move.GoesOn next
  | .nests _ _ => False
  | .finished _ => True

private theorem quiet_carryOut {client : Client π} (early : client.phase ≠ .initialized)
    (move : Move π) :
    (client.carryOut move).1.begun = [] ∧ Move.Quiet move (client.carryOut move).2.2 := by
  cases move with
  | finish outcome => exact ⟨rfl, trivial⟩
  | request call next =>
    have none := begun_requestTrail client call
    rw [carryOut]
    split
    · rename_i id sent _
      exact ⟨(Trail.begun_append _ _).trans (by rw [none]; rfl), .ok id, rfl⟩
    · rename_i error _ _
      exact ⟨none, .error error, rfl⟩
  | notify call next =>
    rw [carryOut]
    split
    · exact ⟨rfl, .ok (), rfl⟩
    · rename_i error _
      exact ⟨rfl, .error error, rfl⟩
  | hook body next =>
    rw [carryOut]
    split
    · exact ⟨rfl, rfl⟩
    · exact ⟨rfl, rfl⟩
    · rename_i late
      exact absurd late early
    · exact ⟨rfl, rfl⟩
  | close next => exact ⟨begun_closeTrail client, rfl⟩
  | onNotification | onRequest | note => exact ⟨rfl, rfl⟩
  | takeEvents | phase | pending | release | holds => exact ⟨rfl, _, rfl⟩

private theorem begun_conclude (client : Client π) (outcome : Outcome) (purpose : Purpose π) :
    (client.conclude outcome purpose).1.begun = [] := by
  cases purpose with
  | answer id =>
    unfold conclude replyTrail
    dsimp only
    split <;> rfl
  | plain | hook => rfl

namespace Machine

variable {code : Behaviour σ π} {machine : Machine σ π} {history : History π}

/-! ## Batches end -/

/-- A callback that is called while hooks are drained returns, and starts no hook. -/
theorem leads_return (code : Behaviour σ π) {machine : Machine σ π} {now : Running π}
    {outer : List (Running π)} (running : machine.running = now :: outer)
    (early : machine.client.phase ≠ .initialized) :
    ∃ trail after, machine.Leads code trail after ∧ trail.begun = [] ∧ after.running = outer ∧
      after.drain? = machine.drain? ∧ after.client.phase ≠ .initialized := by
  -- The induction is on the shared state and the code that is left, in the order in which a
  -- callback comes to its end whatever it is answered.
  obtain ⟨left, here⟩ : ∃ left, left = (machine.state, now.rest) := ⟨_, rfl⟩
  induction left using code.returns.induction generalizing machine now with
  | _ left ih =>
    subst here
    let state := (code.move machine.state now.rest).2
    let moved : Machine σ π := { machine with state }
    have goes : machine.goOn code =
        moved.proceed now outer (code.move machine.state now.rest).1 :=
      machine.goOn_running code running
    have spares := spares_carryOut machine.client (code.move machine.state now.rest).1
    obtain ⟨none, quiet⟩ := quiet_carryOut early (code.move machine.state now.rest).1
    have here : moved.client = machine.client := rfl
    rw [proceed, here] at goes
    rcases carried : machine.client.carryOut (code.move machine.state now.rest).1
      with ⟨trail, client, onward⟩
    rw [carried] at goes spares none quiet
    cases onward with
    | goes next =>
      let middle : Machine σ π :=
        { moved.become client with running := { now with rest := next } :: outer }
      have further : middle.running = { now with rest := next } :: outer := rfl
      obtain ⟨rest, after, leads, still, running, drains, late⟩ :=
        ih (state, next) ⟨rfl, quiet⟩ further (spares.early early) rfl
      refine ⟨trail ++ rest, after, .step goes leads, ?_, running, drains, late⟩
      rw [Trail.begun_append, still, List.append_nil]
      exact none
    | nests => exact quiet.elim
    | finished outcome =>
      refine ⟨trail ++ (client.conclude outcome now.purpose).1, _, .single goes, ?_, rfl, rfl, ?_⟩
      · rw [Trail.begun_append, begun_conclude, List.append_nil]
        exact none
      · exact (spares.trans (spares_conclude client outcome now.purpose)).early early

/-- Callbacks that are called while hooks are drained return, one after the other. -/
theorem leads_returns (code : Behaviour σ π) {machine : Machine σ π}
    {running : List (Running π)} (under : machine.running = running)
    (early : machine.client.phase ≠ .initialized) :
    ∃ trail after, machine.Leads code trail after ∧ trail.begun = [] ∧ after.running = [] ∧
      after.drain? = machine.drain? ∧ after.client.phase ≠ .initialized := by
  induction running generalizing machine with
  | nil => exact ⟨[], machine, .refl _ _, rfl, under, rfl, early⟩
  | cons now outer ih =>
    obtain ⟨first, middle, goes, none, gone, drains, still⟩ := leads_return code under early
    obtain ⟨second, after, leads, noneLater, done, same, late⟩ := ih gone still
    exact ⟨first ++ second, after, goes.append leads,
      by rw [Trail.begun_append, none, noneLater]; rfl, done, same.trans drains, late⟩

/-- A moment between two batches of a drain. -/
structure Between (machine : Machine σ π) : Prop where
  running : machine.running = []
  drains : ∃ drain, machine.drain? = some drain ∧ drain.due = []
  early : machine.client.phase ≠ .initialized

/-- Every hook of a batch starts, in its order, and the batch comes to its end. -/
theorem leads_batch (code : Behaviour σ π) {machine : Machine σ π} {drain : Drain π}
    {hooks : List π} (running : machine.running = []) (drains : machine.drain? = some drain)
    (due : drain.due = hooks) (early : machine.client.phase ≠ .initialized) :
    ∃ trail after, machine.Leads code trail after ∧ trail.begun = hooks ∧ after.Between := by
  induction hooks generalizing machine drain with
  | nil => exact ⟨[], machine, .refl _ _, rfl, running, ⟨drain, drains, due⟩, early⟩
  | cons hook rest ih =>
    let started : Machine σ π :=
      { machine with
        running := [{ rest := hook, purpose := .hook hook }]
        drain? := some { drain with due := rest } }
    have starts : machine.goOn code = ([(.began hook false, machine.client)], started) :=
      (machine.goOn_draining code running drains).trans (machine.drainOn_due drain due)
    have under : started.running = [{ rest := hook, purpose := .hook hook }] := rfl
    obtain ⟨first, middle, goes, none, gone, same, still⟩ := leads_return code under early
    obtain ⟨second, after, leads, begun, between⟩ := ih gone same rfl still
    refine ⟨[(.began hook false, machine.client)] ++ (first ++ second), after,
      .step starts (goes.append leads), ?_, between⟩
    rw [Trail.begun_append, Trail.begun_append, none, begun]
    rfl

/-- The batch under way comes to its end. -/
theorem leads_between (code : Behaviour σ π) (drains : machine.drain?.isSome)
    (early : machine.client.phase ≠ .initialized) :
    ∃ trail after, machine.Leads code trail after ∧ after.Between := by
  obtain ⟨drain, here⟩ := Option.isSome_iff_exists.mp drains
  obtain ⟨first, middle, goes, -, gone, same, still⟩ := leads_returns code rfl early
  obtain ⟨second, after, leads, -, between⟩ := leads_batch code gone (same.trans here) rfl still
  exact ⟨first ++ second, after, goes.append leads, between⟩

/-- Between two batches, the hooks that wait all start, in their order. -/
theorem Between.round (between : machine.Between) (code : Behaviour σ π)
    (some : machine.client.hooks ≠ []) :
    ∃ trail after, machine.Leads code trail after ∧ trail.begun = machine.client.hooks ∧
      after.Between := by
  obtain ⟨drain, drains, free⟩ := between.drains
  let taken : Client π := { machine.client with hooks := [] }
  let batch : Machine σ π :=
    { machine.become taken with drain? := .some { drain with due := machine.client.hooks } }
  have gathers : machine.goOn code = ([(.gathered machine.client.hooks, taken)], batch) :=
    (machine.goOn_draining code between.running drains).trans
      (machine.drainOn_some drain free some)
  have running : batch.running = [] := between.running
  obtain ⟨trail, after, leads, begun, between⟩ := leads_batch code running rfl rfl between.early
  refine ⟨_, after, .step gathers leads, ?_, between⟩
  rw [Trail.begun_append, begun]
  rfl

/-- Between two batches, the drain ends if no hook waits. -/
theorem Between.ends (between : machine.Between) (code : Behaviour σ π)
    (none : machine.client.hooks = []) : (machine.goOn code).2.idle = true := by
  obtain ⟨drain, drains, free⟩ := between.drains
  rw [machine.goOn_draining code between.running drains, machine.drainOn_none drain free none]
  exact idle_iff.mpr ⟨between.running, rfl⟩

/-! ## Every hook runs -/

/-- Every hook of a history has run: those that were registered up to some moment have all started,
and whatever started has ended. -/
def Ran (earlier later : History π) : Prop :=
  earlier.registered <+: later.begun ∧ later.ended.Perm later.begun

/-- Between two batches of a client that is not closed, a hook either waits or has run. -/
theorem Follows.between (follows : machine.Follows history) (between : machine.Between)
    (live : machine.client.phase ≠ .closed) :
    history.registered = history.begun ++ machine.client.hooks ∧
      history.ended.Perm history.begun := by
  obtain ⟨drain, drains, free⟩ := between.drains
  have due : history.frame.due = [] := by
    rw [follows.frame, Machine.frame, Machine.due, drains]
    exact free
  have active : history.frame.active = [] := by
    rw [follows.frame, Machine.frame, between.running]
    rfl
  have all := follows.ordered.kept live
  have finished := follows.ordered.finished
  rw [due, List.append_nil] at all
  rw [active, List.append_nil] at finished
  exact ⟨all, finished⟩

/-- While hooks are drained, every hook that is registered runs sooner or later, unless the client
is closed. -/
theorem Follows.runs (follows : machine.Follows history) (code : Behaviour σ π)
    (drains : machine.drain?.isSome) :
    ∃ count, (machine.advance code count).2.client.phase = .closed ∨
      Ran history (history.extend (machine.advance code count).1) := by
  obtain ⟨first, middle, ⟨one, goes⟩, between⟩ :=
    leads_between code drains (follows.early drains)
  have followsMiddle := follows.leads ⟨one, goes⟩
  by_cases closed : middle.client.phase = .closed
  · exact ⟨one, .inl (by rw [goes]; exact closed)⟩
  obtain ⟨all, finished⟩ := followsMiddle.between between closed
  have before := registered_grows history first
  by_cases none : middle.client.hooks = []
  · refine ⟨one, .inr ?_⟩
    rw [goes]
    rw [none, List.append_nil] at all
    exact ⟨all ▸ before, finished⟩
  obtain ⟨second, last, ⟨two, further⟩, begun, gone⟩ := between.round code none
  have advanced : machine.advance code (one + two) = (first ++ second, last) := by
    rw [advance_add, goes, further]
  refine ⟨one + two, ?_⟩
  rw [advanced]
  by_cases ended : last.client.phase = .closed
  · exact .inl ended
  obtain ⟨-, done⟩ := (followsMiddle.leads ⟨two, further⟩).between gone ended
  rw [← History.extend_append] at done
  refine .inr ⟨?_, done⟩
  rw [History.extend_append, begun_extend, begun, ← all]
  exact before

/-! ## The end of a drain -/

/-- The rounds of a drain: it ends, or goes on with so many more hooks started. -/
theorem rounds (code : Behaviour σ π) (drains : machine.drain?.isSome)
    (early : machine.client.phase ≠ .initialized) (count : Nat) :
    (∃ steps, (machine.advance code steps).2.idle = true) ∨
      ∃ trail after, machine.Leads code trail after ∧ after.Between ∧
        count ≤ trail.begun.length := by
  induction count with
  | zero =>
    obtain ⟨trail, after, leads, between⟩ := leads_between code drains early
    exact .inr ⟨trail, after, leads, between, Nat.zero_le _⟩
  | succ count ih =>
    rcases ih with ends | ⟨first, middle, ⟨one, goes⟩, between, enough⟩
    · exact .inl ends
    by_cases none : middle.client.hooks = []
    · refine .inl ⟨one + 1, ?_⟩
      rw [advance_add, goes]
      exact between.ends code none
    · obtain ⟨second, after, leads, begun, between⟩ := between.round code none
      refine .inr ⟨first ++ second, after, Leads.append ⟨one, goes⟩ leads, between, ?_⟩
      rw [Trail.begun_append, List.length_append, begun]
      have some := List.length_pos_iff.mpr none
      omega

/-- A drain ends just when only so many hooks are registered. -/
theorem Follows.ends_iff (follows : machine.Follows history) (code : Behaviour σ π)
    (drains : machine.drain?.isSome) :
    (∃ count, (machine.advance code count).2.idle = true) ↔
      ∃ bound, ∀ count,
        (history.extend (machine.advance code count).1).registered.length ≤ bound := by
  constructor
  · -- An idle machine stays as it is, so what is registered by then is a bound.
    rintro ⟨count, idle⟩
    refine ⟨(history.extend (machine.advance code count).1).registered.length, fun other => ?_⟩
    have still := advance_idle code idle
    obtain ⟨more, rfl⟩ | ⟨more, rfl⟩ :
        (∃ more, count = other + more) ∨ ∃ more, other = count + more := by
      rcases Nat.le_total other count with le | le
      · exact .inl ⟨count - other, by omega⟩
      · exact .inr ⟨other - count, by omega⟩
    · rw [advance_add, History.extend_append]
      exact (registered_grows _ _).length_le
    · have same : machine.advance code (count + more) = machine.advance code count := by
        rw [advance_add, still]
        exact Prod.ext (List.append_nil _) rfl
      exact Nat.le_of_eq (by rw [same])
  · -- More rounds than the bound would start more hooks than were registered.
    rintro ⟨bound, bounded⟩
    rcases rounds code drains (follows.early drains) (bound + 1) with ends | endless
    · exact ends
    · obtain ⟨trail, after, ⟨count, goes⟩, -, many⟩ := endless
      have later := follows.advance code count
      have few := bounded count
      rw [goes] at later few
      dsimp only at later few
      have begun := (Ordered.begun_prefix later.ordered).length_le
      rw [begun_extend, List.length_append] at begun
      omega

/-- A step of a drain: it goes on with nothing handed over, or it is over with that. -/
theorem goOn_drain (code : Behaviour σ π) {drain : Drain π} (drains : machine.drain? = some drain) :
    (∃ due, (machine.goOn code).2.drain? = some { drain with due } ∧
        Spares machine.client (machine.goOn code).2.client) ∨
      (machine.goOn code).2.idle = true ∧ ∃ before, (machine.goOn code).1 =
        before ++ [(drain.last, (machine.goOn code).2.client)] := by
  cases running : machine.running with
  | cons now outer =>
    rw [machine.goOn_running code running]
    let moved : Machine σ π := { machine with state := (code.move machine.state now.rest).2 }
    exact .inl ⟨drain.due, (moved.drain_proceed now outer _).trans drains,
      moved.spares_proceed now outer _⟩
  | nil =>
    rw [machine.goOn_draining code running drains]
    cases due : drain.due with
    | cons hook rest =>
      rw [machine.drainOn_due drain due]
      exact .inl ⟨rest, rfl, {}⟩
    | nil =>
      by_cases none : machine.client.hooks = []
      · rw [machine.drainOn_none drain due none]
        exact .inr ⟨idle_iff.mpr ⟨running, rfl⟩, _, rfl⟩
      · rw [machine.drainOn_some drain due none]
        exact .inl ⟨machine.client.hooks, rfl, {}⟩

/-- While hooks are drained the handshake is not done and nothing is handed over; when the drain is
over, that was the last thing that happened. -/
theorem advance_drain (code : Behaviour σ π) {drain : Drain π}
    (drains : machine.drain? = some drain) (early : machine.client.phase ≠ .initialized)
    (count : Nat) :
    (∃ due, (machine.advance code count).2.drain? = some { drain with due } ∧
        (machine.advance code count).2.client.phase ≠ .initialized ∧
        (machine.advance code count).2.client.delivered = machine.client.delivered) ∨
      (machine.advance code count).2.idle = true ∧ ∃ before, (machine.advance code count).1 =
        before ++ [(drain.last, (machine.advance code count).2.client)] := by
  induction count generalizing machine drain with
  | zero => exact .inl ⟨drain.due, drains, early, rfl⟩
  | succ count ih =>
    rw [advance]
    rcases machine.goOn_drain code drains with ⟨due, still, spares⟩ | ⟨idle, before, last⟩
    · rcases ih still (spares.early early) with ⟨later, drained, phase, same⟩ | ⟨gone, before, last⟩
      · exact .inl ⟨later, drained, phase, same.trans spares.delivered⟩
      · refine .inr ⟨gone, (machine.goOn code).1 ++ before, ?_⟩
        rw [last, List.append_assoc]
        rfl
    · rw [advance_idle code idle, last]
      exact .inr ⟨idle, before, List.append_nil _⟩

/-! ## Hooks after the handshake -/

end Machine

end Airlock.Client
