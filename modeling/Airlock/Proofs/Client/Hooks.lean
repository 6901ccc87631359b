import Airlock.Proofs.Client.Draining
import Airlock.Proofs.Client.Settling

/-!
# The handshake and its hooks

Whatever callbacks do, hooks start in the order of their registration and none before the handshake
succeeded. A success tells the peer first and begins a drain, which ends just when only so many
hooks are registered. A hook that registers itself keeps it going for good.
-/

set_option autoImplicit false

namespace Airlock.Client

namespace Machine

variable {σ π : Type} {code : Behaviour σ π} {machine : Machine σ π} {history : History π}

/-- The hooks are drained after a success of the handshake. -/
structure Drains (code : Behaviour σ π) (history : History π) (drain : Drain π)
    (machine : Machine σ π) : Prop where
  /-- as long as the drain goes on, the handshake is not done and its outcome is not handed over -/
  busy : ∀ count, let after := (machine.advance code count).2
    after.idle = false →
      after.client.phase ≠ .initialized ∧ after.client.delivered = machine.client.delivered
  /-- a hook that is registered runs sooner or later, unless the client is closed -/
  runs : ∀ count, ∃ later ≥ count, let after := (machine.advance code later).2
    after.client.phase = .closed ∨
      Ran (history.extend (machine.advance code count).1)
        (history.extend (machine.advance code later).1)
  /-- the drain ends just when only so many hooks are registered -/
  ends : (∃ count, (machine.advance code count).2.idle = true) ↔
    ∃ bound, ∀ count, (history.extend (machine.advance code count).1).registered.length ≤ bound
  /-- at its end the outcome is handed over last, and every hook has run unless one of them closed
  the client -/
  done : ∀ count, let after := (machine.advance code count).2
    let later := history.extend (machine.advance code count).1
    after.idle = true →
      (∃ before, (machine.advance code count).1 = before ++ [(drain.last, after.client)]) ∧
        (after.client.phase ≠ .closed → after.client.phase = .initialized ∧
          after.client.hooks = [] ∧ later.begun = later.registered ∧ later.ended.Perm later.begun)

/-- When nothing is under way after a success of the handshake, every hook has run and the handshake
is done, unless the client is closed. -/
theorem Follows.done (follows : machine.Follows history) (idle : machine.idle = true)
    (settled : history.settlements ≠ []) (live : machine.client.phase ≠ .closed) :
    machine.client.phase = .initialized ∧ machine.client.hooks = [] ∧
      history.begun = history.registered ∧ history.ended.Perm history.begun := by
  have calm := (follows_world idle follows.frame).calm
  have initialized : machine.client.phase = .initialized := by
    rcases follows.kept.past settled with initialized | closed | still
    · exact initialized
    · exact absurd closed live
    · rw [calm.mode] at still
      cases still
  have none := follows.kept.initialized initialized
  have all := follows.ordered.kept live
  rw [calm.due, none, List.append_nil, List.append_nil] at all
  have finished := follows.ordered.finished
  rw [calm.active, List.append_nil] at finished
  exact ⟨initialized, none, all.symm, finished⟩

private theorem settlements_extend {id : Id} (settled : .settled id ∈ history) (trail : Trail π) :
    (history.extend trail).settlements ≠ [] :=
  settlements_ne_nil (List.mem_append_right _ settled)

private theorem Follows.drains (follows : machine.Follows history) (code : Behaviour σ π)
    {drain : Drain π} (drains : machine.drain? = some drain) {id : Id}
    (settled : .settled id ∈ history) : Drains code history drain machine := by
  have some : machine.drain?.isSome := by rw [drains]; rfl
  have early := follows.early some
  constructor
  case busy =>
    intro count after going
    rcases advance_drain code drains early count with ⟨due, -, still, same⟩ | ⟨idle, -⟩
    · exact ⟨still, same⟩
    · rw [idle] at going
      cases going
  case runs =>
    intro count
    have reached := follows.advance code count
    rcases advance_drain code drains early count with ⟨due, still, -⟩ | ⟨idle, -⟩
    · obtain ⟨further, ran⟩ := reached.runs code (by rw [still]; rfl)
      refine ⟨count + further, Nat.le_add_right _ _, ?_⟩
      rw [advance_add, History.extend_append]
      exact ran
    · refine ⟨count, Nat.le_refl _, ?_⟩
      by_cases closed : (machine.advance code count).2.client.phase = .closed
      · exact .inl closed
      · obtain ⟨-, -, all, finished⟩ :=
          reached.done idle (settlements_extend settled _) closed
        exact .inr ⟨all ▸ List.prefix_refl _, finished⟩
  case ends => exact follows.ends_iff code some
  case done =>
    intro count after later idle
    constructor
    · rcases advance_drain code drains early count with ⟨due, still, -⟩ | ⟨-, last⟩
      · cases (idle_iff.mp idle).2.symm.trans still
      · exact last
    · exact (follows.advance code count).done idle (settlements_extend settled _)

/-! ## Responses -/

/-- A success of the outstanding handshake tells the peer, as far as it can be, and begins a
drain. -/
theorem respond_success {id : Id} (value : Value)
    (outstanding : machine.client.handshake? = some id) (live : machine.client.phase ≠ .closed) :
    machine.respond id (.ok value) =
      ((.arrived id (.ok value) (machine.client.pending.contains id), machine.client.leaving id) ::
        (.settled id, machine.client.settling id) ::
          (if machine.client.sendsInitialized = true ∧ machine.client.link.queue.closed = false then
            [(.announced, machine.client.telling id)] else []),
        { machine.become (machine.client.telling id) with
          drain? := some { id, value, waited := machine.client.pending.contains id } }) := by
  have here : (machine.client.leaving id).handshake? = some id := outstanding
  rw [← announceTrail_settling live, ← told_settling live, respond, if_pos here]
  rfl

/-! ## Drains that go on for good -/

/-- Between two batches of a drain, with one hook that waits. -/
structure Awaits (hook : π) (machine : Machine σ π) : Prop where
  running : machine.running = []
  drains : ∃ drain, machine.drain? = some drain ∧ drain.due = []
  open? : machine.client.phase = .awaiting
  hooks : machine.client.hooks = [hook]

/-- A hook whose only call registers it again waits again after its batch. -/
theorem Awaits.round {code : Behaviour σ π} {hook next : π}
    (again : ∀ state, (code.move state hook).1 = .hook hook next)
    (stops : ∀ state, ∃ outcome, (code.move state next).1 = .finish outcome)
    (awaits : machine.Awaits hook) :
    ∃ count, (machine.advance code (count + 1)).2.Awaits hook := by
  obtain ⟨running, ⟨drain, drains, free⟩, open?, hooks⟩ := awaits
  let taken : Client π := { machine.client with hooks := [] }
  let batch : Machine σ π :=
    { machine.become taken with drain? := some { drain with due := machine.client.hooks } }
  have gathers : machine.goOn code = ([(.gathered machine.client.hooks, taken)], batch) :=
    (machine.goOn_draining code running drains).trans
      (machine.drainOn_some drain free (by rw [hooks]; exact List.cons_ne_nil _ _))
  let started : Machine σ π :=
    { batch with
      running := [{ rest := hook, purpose := .hook hook }]
      drain? := some { drain with due := [] } }
  have starts : batch.goOn code = ([(.began hook false, batch.client)], started) :=
    (batch.goOn_draining code running rfl).trans (batch.drainOn_due _ hooks)
  let queued : Machine σ π :=
    { started.become (taken.queueing hook) with
      state := (code.move started.state hook).2
      running := [{ rest := next, purpose := .hook hook }] }
  have carried : taken.carryOut (.hook hook next) =
      ([(.registered hook, taken.queueing hook)], taken.queueing hook, .goes next) := by
    rw [carryOut, show taken.phase = .awaiting from open?]
  have queues : started.goOn code = ([(.registered hook, taken.queueing hook)], queued) := by
    have here : { started with state := (code.move started.state hook).2 }.client = taken := rfl
    rw [started.goOn_running code rfl, again, proceed, here, carried]
    rfl
  obtain ⟨outcome, finishes⟩ := stops queued.state
  let ended : Machine σ π :=
    { queued with state := (code.move queued.state next).2, running := [] }
  have ends : queued.goOn code = ([(.ended hook, taken.queueing hook)], ended) := by
    rw [queued.goOn_running code rfl, finishes]
    rfl
  have last : (machine.advance code 4).2 = ended := by
    rw [advance, gathers, advance, starts, advance, queues, advance, ends, advance]
  refine ⟨3, ?_⟩
  rw [last]
  have waits : ended.client.hooks = [hook] := rfl
  exact ⟨rfl, ⟨_, rfl, rfl⟩, open?, waits⟩

/-- A machine that always comes back to where something is under way never comes to rest. -/
theorem advance_busy {code : Behaviour σ π} {Busy : Machine σ π → Prop}
    (busy : ∀ machine, Busy machine → machine.idle = false)
    (round : ∀ machine, Busy machine → ∃ count, Busy (machine.advance code (count + 1)).2)
    (start : Busy machine) (count : Nat) : (machine.advance code count).2.idle = false := by
  -- Behind every count there is a moment at which something is under way, and a machine that was
  -- idle before would be idle then.
  have late (count : Nat) : ∃ more, Busy (machine.advance code (count + more)).2 := by
    induction count with
    | zero => exact ⟨0, start⟩
    | succ count ih =>
      obtain ⟨more, later⟩ := ih
      obtain ⟨further, last⟩ := round _ later
      refine ⟨more + further, ?_⟩
      have sum : count + 1 + (more + further) = count + more + (further + 1) := by omega
      rw [sum, advance_add]
      exact last
  rw [Bool.eq_false_iff]
  intro idle
  obtain ⟨more, later⟩ := late count
  rw [advance_add, advance_idle code idle] at later
  exact absurd idle (Bool.eq_false_iff.mp (busy _ later))

private theorem Awaits.busy {hook : π} (awaits : machine.Awaits hook) : machine.idle = false := by
  obtain ⟨drain, drains, -⟩ := awaits.drains
  rw [Bool.eq_false_iff]
  intro idle
  cases (idle_iff.mp idle).2.symm.trans drains

/-- A hook that does nothing but register itself again keeps the drain going for good. -/
theorem respond_endless {hook next : π}
    (again : ∀ state, (code.move state hook).1 = .hook hook next)
    (stops : ∀ state, ∃ outcome, (code.move state next).1 = .finish outcome)
    (follows : machine.Follows history) (idle : machine.idle = true) {id : Id} (value : Value)
    (outstanding : machine.client.handshake? = some id) (waits : machine.client.hooks = [hook])
    (count : Nat) :
    ((machine.respond id (.ok value)).2.advance code count).2.idle = false := by
  have told : (machine.client.telling id).phase = machine.client.phase ∧
      (machine.client.telling id).hooks = machine.client.hooks := by
    unfold telling
    split <;> exact ⟨rfl, rfl⟩
  have open? : machine.client.phase = .awaiting := follows.awaiting idle outstanding
  rw [respond_success value outstanding (follows.kept.alive outstanding)]
  have awaits : Awaits hook { machine.become (machine.client.telling id) with
      drain? := some { id, value, waited := machine.client.pending.contains id } } :=
    ⟨(idle_iff.mp idle).1, ⟨_, rfl, rfl⟩, told.1.trans open?, told.2.trans waits⟩
  exact advance_busy (fun _ => Awaits.busy) (fun _ awaits => awaits.round again stops) awaits count

/-- Code that begins the handshake and registers a hook, which registers itself. -/
inductive Nagging where
  | begins
  | registers
  | returns

/-- How much is left to do for it. -/
def Nagging.rank : Nagging → Nat
  | .begins => 2
  | .registers => 1
  | .returns => 0

def Nagging.move : Nagging → Move Nagging
  | .begins => .request (.handshake .null) fun _ => .registers
  | .registers => .hook .registers .returns
  | .returns => .finish (.ok .null)

def nagging : Behaviour Unit Nagging where
  move _ now := (now.move, ())
  returns := by
    refine Subrelation.wf ?_ (InvImage.wf (fun now : Unit × Nagging => now.2.rank) Nat.lt_wfRel.wf)
    rintro ⟨_, later⟩ ⟨_, now⟩ ⟨_, onward⟩
    cases now with
    | begins =>
      obtain ⟨_, rfl⟩ := onward
      exact Nat.lt_succ_self 1
    | registers =>
      obtain rfl : later = .returns := onward
      exact Nat.lt_succ_self 0
    | returns => exact onward.elim

/-- The drain of a hook that registers itself never ends, whatever the peer answers. -/
theorem nagging_endless (value : Value) (count : Nat) :
    let machine := ((create Config.default ()).run nagging
      [some (.call .begins), none, none, none]).2
    ((machine.respond (.nth 1) (.ok value)).2.advance nagging count).2.idle = false := by
  intro machine
  have follows := ((follows_create Config.default ()).run nagging
      [some (.call .begins), none, none, none]).2
  have again : ∀ state, (nagging.move state .registers).1 = .hook .registers .returns :=
    fun _ => rfl
  have stops : ∀ state, ∃ outcome, (nagging.move state .returns).1 = .finish outcome :=
    fun _ => ⟨_, rfl⟩
  exact respond_endless again stops follows rfl value rfl rfl count

/-! ## Runs -/

end Machine

end Airlock.Client
