import Airlock.Proofs.Client.Numbering
import Airlock.Proofs.Client.Runs

/-!
# The invariant of clients

The phase, the outstanding handshake, the waiting hooks, the requests in flight and the two channels
of a client agree with each other whenever no response is being acted on, whatever happened before.
The invariant says this, and what is left of it while a response is acted on; every step keeps it.
-/

set_option autoImplicit false

namespace Airlock.Client

variable {π : Type}

/-! ## What holds between operations -/

/-- A client of which nothing is left to do. -/
structure Torn (client : Client π) : Prop where
  pending : client.pending.ids = []
  hooks : client.hooks = []
  handshake : client.handshake? = none
  queue : client.link.queue.closed = true
  sink : client.link.sink.closed = true

/-- The requests in flight are among the first so many calls, and the next number is the one after
these. -/
structure Numbered (calls : Nat) (client : Client π) : Prop where
  next : client.nextId = Int64.ofNat (calls + 1)
  pending : ∀ id ∈ client.pending.ids, ∃ count, 0 < count ∧ count ≤ calls ∧ id = .nth count

/-- The parts of a client agree, after so many calls for a request. Numbers are of 64 bits, so what
is said of them is said of the first calls only. -/
structure Sound (calls : Nat) (client : Client π) : Prop where
  awaiting : client.phase = .awaiting ↔ ∃ id, client.handshake? = some id
  outstanding : calls < 0x8000000000000000 →
    ∀ id, client.handshake? = some id → id ∈ client.pending.ids
  initialized : client.phase = .initialized → client.hooks = []
  closed : client.phase = .closed ↔ client.pending.closed = true
  torn : client.phase = .closed → client.Torn
  numbered : Numbered calls client
  below : calls + 1 < 0x8000000000000000 →
    ∀ id ∈ client.pending.ids, ∃ n, id = .number n ∧ n < client.nextId

/-! ## The invariant -/

/-- Whether a success of the outstanding handshake is being acted on. -/
def Mode.settled : Mode → Bool
  | .resting => false
  | .answering _ _ _ settled => settled

def History.settlements : History π → List Id
  | [] => []
  | .settled id :: history => id :: History.settlements history
  | _ :: history => History.settlements history

/-- What holds at every point of a run. While a success of the handshake is acted on, the phase is
still that of an open handshake, and no handshake is outstanding any more. -/
structure Kept (history : History π) (client : Client π) : Prop where
  awaiting : history.frame.mode.settled = false →
    (client.phase = .awaiting ↔ ∃ id, client.handshake? = some id)
  settling : ∀ {id outcome waited}, history.frame.mode = .answering id outcome waited true →
    client.handshake? = none ∧ client.phase ≠ .uninitialized ∧ ∃ value, outcome = .ok value
  outstanding : history.calls < 0x8000000000000000 → ∀ {id}, client.handshake? = some id →
    id ∈ client.pending.ids ∨
      ∃ outcome waited settled, history.frame.mode = .answering id outcome waited settled
  initialized : client.phase = .initialized → client.hooks = []
  closed : client.phase = .closed ↔ client.pending.closed = true
  torn : client.phase = .closed → client.Torn
  numbered : Numbered history.calls client
  once : history.settlements.length ≤ 1
  past : history.settlements ≠ [] →
    client.phase = .initialized ∨ client.phase = .closed ∨ history.frame.mode.settled = true

/-- A point at which no operation is under way. -/
structure History.Between (history : History π) : Prop where
  resting : history.frame.mode = .resting
  complete : ∀ id, history.head? ≠ some (.attempted id)

theorem Kept.sound {history : History π} {client : Client π} (kept : Kept history client)
    (resting : history.frame.mode = .resting) : Sound history.calls client where
  awaiting := kept.awaiting (by rw [resting]; rfl)
  outstanding few id outstanding := by
    rcases kept.outstanding few outstanding with member | ⟨outcome, waited, settled, mode⟩
    · exact member
    · rw [resting] at mode
      cases mode
  initialized := kept.initialized
  closed := kept.closed
  torn := kept.torn
  numbered := kept.numbered
  below few id member := by
    obtain ⟨count, -, small, rfl⟩ := kept.numbered.pending id member
    refine ⟨Int64.ofNat count, rfl, ?_⟩
    rw [kept.numbered.next, Id.ofNat_lt_ofNat (by omega) few]
    omega

theorem kept_create (config : Config) (link : Link) :
    Kept [] (Client.create config link : Client π) := by
  constructor
  case awaiting =>
    intro _
    constructor
    · intro open?
      cases open?
    · rintro ⟨_, outstanding⟩
      cases outstanding
  case settling =>
    intro id outcome waited mode
    cases mode
  case outstanding =>
    intro _ id outstanding
    cases outstanding
  case initialized =>
    intro initialized
    cases initialized
  case closed =>
    constructor
    · intro closed
      cases closed
    · intro closed
      cases closed
  case torn =>
    intro closed
    cases closed
  case numbered =>
    refine ⟨rfl, ?_⟩
    intro id member
    cases member
  case once => exact Nat.zero_le 1
  case past => exact fun some => absurd rfl some

variable {history : History π} {client after : Client π}

def Occurrence.plain : Occurrence π → Bool
  | .held _ | .released _ | .notified _ | .registered _ | .began _ _ | .ended _ | .announced
  | .replied _ _ | .awaited _ | .resolved _ _ | .forgotten _ | .quiet => true
  | _ => false

private theorem Occurrence.plain_spec {occurrence : Occurrence π} (plain : occurrence.plain = true)
    (history : History π) :
    (history.frame.next occurrence).mode = history.frame.mode ∧
      History.calls (occurrence :: history) = history.calls ∧
      History.settlements (occurrence :: history) = history.settlements := by
  cases occurrence with
  | began hook atOnce => cases atOnce <;> exact ⟨rfl, rfl, rfl⟩
  | held | released | notified | registered | ended | announced | replied | awaited | resolved
  | forgotten | quiet => exact ⟨rfl, rfl, rfl⟩
  | _ => cases plain

/-- Two clients that agree in everything the invariant speaks of. -/
structure Agree (client after : Client π) : Prop where
  phase : after.phase = client.phase := by rfl
  handshake : after.handshake? = client.handshake? := by rfl
  hooks : after.hooks = client.hooks := by rfl
  pending : after.pending = client.pending := by rfl
  next : after.nextId = client.nextId := by rfl
  queue : client.link.queue.closed = true → after.link.queue.closed = true := by
    exact fun closed => closed
  sink : client.link.sink.closed = true → after.link.sink.closed = true := by
    exact fun closed => closed

theorem Alike.agree (alike : Alike client after) : Agree client after where
  phase := by rw [alike.same]
  handshake := by rw [alike.same]
  hooks := by rw [alike.same]
  pending := by rw [alike.same]
  next := by rw [alike.same]
  queue := alike.queue
  sink := alike.sink

private theorem Agree.torn (agree : Agree client after) (torn : client.Torn) : after.Torn where
  pending := by rw [agree.pending]; exact torn.pending
  hooks := by rw [agree.hooks]; exact torn.hooks
  handshake := by rw [agree.handshake]; exact torn.handshake
  queue := agree.queue torn.queue
  sink := agree.sink torn.sink

private theorem Agree.numbered {calls : Nat} (agree : Agree client after)
    (numbered : Numbered calls client) : Numbered calls after where
  next := by rw [agree.next]; exact numbered.next
  pending := by rw [agree.pending]; exact numbered.pending

theorem Kept.same (kept : Kept history client) {occurrence : Occurrence π}
    (plain : occurrence.plain = true) (agree : Agree client after) :
    Kept (occurrence :: history) after := by
  obtain ⟨mode, count, settlements⟩ := Occurrence.plain_spec plain history
  constructor
  case awaiting =>
    rw [History.frame_cons, mode, agree.phase, agree.handshake]
    exact kept.awaiting
  case settling =>
    rw [History.frame_cons, mode, agree.phase, agree.handshake]
    exact kept.settling
  case outstanding =>
    rw [count, History.frame_cons, mode, agree.handshake, agree.pending]
    exact kept.outstanding
  case initialized =>
    rw [agree.phase, agree.hooks]
    exact kept.initialized
  case closed =>
    rw [agree.phase, agree.pending]
    exact kept.closed
  case torn =>
    rw [agree.phase]
    intro closed
    exact agree.torn (kept.torn closed)
  case numbered =>
    rw [count]
    exact agree.numbered kept.numbered
  case once =>
    rw [settlements]
    exact kept.once
  case past =>
    rw [settlements, History.frame_cons, mode, agree.phase]
    exact kept.past

/-! ## Requests keep the invariant -/

theorem Numbered.more {calls : Nat} (numbered : Numbered calls client)
    (next : after.nextId = client.nextId + 1)
    (pending : ∀ id ∈ after.pending.ids, id = .number client.nextId ∨ id ∈ client.pending.ids) :
    Numbered (calls + 1) after := by
  refine ⟨?_, fun id member => ?_⟩
  · rw [next, numbered.next, Int64.ofNat_add (calls + 1) 1]
    rfl
  · rcases pending id member with rfl | old
    · exact ⟨calls + 1, by omega, by omega, by rw [numbered.next]; rfl⟩
    · obtain ⟨count, positive, small, same⟩ := numbered.pending id old
      exact ⟨count, positive, by omega, same⟩

theorem Numbered.fresh {calls : Nat} (numbered : Numbered calls client)
    (few : calls + 1 < 0x8000000000000000) : .number client.nextId ∉ client.pending.ids := by
  intro member
  obtain ⟨count, -, small, same⟩ := numbered.pending _ member
  rw [numbered.next] at same
  have equal := (Id.nth_inj few (by omega)).mp same
  omega

private theorem Kept.took (kept : Kept history client) {occurrence : Occurrence π}
    (mode : ((history.frame).next occurrence).mode = history.frame.mode)
    (calls : occurrence.calls = 1)
    (settlements : History.settlements (occurrence :: history) = history.settlements)
    (phase : after.phase = client.phase) (handshake : after.handshake? = client.handshake?)
    (hooks : after.hooks = client.hooks) (next : after.nextId = client.nextId + 1)
    (closed : after.pending.closed = client.pending.closed)
    (fewer : ∀ id ∈ after.pending.ids, id = .number client.nextId ∨ id ∈ client.pending.ids)
    (more : ∀ id ∈ client.pending.ids, id ≠ .number client.nextId → id ∈ after.pending.ids)
    (torn : client.phase = .closed → after.Torn) : Kept (occurrence :: history) after := by
  have count : History.calls (occurrence :: history) = history.calls + 1 := by
    rw [History.calls_cons, calls]
  constructor
  case awaiting =>
    rw [History.frame_cons, mode, phase, handshake]
    exact kept.awaiting
  case settling =>
    rw [History.frame_cons, mode, phase, handshake]
    exact kept.settling
  case outstanding =>
    rw [count, History.frame_cons, mode, handshake]
    intro few id outstanding
    rcases kept.outstanding (by omega) outstanding with member | answering
    · left
      apply more id member
      rintro rfl
      exact kept.numbered.fresh few member
    · exact .inr answering
  case initialized =>
    rw [phase, hooks]
    exact kept.initialized
  case closed =>
    rw [phase, closed]
    exact kept.closed
  case torn =>
    rw [phase]
    exact torn
  case numbered =>
    rw [count]
    exact kept.numbered.more next fewer
  case once =>
    rw [settlements]
    exact kept.once
  case past =>
    rw [settlements, History.frame_cons, mode, phase]
    exact kept.past

theorem Kept.refused (kept : Kept history client) (call : Call) :
    Kept (.refused call :: history) client.numbered :=
  kept.took rfl rfl rfl rfl rfl rfl rfl rfl (fun _ member => .inr member)
    (fun _ member _ => member) fun past =>
    have torn := kept.torn past
    ⟨torn.pending, torn.hooks, torn.handshake, torn.queue, torn.sink⟩

theorem mem_leaving {id other : Id} :
    other ∈ (client.leaving id).pending.ids ↔ other ∈ client.pending.ids ∧ other ≠ id := by
  simp [leaving, InFlight.remove]

theorem mem_entering {id other : Id} :
    other ∈ (client.entering id).pending.ids ↔ other = id ∨ other ∈ client.pending.ids :=
  Id.mem_insertOrdered

theorem Kept.withdrawn (kept : Kept history client) {call : Call} (live : client.phase ≠ .closed)
    (plain : call.method ≠ Methods.handshake) :
    Kept (.withdrawn (.number client.nextId) call :: history)
      (client.numbered.leaving (.number client.nextId)) :=
  kept.took rfl (if_neg plain) rfl rfl rfl rfl rfl rfl
    (fun _ member => .inr (mem_leaving.mp member).1)
    (fun _ member different => mem_leaving.mpr ⟨member, different⟩) fun past => absurd past live

theorem Kept.issued (kept : Kept history client) {call : Call} {message : Message}
    (live : client.phase ≠ .closed) (plain : call.method ≠ Methods.handshake) :
    Kept (.issued (.number client.nextId) call :: history)
      ((client.numbered.entering (.number client.nextId)).enqueued message) :=
  kept.took rfl (if_neg plain) rfl rfl rfl rfl rfl rfl
    (fun _ member => mem_entering.mp member)
    (fun _ member _ => mem_entering.mpr (.inr member)) fun past => absurd past live

theorem Kept.unsettled (kept : Kept history client) (idle : client.phase = .uninitialized) :
    history.frame.mode.settled = false := by
  rcases frame : history.frame.mode with _ | ⟨id, outcome, waited, settled⟩
  · rfl
  · cases settled with
    | false => rfl
    | true =>
      obtain ⟨-, tried, -⟩ := kept.settling frame
      exact absurd idle tried

/-- No handshake succeeded before one is tried or while one is outstanding. -/
theorem Kept.unfinished (kept : Kept history client)
    (early : client.phase = .uninitialized ∨ client.phase = .awaiting)
    (unsettled : history.frame.mode.settled = false) : history.settlements = [] := by
  by_cases none : history.settlements = []
  · exact none
  · rcases kept.past none with initialized | closed | settled
    · rw [initialized] at early
      rcases early with early | early <;> cases early
    · rw [closed] at early
      rcases early with early | early <;> cases early
    · rw [unsettled] at settled
      cases settled

theorem Kept.attemptWithdrawn (kept : Kept history client) {call : Call}
    (idle : client.phase = .uninitialized) (opening : call.method = Methods.handshake) :
    Kept (.withdrawn (.number client.nextId) call :: .attempted (.number client.nextId) :: history)
      { client.numbered.leaving (.number client.nextId) with handshake? := none } := by
  have count : History.calls (.withdrawn (.number client.nextId) call ::
      .attempted (.number client.nextId) :: history) = history.calls + 1 := by
    simp [Occurrence.calls, opening]
  constructor
  case awaiting =>
    intro _
    constructor
    · intro open?
      cases idle.symm.trans open?
    · rintro ⟨_, outstanding⟩
      cases outstanding
  case settling =>
    intro id outcome waited mode
    obtain ⟨-, tried, -⟩ := kept.settling mode
    exact absurd idle tried
  case outstanding =>
    intro _ id outstanding
    cases outstanding
  case initialized =>
    intro initialized
    cases idle.symm.trans initialized
  case closed => exact kept.closed
  case torn =>
    intro closed
    cases idle.symm.trans closed
  case numbered =>
    rw [count]
    apply kept.numbered.more rfl
    intro id member
    exact .inr (mem_leaving.mp member).1
  case once => exact kept.once
  case past => exact kept.past

theorem Kept.attemptIssued (kept : Kept history client) {call : Call} {message : Message}
    (idle : client.phase = .uninitialized) (opening : call.method = Methods.handshake) :
    Kept (.issued (.number client.nextId) call :: .attempted (.number client.nextId) :: history)
      ((client.attempting.entering (.number client.nextId)).enqueued message) := by
  have count : History.calls (.issued (.number client.nextId) call ::
      .attempted (.number client.nextId) :: history) = history.calls + 1 := by
    simp [Occurrence.calls, opening]
  constructor
  case awaiting => exact fun _ => ⟨fun _ => ⟨_, rfl⟩, fun _ => rfl⟩
  case settling =>
    intro id outcome waited mode
    obtain ⟨-, tried, -⟩ := kept.settling mode
    exact absurd idle tried
  case outstanding =>
    intro _ id outstanding
    left
    apply mem_entering.mpr
    exact .inl (Option.some.inj outstanding).symm
  case initialized =>
    intro initialized
    cases initialized
  case closed =>
    constructor
    · intro closed
      cases closed
    · intro closed
      cases idle.symm.trans (kept.closed.mpr closed)
  case torn =>
    intro closed
    cases closed
  case numbered =>
    rw [count]
    apply kept.numbered.more rfl
    intro id member
    exact mem_entering.mp member
  case once => exact kept.once
  case past =>
    intro some
    exact absurd (kept.unfinished (.inl idle) (kept.unsettled idle)) some

/-! ## The other steps keep the invariant -/

theorem Kept.queued (kept : Kept history client) {hook : π}
    (early : client.phase = .uninitialized ∨ client.phase = .awaiting) :
    Kept (.registered hook :: history) (client.queueing hook) := by
  constructor
  case awaiting => exact kept.awaiting
  case settling => exact kept.settling
  case outstanding => exact kept.outstanding
  case initialized =>
    intro initialized
    rcases early with idle | open?
    · cases idle.symm.trans initialized
    · cases open?.symm.trans initialized
  case closed => exact kept.closed
  case torn =>
    intro closed
    rcases early with idle | open?
    · cases idle.symm.trans closed
    · cases open?.symm.trans closed
  case numbered => exact ⟨kept.numbered.next, kept.numbered.pending⟩
  case once => exact kept.once
  case past => exact kept.past

/-- What closing leaves of a client. -/
theorem phase_close (client : Client π) : client.close.phase = .closed := by
  unfold close
  split
  · assumption
  · rfl

theorem torn_close (live : client.phase ≠ .closed) :
    client.close.Torn ∧ client.close.phase = .closed ∧ client.close.pending.closed = true ∧
      client.close.nextId = client.nextId := by
  unfold close
  rw [if_neg live]
  exact ⟨⟨rfl, rfl, rfl, rfl, rfl⟩, rfl, rfl, rfl⟩

theorem Kept.close (kept : Kept history client) (live : client.phase ≠ .closed) :
    Kept (.closed :: history) client.close := by
  obtain ⟨torn, phase, closed, next⟩ := torn_close live
  constructor
  case awaiting =>
    intro _
    rw [phase, torn.handshake]
    constructor
    · intro open?
      cases open?
    · rintro ⟨id, outstanding⟩
      cases outstanding
  case settling =>
    intro id outcome waited mode
    obtain ⟨-, -, success⟩ := kept.settling mode
    refine ⟨torn.handshake, ?_, success⟩
    rw [phase]
    intro idle
    cases idle
  case outstanding =>
    intro _ id outstanding
    cases torn.handshake.symm.trans outstanding
  case initialized =>
    intro initialized
    cases phase.symm.trans initialized
  case closed => exact ⟨fun _ => closed, fun _ => phase⟩
  case torn => exact fun _ => torn
  case numbered =>
    constructor
    · rw [next]
      exact kept.numbered.next
    · intro id member
      rw [torn.pending] at member
      cases member
  case once => exact kept.once
  case past => exact fun _ => .inr (.inl phase)

theorem Torn.leaving (torn : client.Torn) (id : Id) : (client.leaving id).Torn := by
  refine ⟨?_, torn.hooks, torn.handshake, torn.queue, torn.sink⟩
  apply List.eq_nil_iff_forall_not_mem.mpr
  intro other member
  have was := (mem_leaving.mp member).1
  rw [torn.pending] at was
  cases was

theorem Numbered.leaving {calls : Nat} (numbered : Numbered calls client) (id : Id) :
    Numbered calls (client.leaving id) := by
  refine ⟨numbered.next, ?_⟩
  intro other member
  exact numbered.pending other (mem_leaving.mp member).1

theorem Kept.arrived (kept : Kept history client) (id : Id) (outcome : Outcome) (waited : Bool)
    (rest : history.frame.mode = .resting) :
    Kept (.arrived id outcome waited :: history) (client.leaving id) := by
  have sound := kept.sound rest
  constructor
  case awaiting => exact fun _ => sound.awaiting
  case settling =>
    intro other result answered mode
    cases mode
  case outstanding =>
    intro few other outstanding
    by_cases same : other = id
    · right
      rw [same]
      exact ⟨outcome, waited, false, rfl⟩
    · left
      exact mem_leaving.mpr ⟨sound.outstanding few other outstanding, same⟩
  case initialized => exact kept.initialized
  case closed => exact kept.closed
  case torn =>
    intro closed
    exact (kept.torn closed).leaving id
  case numbered => exact kept.numbered.leaving id
  case once => exact kept.once
  case past =>
    intro some
    rcases kept.past some with initialized | closed | settled
    · exact .inl initialized
    · exact .inr (.inl closed)
    · rw [rest] at settled
      cases settled

/-- What the newest occurrence says about where the history stands. -/
theorem mode_of_arrived {id : Id} {outcome : Outcome} {waited : Bool}
    (last : history.head? = some (.arrived id outcome waited)) :
    history.frame.mode = .answering id outcome waited false := by
  cases history with
  | nil => cases last
  | cons occurrence earlier =>
    obtain rfl := Option.some.inj last
    rfl

theorem Kept.settled (kept : Kept history client) {id : Id} {value : Value} {waited : Bool}
    (last : history.head? = some (.arrived id (.ok value) waited))
    (outstanding : client.handshake? = some id) :
    Kept (.settled id :: history) { client with handshake? := none } := by
  have mode := mode_of_arrived last
  have unsettled : history.frame.mode.settled = false := by rw [mode]; rfl
  have open? : client.phase = .awaiting := (kept.awaiting unsettled).mpr ⟨id, outstanding⟩
  have first : history.settlements = [] := kept.unfinished (.inr open?) unsettled
  have settled : (History.frame (.settled id :: history)).mode =
      .answering id (.ok value) waited true := by
    rw [History.frame_cons, Frame.next, mode]
    rfl
  constructor
  case awaiting =>
    intro rest
    rw [settled] at rest
    cases rest
  case settling =>
    intro other outcome answered here
    rw [settled] at here
    cases here
    refine ⟨rfl, ?_, value, rfl⟩
    intro idle
    cases open?.symm.trans idle
  case outstanding =>
    intro _ other outstanding
    cases outstanding
  case initialized =>
    intro initialized
    cases open?.symm.trans initialized
  case closed => exact kept.closed
  case torn =>
    intro closed
    cases open?.symm.trans closed
  case numbered => exact ⟨kept.numbered.next, kept.numbered.pending⟩
  case once =>
    rw [History.settlements, first]
    exact Nat.le_refl 1
  case past =>
    intro _
    rw [settled]
    exact .inr (.inr rfl)

/-- The outstanding handshake is forgotten, and its request with it. -/
theorem Kept.forgot (kept : Kept history client) {id : Id} {occurrence : Occurrence π}
    (mode : ((history.frame).next occurrence).mode = history.frame.mode)
    (unsettled : history.frame.mode.settled = false) (calls : occurrence.calls = 0)
    (settlements : History.settlements (occurrence :: history) = history.settlements)
    (outstanding : client.handshake? = some id) (idle : after.phase = .uninitialized)
    (handshake : after.handshake? = none) (closed : after.pending.closed = client.pending.closed)
    (fewer : ∀ id ∈ after.pending.ids, id ∈ client.pending.ids)
    (next : after.nextId = client.nextId) : Kept (occurrence :: history) after := by
  have open? : client.phase = .awaiting := (kept.awaiting unsettled).mpr ⟨id, outstanding⟩
  have count : History.calls (occurrence :: history) = history.calls := by
    rw [History.calls_cons, calls, Nat.add_zero]
  constructor
  case awaiting =>
    intro _
    rw [idle, handshake]
    constructor
    · intro open?
      cases open?
    · rintro ⟨_, outstanding⟩
      cases outstanding
  case settling =>
    intro other outcome waited here
    rw [History.frame_cons, mode] at here
    rw [here] at unsettled
    cases unsettled
  case outstanding =>
    intro _ other outstanding
    cases handshake.symm.trans outstanding
  case initialized =>
    intro initialized
    cases idle.symm.trans initialized
  case closed =>
    constructor
    · intro past
      cases idle.symm.trans past
    · intro past
      rw [closed] at past
      cases open?.symm.trans (kept.closed.mpr past)
  case torn =>
    intro past
    cases idle.symm.trans past
  case numbered =>
    rw [count]
    constructor
    · rw [next]
      exact kept.numbered.next
    · intro other member
      exact kept.numbered.pending other (fewer other member)
  case once =>
    rw [settlements]
    exact kept.once
  case past =>
    rw [settlements]
    intro some
    exact absurd (kept.unfinished (.inr open?) unsettled) some

theorem abandonHandshake_open {id : Id} (outstanding : client.handshake? = some id)
    (open? : client.phase = .awaiting) :
    client.abandonHandshake id = { client with handshake? := none, phase := .uninitialized } := by
  simp [abandonHandshake, outstanding, open?]

theorem abandonHandshake_other {id : Id} (other : client.handshake? ≠ some id) :
    client.abandonHandshake id = client :=
  if_pos other

theorem Kept.abandoned (kept : Kept history client) {id : Id} {error : ResponseError}
    {waited : Bool} (last : history.head? = some (.arrived id (.error error) waited))
    (outstanding : client.handshake? = some id) :
    Kept (.abandoned id :: history) (client.abandonHandshake id) ∧
      client.phase = .awaiting ∧ (client.abandonHandshake id).phase = .uninitialized := by
  have mode := mode_of_arrived last
  have unsettled : history.frame.mode.settled = false := by rw [mode]; rfl
  have open? : client.phase = .awaiting := (kept.awaiting unsettled).mpr ⟨id, outstanding⟩
  rw [abandonHandshake_open outstanding open?]
  exact ⟨kept.forgot rfl unsettled rfl rfl outstanding rfl rfl rfl (fun _ member => member) rfl,
    open?, rfl⟩

theorem Kept.gathered (kept : Kept history client) (hooks : List π) :
    Kept (.gathered hooks :: history) { client with hooks := [] } := by
  constructor
  case awaiting => exact kept.awaiting
  case settling => exact kept.settling
  case outstanding => exact kept.outstanding
  case initialized => exact fun _ => rfl
  case closed => exact kept.closed
  case torn =>
    intro closed
    have torn := kept.torn closed
    exact ⟨torn.pending, rfl, torn.handshake, torn.queue, torn.sink⟩
  case numbered => exact ⟨kept.numbered.next, kept.numbered.pending⟩
  case once => exact kept.once
  case past => exact kept.past

theorem Kept.opened (kept : Kept history client) {id : Id} {outcome : Outcome} {waited : Bool}
    (draining : history.frame.mode = .answering id outcome waited true)
    (none : client.hooks = []) (open? : client.phase = .awaiting) :
    Kept (.opened :: history) { client with phase := .initialized } := by
  obtain ⟨noHandshake, -, success⟩ := kept.settling draining
  constructor
  case awaiting =>
    intro rest
    have unsettled : history.frame.mode.settled = false := rest
    rw [draining] at unsettled
    cases unsettled
  case settling =>
    intro other result answered here
    obtain ⟨-, -, success⟩ := kept.settling here
    refine ⟨noHandshake, ?_, success⟩
    intro idle
    cases idle
  case outstanding => exact kept.outstanding
  case initialized => exact fun _ => none
  case closed =>
    constructor
    · intro closed
      cases closed
    · intro closed
      cases open?.symm.trans (kept.closed.mpr closed)
  case torn =>
    intro closed
    cases closed
  case numbered => exact ⟨kept.numbered.next, kept.numbered.pending⟩
  case once => exact kept.once
  case past => exact fun _ => .inl rfl

theorem Kept.answered (kept : Kept history client) {id : Id} {outcome : Outcome}
    {waited settled : Bool} {occurrence : Occurrence π}
    (answering : history.frame.mode = .answering id outcome waited settled)
    (past : settled = false → client.handshake? ≠ some id)
    (done : settled = true → client.phase ≠ .awaiting)
    (last : occurrence = .delivered id outcome ∨ occurrence = .orphaned id)
    (agree : Agree client after) : Kept (occurrence :: history) after := by
  have count : History.calls (occurrence :: history) = history.calls := by
    rcases last with rfl | rfl <;> rfl
  have settlements : History.settlements (occurrence :: history) = history.settlements := by
    rcases last with rfl | rfl <;> rfl
  have rests : (History.frame (occurrence :: history)).mode = .resting := by
    rcases last with rfl | rfl <;> rfl
  have handshakes : client.handshake? ≠ some id := by
    cases settled with
    | false => exact past rfl
    | true =>
      rw [(kept.settling answering).1]
      intro outstanding
      cases outstanding
  constructor
  case awaiting =>
    intro _
    rw [agree.phase, agree.handshake]
    cases settled with
    | false =>
      apply kept.awaiting
      rw [answering]
      rfl
    | true =>
      rw [(kept.settling answering).1]
      constructor
      · intro open?
        exact absurd open? (done rfl)
      · rintro ⟨_, outstanding⟩
        cases outstanding
  case settling =>
    intro other result waited here
    rw [rests] at here
    cases here
  case outstanding =>
    rw [count, agree.handshake, agree.pending]
    intro few other outstanding
    rcases kept.outstanding few outstanding with member | ⟨result, waits, settles, mode⟩
    · exact .inl member
    · rw [answering] at mode
      cases mode
      exact absurd outstanding handshakes
  case initialized =>
    rw [agree.phase, agree.hooks]
    exact kept.initialized
  case closed =>
    rw [agree.phase, agree.pending]
    exact kept.closed
  case torn =>
    rw [agree.phase]
    intro closed
    exact agree.torn (kept.torn closed)
  case numbered =>
    rw [count]
    exact agree.numbered kept.numbered
  case once =>
    rw [settlements]
    exact kept.once
  case past =>
    rw [settlements, agree.phase]
    intro some
    rcases kept.past some with initialized | closed | settles
    · exact .inl initialized
    · exact .inr (.inl closed)
    -- The success acted on up to here has left the phase neither untried nor open.
    · rw [answering] at settles
      obtain rfl : settled = true := settles
      obtain ⟨-, tried, -⟩ := kept.settling answering
      have notOpen := done rfl
      cases current : client.phase with
      | uninitialized => exact absurd current tried
      | awaiting => exact absurd current notOpen
      | initialized => exact .inl rfl
      | closed => exact .inr (.inl rfl)

end Airlock.Client
