import Airlock.Proofs.Client.Invariant

/-!
# Soundness of clients

The invariant holds at every point of a run, so between operations the parts of a client agree. The
phase itself moves along four edges only, and is never left once it is the last one.
-/

set_option autoImplicit false

namespace Airlock.Client

variable {π : Type}

/-! ## How the phase changes -/

/-- What an occurrence does to the phase. -/
inductive Changes (history : History π) (before after : Client π) : Occurrence π → Prop where
  | stays {occurrence} (same : after.phase = before.phase) : Changes history before after occurrence
  | sent {id} (idle : before.phase = .uninitialized) (opens : after.phase = .awaiting) :
      Changes history before after (.attempted id)
  | unsent {id call} (opening : call.method = Methods.handshake) (open? : before.phase = .awaiting)
      (again : after.phase = .uninitialized) : Changes history before after (.withdrawn id call)
  | failed {id error waited} (answered : history.head? = some (.arrived id (.error error) waited))
      (outstanding : before.handshake? = some id) (open? : before.phase = .awaiting)
      (again : after.phase = .uninitialized) : Changes history before after (.abandoned id)
  | late {id timeout} (outstanding : before.handshake? = some id) (open? : before.phase = .awaiting)
      (again : after.phase = .uninitialized) : Changes history before after (.expired id timeout)
  | succeeded {id value waited}
      (answered : history.frame.mode = .answering id (.ok value) waited true)
      (open? : before.phase = .awaiting) (done : after.phase = .initialized) :
      Changes history before after .opened
  | ended (done : after.phase = .closed) : Changes history before after .closed

/-- What never changes back: an initialized client stays initialized until it is closed, and a
closed one stays closed. -/
structure Phase.Keeps (earlier later : Phase) : Prop where
  closed : earlier = .closed → later = .closed
  initialized : earlier = .initialized → later = .initialized ∨ later = .closed

private theorem Phase.Keeps.refl (phase : Phase) : Phase.Keeps phase phase :=
  ⟨id, .inl⟩

private theorem Phase.Keeps.trans {first second third : Phase} (before : Phase.Keeps first second)
    (after : Phase.Keeps second third) : Phase.Keeps first third where
  closed closed := after.closed (before.closed closed)
  initialized initialized := by
    rcases before.initialized initialized with still | closed
    · exact after.initialized still
    · exact .inr (after.closed closed)

/-- Nothing is asked of what follows a phase before the handshake's end. -/
theorem Phase.Keeps.early {earlier later : Phase}
    (early : earlier = .uninitialized ∨ earlier = .awaiting) : Phase.Keeps earlier later := by
  constructor
  case closed =>
    rintro rfl
    rcases early with early | early <;> cases early
  case initialized =>
    rintro rfl
    rcases early with early | early <;> cases early

theorem Changes.keeps {history : History π} {before after : Client π} {occurrence : Occurrence π}
    (changes : Changes history before after occurrence) : Phase.Keeps before.phase after.phase := by
  cases changes with
  | stays same =>
    rw [same]
    exact .refl _
  | sent idle opens =>
    rw [idle, opens]
    exact Phase.Keeps.early (.inl rfl)
  | unsent opening open? again =>
    rw [open?, again]
    exact Phase.Keeps.early (.inr rfl)
  | failed answered outstanding open? again =>
    rw [open?, again]
    exact Phase.Keeps.early (.inr rfl)
  | late outstanding open? again =>
    rw [open?, again]
    exact Phase.Keeps.early (.inr rfl)
  | succeeded answered open? done =>
    rw [open?, done]
    exact Phase.Keeps.early (.inr rfl)
  | ended done =>
    rw [done]
    exact ⟨fun _ => rfl, fun _ => .inr rfl⟩

/-- What holds between neighbours and is transitive holds between any two points of a trail. -/
theorem pairwise_phases {history : History π} {client : Client π} {trail : Trail π}
    (along : Trail.Along (fun _ before _ after => Phase.Keeps before.phase after.phase)
      history client trail) :
    (client :: trail.map (·.2)).Pairwise fun earlier later =>
      Phase.Keeps earlier.phase later.phase := by
  induction trail generalizing history client with
  | nil => simp
  | cons entry rest ih =>
    have later := ih along.2
    refine List.pairwise_cons.mpr ⟨fun other member => ?_, later⟩
    rcases List.mem_cons.mp member with rfl | further
    · exact along.1
    · exact along.1.trans ((List.pairwise_cons.mp later).1 other further)

variable {history : History π} {client after : Client π}

/-! ## Runs are sound -/

/-- What holds of every occurrence of a run. -/
structure Lawful (history : History π) (before : Client π) (occurrence : Occurrence π)
    (after : Client π) : Prop where
  changes : Changes history before after occurrence
  sound : History.Between (occurrence :: history) →
    Sound (History.calls (occurrence :: history)) after

private theorem Kept.lawful {occurrence : Occurrence π} (kept : Kept (occurrence :: history) after)
    (changes : Changes history client after occurrence) :
    Trail.Along Lawful history client [(occurrence, after)] ∧
      Kept (history.extend [(occurrence, after)]) after :=
  ⟨⟨⟨changes, fun between => kept.sound between.resting⟩, trivial⟩, kept⟩

private theorem Kept.lawful_same (kept : Kept history client) {occurrence : Occurrence π}
    (plain : occurrence.plain = true) (agree : Agree client after) :
    Trail.Along Lawful history client [(occurrence, after)] ∧
      Kept (history.extend [(occurrence, after)]) after :=
  (kept.same plain agree).lawful (.stays agree.phase)

/-- Of the two occurrences of one call, the first is inside the call. -/
theorem Kept.lawful_attempt {id : Id} {attempting : Client π} {occurrence : Occurrence π}
    (kept : Kept (occurrence :: .attempted id :: history) after)
    (first : Changes history client attempting (.attempted id))
    (second : Changes (.attempted id :: history) attempting after occurrence) :
    Trail.Along Lawful history client [(.attempted id, attempting), (occurrence, after)] ∧
      Kept (history.extend [(.attempted id, attempting), (occurrence, after)]) after :=
  ⟨⟨⟨first, fun between => absurd rfl (between.complete id)⟩,
    ⟨second, fun between => kept.sound between.resting⟩, trivial⟩, kept⟩

private theorem Kept.lawful_cons {middle : Client π} {first : Occurrence π} {chunk : Trail π}
    (kept : Kept (first :: history) middle) (changes : Changes history client middle first)
    (rest : Kept (first :: history) middle → Trail.Along Lawful (first :: history) middle chunk ∧
      Kept (History.extend (first :: history) chunk) after) :
    Trail.Along Lawful history client ((first, middle) :: chunk) ∧
      Kept (history.extend ((first, middle) :: chunk)) after := by
  obtain ⟨along, final⟩ := rest kept
  rw [History.extend_cons]
  exact ⟨⟨⟨changes, fun between => kept.sound between.resting⟩, along⟩, final⟩

theorem Kept.expired (kept : Kept history client) {id : Id} (timeout : Duration)
    (rest : history.frame.mode = .resting) :
    Kept (.expired id timeout :: history) ((client.leaving id).abandonHandshake id) ∧
      Changes history client ((client.leaving id).abandonHandshake id) (.expired id timeout) := by
  have sound := kept.sound rest
  have unsettled : history.frame.mode.settled = false := by rw [rest]; rfl
  by_cases outstanding : client.handshake? = some id
  · have open? : client.phase = .awaiting := sound.awaiting.mpr ⟨id, outstanding⟩
    have forgotten : (client.leaving id).abandonHandshake id = _ :=
      abandonHandshake_open outstanding open?
    rw [forgotten]
    exact ⟨kept.forgot rfl unsettled rfl rfl outstanding rfl rfl rfl
      (fun other member => (mem_leaving.mp member).1) rfl, .late outstanding open? rfl⟩
  · have forgotten : (client.leaving id).abandonHandshake id = client.leaving id :=
      abandonHandshake_other outstanding
    rw [forgotten]
    refine ⟨?_, .stays rfl⟩
    constructor
    case awaiting => exact fun _ => sound.awaiting
    case settling => exact kept.settling
    case outstanding =>
      intro few other open?
      left
      refine mem_leaving.mpr ⟨sound.outstanding few other open?, ?_⟩
      rintro rfl
      exact outstanding open?
    case initialized => exact kept.initialized
    case closed => exact kept.closed
    case torn =>
      intro closed
      exact (kept.torn closed).leaving id
    case numbered => exact kept.numbered.leaving id
    case once => exact kept.once
    case past => exact kept.past

theorem kept_step {chunk : Trail π} (kept : Kept history client)
    (step : Step history client chunk after) :
    Trail.Along Lawful history client chunk ∧ Kept (history.extend chunk) after := by
  cases step with
  | refused barred => exact (kept.refused _).lawful (.stays rfl)
  | withdrawn live plain => exact (kept.withdrawn live plain).lawful (.stays rfl)
  | issued live plain sent =>
    subst sent
    exact (kept.issued live plain).lawful (.stays rfl)
  | attemptWithdrawn idle opening undone =>
    subst undone
    exact (kept.attemptWithdrawn idle opening).lawful_attempt (.sent idle rfl)
      (.unsent opening rfl idle)
  | attemptIssued idle opening sent =>
    subst sent
    exact (kept.attemptIssued idle opening).lawful_attempt (.sent idle rfl) (.stays rfl)
  | held fresh => exact kept.lawful_same rfl {}
  | released => exact kept.lawful_same rfl {}
  | notified live => exact kept.lawful_same rfl {}
  | queued early => exact (kept.queued early).lawful (.stays rfl)
  | started late =>
    exact Kept.lawful_cons (kept.same rfl {}) (.stays rfl) fun kept => kept.lawful_same rfl {}
  | dropped late => exact kept.lawful_same rfl {}
  | began next => exact kept.lawful_same rfl {}
  | ended innermost => exact kept.lawful_same rfl {}
  | closed live => exact (kept.close live).lawful (.ended (torn_close live).2.1)
  | arrived rest => exact (kept.arrived _ _ _ rest).lawful (.stays rfl)
  | settled last outstanding past =>
    subst past
    exact (kept.settled last outstanding).lawful (.stays rfl)
  | announced last live => exact kept.lawful_same rfl {}
  | abandoned last outstanding =>
    obtain ⟨forgot, open?, again⟩ := kept.abandoned last outstanding
    exact forgot.lawful (.failed last outstanding open? again)
  | gathered draining free some taken =>
    subst taken
    exact (kept.gathered _).lawful (.stays rfl)
  | opened draining free none open? done =>
    subst done
    obtain ⟨value, rfl⟩ := (kept.settling draining).2.2
    exact (kept.opened draining none open?).lawful (.succeeded draining open? rfl)
  | delivered waited free idle past done handed =>
    subst handed
    exact (kept.answered waited past done (.inl rfl) {}).lawful (.stays rfl)
  | orphaned stray free idle past done noted =>
    subst noted
    exact (kept.answered stray past done (.inr rfl) {}).lawful (.stays rfl)
  | replied => exact kept.lawful_same rfl {}
  | awaitedHeld held => exact kept.lawful_same rfl {}
  | awaitedFresh fresh => exact kept.lawful_same rfl {}
  | expired rest waits open? forgotten =>
    subst forgotten
    obtain ⟨expired, changes⟩ := kept.expired _ rest
    exact expired.lawful_cons changes fun kept => kept.lawful_same rfl {}
  | resolved rest waits decided =>
    exact kept.lawful_same rfl {}
  | forgotten => exact kept.lawful_same rfl {}
  | quiet alike => exact kept.lawful_same rfl alike.agree

namespace World

/-- Whatever acts happen to a client, in whatever order: its parts agree after them, and at every
point of them at which no operation is under way; its phase changes along four edges only, never
back from being initialized or closed; and at most one handshake succeeds. -/
theorem run_sound (config : Config) (acts : List Act) :
    let start := create config
    let trail := start.trail acts
    Trail.last start.client trail = (start.run acts).client ∧
      Sound trail.history.calls (start.run acts).client ∧
      Trail.Along Lawful [] start.client trail ∧
      ((start.client :: trail.map (·.2)).Pairwise fun earlier later =>
        Phase.Keeps earlier.phase later.phase) ∧
      trail.history.settlements.length ≤ 1 := by
  intro start trail
  obtain ⟨path, follows⟩ := path_trail (follows_create config) acts
  obtain ⟨along, kept⟩ := path.along kept_step (kept_create config _)
  exact ⟨path.last, kept.sound follows.calm.mode, along,
    pairwise_phases (along.mono fun lawful => lawful.changes.keeps), kept.once⟩

end World

end Airlock.Client
