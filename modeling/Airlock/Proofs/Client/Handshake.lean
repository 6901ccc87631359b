import Airlock.Proofs.Client.HookOrder
import Airlock.Proofs.Client.Soundness

/-!
# The handshake and its hooks

A failed handshake leaves the hooks waiting. A success tells the peer, runs every hook in its order,
and is handed over last.
-/

set_option autoImplicit false

namespace Airlock.Client

variable {π : Type}

variable {history : History π} {client after : Client π}

/-! ## Runs -/

private theorem patient_abandonHandshake (client : Client π) (id : Id) :
    Patient client (client.abandonHandshake id) := by
  unfold abandonHandshake
  split
  · exact {}
  · constructor
    case hooks => exact fun _ => rfl
    case closed =>
      intro closed
      simp [closed]
    case initialized =>
      intro initialized
      by_cases open? : client.phase = .awaiting
      · simp [open?] at initialized
      · simpa [open?] using initialized
    case delivered => rfl

private theorem patient_close (live : client.phase ≠ .closed) : Patient client client.close := by
  obtain ⟨-, phase, -⟩ := torn_close live
  constructor
  case hooks => exact fun still => absurd phase still
  case closed => exact fun _ => phase
  case initialized =>
    intro initialized
    cases phase.symm.trans initialized
  case delivered => rw [close, if_neg live]

/-- A client in which no handshake is done yet, with the next one tried. -/
theorem patient_attempt (idle : client.phase = .uninitialized)
    (hooks : after.hooks = client.hooks) (open? : after.phase = .awaiting)
    (delivered : after.delivered = client.delivered) : Patient client after := by
  constructor
  case hooks => exact fun _ => hooks
  case closed =>
    intro closed
    cases idle.symm.trans closed
  case initialized =>
    intro initialized
    cases open?.symm.trans initialized
  case delivered => exact delivered

/-- A client whose next handshake was not sent after all. -/
theorem patient_withdraw (open? : client.phase = .awaiting)
    (hooks : after.hooks = client.hooks) (idle : after.phase = .uninitialized)
    (delivered : after.delivered = client.delivered) : Patient client after := by
  constructor
  case hooks => exact fun _ => hooks
  case closed =>
    intro closed
    cases open?.symm.trans closed
  case initialized =>
    intro initialized
    cases idle.symm.trans initialized
  case delivered => exact delivered

private theorem patient_alike (alike : Alike client after) : Patient client after := by
  constructor
  case hooks =>
    intro _
    rw [alike.same]
  case closed =>
    intro closed
    rw [alike.same]
    exact closed
  case initialized =>
    rw [alike.same]
    exact fun initialized => initialized
  case delivered => rw [alike.same]

theorem Ordered.begun_prefix (ordered : Ordered history client) :
    history.begun <+: history.registered :=
  (List.prefix_append _ _).trans ordered.order

/-- A step that is neither the start of a hook nor a step of the handshake. -/
theorem Ordered.along {occurrence : Occurrence π} (ordered : Ordered (occurrence :: history) after)
    (minor : occurrence.minor = true) (delivered : after.delivered = client.delivered) :
    Trail.Along Orderly history client [(occurrence, after)] ∧
      Ordered (history.extend [(occurrence, after)]) after :=
  ⟨⟨.of_minor minor ordered.begun_prefix delivered, trivial⟩, ordered⟩

/-- Hooks start only while a success of the handshake is acted on, or after it. -/
theorem Kept.success (kept : Kept history client) (draining : history.frame.mode.settled = true) :
    ∃ id value waited, history.frame.mode = .answering id (.ok value) waited true := by
  rcases mode : history.frame.mode with _ | ⟨id, outcome, waited, settled⟩
  · rw [mode] at draining
    cases draining
  · rw [mode] at draining
    obtain rfl : settled = true := draining
    obtain ⟨-, -, value, rfl⟩ := kept.settling mode
    exact ⟨id, value, waited, rfl⟩

theorem ordered_step {chunk : Trail π} (kept : Kept history client)
    (ordered : Ordered history client)
    (step : Step history client chunk after) :
    Trail.Along Orderly history client chunk ∧ Ordered (history.extend chunk) after := by
  cases step with
  | refused barred => exact ordered.along_beside rfl {}
  | withdrawn live plain => exact ordered.along_beside rfl {}
  | issued live plain sent =>
    subst sent
    exact ordered.along_beside rfl {}
  | attemptWithdrawn idle opening undone =>
    subst undone
    exact ordered.along_beside_cons rfl rfl (patient_attempt idle rfl rfl rfl)
      (patient_withdraw rfl rfl idle rfl)
  | attemptIssued idle opening sent =>
    subst sent
    exact ordered.along_beside_cons rfl rfl (patient_attempt idle rfl rfl rfl) {}
  | held fresh => exact ordered.along_beside rfl {}
  | released => exact ordered.along_beside rfl {}
  | notified live => exact ordered.along_beside rfl {}
  | queued early =>
    have live : client.phase ≠ .closed := by
      rintro closed
      rw [closed] at early
      rcases early with early | early <;> cases early
    exact (ordered.queue _ live).along rfl rfl
  | @started hook late =>
    have final := ordered.start hook late (kept.initialized late)
    have order := ordered.begun_prefix.trans (List.prefix_append history.registered [hook])
    have registers : Orderly history client (.registered hook) client :=
      .of_minor rfl order rfl
    obtain ⟨-, some⟩ := ordered.initialized late
    have starts : Orderly (.registered hook :: history) client (.began hook true) client :=
      .of_began final.begun_prefix some (.inl late)
    exact ⟨⟨registers, starts, trivial⟩, final⟩
  | dropped late => exact (ordered.drop _ late).along rfl rfl
  | began next =>
    have final := ordered.begin next
    have some : history.frame.due ≠ [] := by
      rw [next]
      exact List.cons_ne_nil _ _
    have draining := ordered.draining some
    have starts : Orderly history client (.began _ false) client :=
      .of_began final.begun_prefix (ordered.settled draining) (.inr (kept.success draining))
    exact ⟨⟨starts, trivial⟩, final⟩
  | ended innermost => exact (ordered.finish innermost).along rfl rfl
  | closed live => exact ordered.along_beside rfl (patient_close live)
  | arrived rest => exact (ordered.arrive _ _ _ rest).along rfl rfl
  | @settled id value waited _ last outstanding past =>
    subst past
    have final := ordered.settle id
    exact ⟨⟨.of_settled final.begun_prefix outstanding ⟨value, waited, last⟩, trivial⟩, final⟩
  | @announced id last live =>
    have final := ordered.announce Call.handshakeDone.toNotification last
    exact ⟨⟨.of_announced final.begun_prefix ⟨id, last⟩ rfl, trivial⟩, final⟩
  | abandoned last outstanding => exact ordered.along_beside rfl (patient_abandonHandshake client _)
  | gathered draining free some taken =>
    subst taken
    have settled : history.frame.mode.settled = true := by
      rw [draining]
      rfl
    have open? : client.phase ≠ .initialized := by
      intro initialized
      exact some (kept.initialized initialized)
    have live : client.phase ≠ .closed := by
      intro closed
      exact some (kept.torn closed).hooks
    exact (ordered.gather settled free open? live).along rfl rfl
  | opened draining free none open? done =>
    subst done
    have settled : history.frame.mode.settled = true := by
      rw [draining]
      rfl
    exact (ordered.open settled free open?).along rfl rfl
  | @delivered id outcome _ _ waited free idle past done handed =>
    have phase : after.phase = client.phase := by rw [handed]
    have hooks : after.hooks = client.hooks := by rw [handed]
    have delivers : after.delivered = (id, outcome) :: client.delivered := by rw [handed]
    have final : Ordered (.delivered id outcome :: history) after :=
      ordered.rest free (.inl ⟨outcome, rfl⟩) phase hooks
    exact ⟨⟨.of_delivered final.begun_prefix free idle delivers, trivial⟩, final⟩
  | orphaned stray free idle past done noted =>
    have phase : after.phase = client.phase := by rw [noted]; rfl
    have hooks : after.hooks = client.hooks := by rw [noted]; rfl
    have delivered : after.delivered = client.delivered := by rw [noted]; rfl
    exact (ordered.rest free (.inr rfl) phase hooks).along rfl delivered
  | replied => exact ordered.along_beside rfl {}
  | awaitedHeld held => exact ordered.along_beside rfl {}
  | awaitedFresh fresh => exact ordered.along_beside rfl {}
  | @expired id _ _ rest waits open? forgotten =>
    subst forgotten
    have patient := patient_abandonHandshake (client.leaving id) id
    exact ordered.along_beside_cons rfl rfl
      ⟨patient.hooks, patient.closed, patient.initialized, patient.delivered⟩ {}
  | resolved rest waits decided => exact ordered.along_beside rfl {}
  | forgotten => exact ordered.along_beside rfl {}
  | quiet alike => exact ordered.along_beside rfl (patient_alike alike)

/-! ## Responses to the handshake -/

def Trail.Starts (trail : Trail π) : Prop :=
  ∃ entry ∈ trail, ∃ hook atOnce, entry.1 = .began hook atOnce

theorem mem_extend {entry : Occurrence π × Client π} {trail : Trail π} (member : entry ∈ trail) :
    entry.1 ∈ history.extend trail :=
  List.mem_append_left _ (List.mem_reverse.mpr (List.mem_map_of_mem member))

private theorem mem_begun {hook : π} {atOnce : Bool} (began : .began hook atOnce ∈ history) :
    hook ∈ history.begun := by
  induction history with
  | nil => cases began
  | cons occurrence earlier ih =>
    rcases List.mem_cons.mp began with rfl | before
    · exact List.mem_append_right _ List.mem_cons_self
    · cases occurrence with
      | began => exact List.mem_append_left _ (ih before)
      | _ => exact ih before

theorem Trail.not_starts {trail : Trail π} (none : trail.begun = []) : ¬trail.Starts := by
  rintro ⟨entry, member, hook, atOnce, here⟩
  have began : entry.1 ∈ trail.history := mem_extend member
  rw [here] at began
  have some := mem_begun began
  rw [Trail.begun] at none
  rw [none] at some
  cases some

/-- The client right after its handshake succeeded, before the peer is told. -/
def settling (client : Client π) (id : Id) : Client π :=
  { client.leaving id with handshake? := none }

/-- The client when its waiting hooks begin to run: the peer is told if this is wanted and the queue
is open. -/
def telling (client : Client π) (id : Id) : Client π :=
  if client.sendsInitialized = true ∧ client.link.queue.closed = false then
    (client.settling id).enqueued Call.handshakeDone.toNotification
  else client.settling id

private theorem notify_settling {id : Id} (live : client.phase ≠ .closed) (call : Call) :
    (client.settling id).notify call =
      if client.link.queue.closed then .error .closed
      else .ok ((client.settling id).enqueued call.toNotification) := by
  unfold notify
  have still : (client.settling id).phase ≠ .closed := live
  rw [if_neg still, send_eq]
  rfl

theorem announceTrail_settling {id : Id} (live : client.phase ≠ .closed) :
    (client.settling id).announceTrail =
      if client.sendsInitialized = true ∧ client.link.queue.closed = false then
        [(.announced, client.telling id)] else [] := by
  have sends : (client.settling id).sendsInitialized = client.sendsInitialized := rfl
  unfold announceTrail telling
  rw [notify_settling live, sends]
  cases client.sendsInitialized <;> cases client.link.queue.closed <;> rfl

theorem told_settling {id : Id} (live : client.phase ≠ .closed) :
    (if (client.settling id).sendsInitialized = true then
      (client.settling id).notifyIfOpen .handshakeDone else client.settling id) =
      client.telling id := by
  have sends : (client.settling id).sendsInitialized = client.sendsInitialized := rfl
  unfold notifyIfOpen telling
  rw [notify_settling live, sends]
  cases client.sendsInitialized <;> cases client.link.queue.closed <;> rfl

/-- What a success of the outstanding handshake does, in order: the peer is told, the hooks run, and
the outcome is handed over last. -/
theorem responseTrail_success {client : Client} {id : Id} (value : Value)
    (outstanding : client.handshake? = some id) (live : client.phase ≠ .closed) :
    client.responseTrail id (.ok value) =
      (.arrived id (.ok value) (client.pending.contains id), client.leaving id) ::
        (.settled id, client.settling id) ::
          ((if client.sendsInitialized = true ∧ client.link.queue.closed = false then
              [(.announced, client.telling id)] else []) ++
            ((client.telling id).drainTrail ++
              [(if client.pending.contains id then .delivered id (.ok value) else .orphaned id,
                client.acceptResponse id (.ok value))])) := by
  have ending : (client.leaving id).endHandshakeTrail id (.ok value) =
      (.settled id, client.settling id) ::
        ((client.settling id).announceTrail ++ (client.telling id).drainTrail) := by
    rw [← told_settling live]
    rfl
  have here : (client.leaving id).handshake? = some id := outstanding
  rw [acceptResponse_eq, responseTrail_eq, if_pos here, if_pos here, ending,
    announceTrail_settling live, List.cons_append, List.append_assoc]

theorem ordered_path {trail : Trail π} (path : Path history client trail after)
    (kept : Kept history client) (ordered : Ordered history client) :
    Trail.Along Orderly history client trail ∧ Kept (history.extend trail) after ∧
      Ordered (history.extend trail) after :=
  @Path.along _ (fun history client => Kept history client ∧ Ordered history client) Orderly
    (fun both step => by
      obtain ⟨along, ordered⟩ := ordered_step both.1 both.2 step
      exact ⟨along, (kept_step both.1 step).2, ordered⟩) _ _ _ _ path ⟨kept, ordered⟩

theorem settlements_ne_nil {id : Id} (settled : .settled id ∈ history) :
    history.settlements ≠ [] := by
  induction history with
  | nil => cases settled
  | cons occurrence earlier ih =>
    rcases List.mem_cons.mp settled with rfl | before
    · exact List.cons_ne_nil _ _
    · cases occurrence with
      | settled => exact List.cons_ne_nil _ _
      | _ => exact ih before

theorem Kept.alive (kept : Kept history client) {id : Id}
    (outstanding : client.handshake? = some id) : client.phase ≠ .closed := by
  intro closed
  cases (kept.torn closed).handshake.symm.trans outstanding

end Airlock.Client
