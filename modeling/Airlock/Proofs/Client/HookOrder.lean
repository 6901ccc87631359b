import Airlock.Proofs.Client.Invariant

/-!
# The order of hooks

Hooks start in the order in which they were registered, each at most once, and none before the
outstanding handshake succeeded. The invariant says where every registered hook is: it started, is
due, or waits in the client.
-/

set_option autoImplicit false

namespace Airlock.Client

variable {π : Type}

/-! ## What a history says about hooks -/

def History.registered : History π → List π
  | [] => []
  | .registered hook :: history => History.registered history ++ [hook]
  | _ :: history => History.registered history

def History.begun : History π → List π
  | [] => []
  | .began hook _ :: history => History.begun history ++ [hook]
  | _ :: history => History.begun history

def History.ended : History π → List π
  | [] => []
  | .ended hook :: history => History.ended history ++ [hook]
  | _ :: history => History.ended history

/-- How often the peer was told by itself that the handshake is done. -/
def History.announcements : History π → Nat
  | [] => 0
  | .announced :: history => History.announcements history + 1
  | _ :: history => History.announcements history

/-- The hooks that start in a trail, in their order. -/
def Trail.begun (trail : Trail π) : List π :=
  trail.history.begun

private theorem History.begun_append (later earlier : History π) :
    History.begun (later ++ earlier) = earlier.begun ++ later.begun := by
  induction later with
  | nil => exact (List.append_nil _).symm
  | cons occurrence later ih =>
    cases occurrence with
    | began hook atOnce => rw [List.cons_append, begun, begun, ih, List.append_assoc]
    | _ => exact ih

theorem begun_extend (history : History π) (trail : Trail π) :
    (history.extend trail).begun = history.begun ++ trail.begun := by
  rw [History.extend, History.begun_append, Trail.begun, Trail.history, History.extend,
    List.append_nil]

/-! ## The invariant -/

/-- Where every registered hook is: it started, is due in the batch, or waits in the client. Hooks
that were dropped with a closed client come after all of these. -/
structure Ordered (history : History π) (client : Client π) : Prop where
  kept : client.phase ≠ .closed →
    history.registered = history.begun ++ history.frame.due ++ client.hooks
  order : history.begun ++ history.frame.due <+: history.registered
  draining : history.frame.due ≠ [] → history.frame.mode.settled = true
  initialized : client.phase = .initialized →
    history.frame.due = [] ∧ history.settlements ≠ []
  settled : history.frame.mode.settled = true → history.settlements ≠ []
  began : history.begun ≠ [] → history.settlements ≠ []
  finished : (history.ended ++ history.frame.active).Perm history.begun
  announced : history.announcements ≤ history.settlements.length
  announces : ∀ id, history.head? = some (.settled id) →
    history.announcements < history.settlements.length

/-- What holds of every occurrence of a run. -/
structure Orderly (history : History π) (before : Client π) (occurrence : Occurrence π)
    (after : Client π) : Prop where
  order : History.begun (occurrence :: history) <+: History.registered (occurrence :: history)
  starts : ∀ hook atOnce, occurrence = .began hook atOnce →
    history.settlements ≠ [] ∧ (before.phase = .initialized ∨
      ∃ id value waited, history.frame.mode = .answering id (.ok value) waited true)
  settles : ∀ id, occurrence = .settled id → before.handshake? = some id ∧
    ∃ value waited, history.head? = some (.arrived id (.ok value) waited)
  announces : occurrence = .announced → ∃ id, history.head? = some (.settled id)
  hands : ∀ id outcome, occurrence = .delivered id outcome →
    history.frame.due = [] ∧ history.frame.active = []
  handed : after.delivered = before.delivered ∨
    ∃ id outcome, occurrence = .delivered id outcome ∧
      after.delivered = (id, outcome) :: before.delivered

variable {history : History π} {client after : Client π}

theorem ordered_create (config : Config) (link : Link) :
    Ordered [] (Client.create config link : Client π) := by
  constructor
  case kept => exact fun _ => rfl
  case order => exact List.prefix_refl []
  case draining => exact fun some => absurd rfl some
  case initialized =>
    intro initialized
    cases initialized
  case settled =>
    intro settled
    cases settled
  case began => exact fun some => absurd rfl some
  case finished => exact .nil
  case announced => exact Nat.le_refl 0
  case announces =>
    intro id last
    cases last

/-- The occurrences that neither start a hook nor are part of a success of the handshake. -/
def Occurrence.minor : Occurrence π → Bool
  | .began _ _ | .settled _ | .announced | .delivered _ _ => false
  | _ => true

theorem Orderly.of_minor {occurrence : Occurrence π} (minor : occurrence.minor = true)
    (order : History.begun (occurrence :: history) <+: History.registered (occurrence :: history))
    (delivered : after.delivered = client.delivered) :
    Orderly history client occurrence after := by
  constructor
  case order => exact order
  case starts =>
    rintro hook atOnce rfl
    cases minor
  case settles =>
    rintro id rfl
    cases minor
  case announces =>
    rintro rfl
    cases minor
  case hands =>
    rintro id outcome rfl
    cases minor
  case handed => exact .inl delivered

theorem Orderly.of_began {hook : π} {atOnce : Bool}
    (order : History.begun (.began hook atOnce :: history) <+:
      History.registered (.began hook atOnce :: history))
    (some : history.settlements ≠ []) (time : client.phase = .initialized ∨
      ∃ id value waited, history.frame.mode = .answering id (.ok value) waited true) :
    Orderly history client (.began hook atOnce) client := by
  constructor
  case order => exact order
  case starts => exact fun _ _ _ => ⟨some, time⟩
  case settles =>
    intro id same
    cases same
  case announces =>
    intro same
    cases same
  case hands =>
    intro id outcome same
    cases same
  case handed => exact .inl rfl

theorem Orderly.of_settled {id : Id}
    (order : History.begun (.settled id :: history) <+:
      History.registered (.settled id :: history))
    (outstanding : client.handshake? = some id)
    (success : ∃ value waited, history.head? = some (.arrived id (.ok value) waited)) :
    Orderly history client (.settled id) { client with handshake? := none } := by
  constructor
  case order => exact order
  case starts =>
    intro hook atOnce same
    cases same
  case settles =>
    intro other same
    cases same
    exact ⟨outstanding, success⟩
  case announces =>
    intro same
    cases same
  case hands =>
    intro other outcome same
    cases same
  case handed => exact .inl rfl

theorem Orderly.of_announced
    (order : History.begun (.announced :: history) <+: History.registered (.announced :: history))
    (last : ∃ id, history.head? = some (.settled id))
    (delivered : after.delivered = client.delivered) :
    Orderly history client .announced after := by
  constructor
  case order => exact order
  case starts =>
    intro hook atOnce same
    cases same
  case settles =>
    intro id same
    cases same
  case announces => exact fun _ => last
  case hands =>
    intro id outcome same
    cases same
  case handed => exact .inl delivered

theorem Orderly.of_delivered {id : Id} {outcome : Outcome}
    (order : History.begun (.delivered id outcome :: history) <+:
      History.registered (.delivered id outcome :: history))
    (free : history.frame.due = []) (idle : history.frame.active = [])
    (delivers : after.delivered = (id, outcome) :: client.delivered) :
    Orderly history client (.delivered id outcome) after := by
  constructor
  case order => exact order
  case starts =>
    intro hook atOnce same
    cases same
  case settles =>
    intro other same
    cases same
  case announces =>
    intro same
    cases same
  case hands => exact fun _ _ _ => ⟨free, idle⟩
  case handed => exact .inr ⟨id, outcome, rfl, delivers⟩

def Occurrence.aside : Occurrence π → Bool
  | .attempted _ | .issued _ _ | .withdrawn _ _ | .refused _ | .held _ | .released _ | .notified _
  | .closed | .abandoned _ | .replied _ _ | .awaited _ | .expired _ _ | .resolved _ _ | .forgotten _
  | .quiet => true
  | _ => false

/-- What an occurrence that has nothing to do with hooks leaves of a history. -/
structure Aside (occurrence : Occurrence π) (history : History π) : Prop where
  mode : (history.frame.next occurrence).mode = history.frame.mode
  due : (history.frame.next occurrence).due = history.frame.due
  active : (history.frame.next occurrence).active = history.frame.active
  registered : History.registered (occurrence :: history) = history.registered
  begun : History.begun (occurrence :: history) = history.begun
  ended : History.ended (occurrence :: history) = history.ended
  announcements : History.announcements (occurrence :: history) = history.announcements
  settlements : History.settlements (occurrence :: history) = history.settlements
  minor : occurrence.minor = true

theorem Occurrence.aside_spec {occurrence : Occurrence π} (aside : occurrence.aside = true)
    (history : History π) : Aside occurrence history := by
  cases occurrence with
  | attempted | issued | withdrawn | refused | held | released | notified | closed | abandoned
  | replied | awaited | expired | resolved | forgotten | quiet =>
    exact ⟨rfl, rfl, rfl, rfl, rfl, rfl, rfl, rfl, rfl⟩
  | _ => cases aside

/-- A client whose hooks still wait, unless it was closed. -/
structure Patient (client after : Client π) : Prop where
  hooks : after.phase ≠ .closed → after.hooks = client.hooks := by exact fun _ => rfl
  closed : client.phase = .closed → after.phase = .closed := by exact fun same => same
  initialized : after.phase = .initialized → client.phase = .initialized := by
    exact fun same => same
  delivered : after.delivered = client.delivered := by rfl

private theorem Ordered.beside (ordered : Ordered history client) {occurrence : Occurrence π}
    (aside : occurrence.aside = true) (patient : Patient client after) :
    Ordered (occurrence :: history) after := by
  have same := Occurrence.aside_spec aside history
  constructor
  case kept =>
    rw [same.registered, same.begun, History.frame_cons, same.due]
    intro live
    rw [patient.hooks live]
    apply ordered.kept
    intro closed
    exact live (patient.closed closed)
  case order =>
    rw [same.registered, same.begun, History.frame_cons, same.due]
    exact ordered.order
  case draining =>
    rw [History.frame_cons, same.due, same.mode]
    exact ordered.draining
  case initialized =>
    rw [History.frame_cons, same.due, same.settlements]
    intro initialized
    exact ordered.initialized (patient.initialized initialized)
  case settled =>
    rw [History.frame_cons, same.mode, same.settlements]
    exact ordered.settled
  case began =>
    rw [same.begun, same.settlements]
    exact ordered.began
  case finished =>
    rw [same.ended, History.frame_cons, same.active, same.begun]
    exact ordered.finished
  case announced =>
    rw [same.announcements, same.settlements]
    exact ordered.announced
  case announces =>
    intro id head
    obtain rfl := Option.some.inj head
    cases same.minor

private theorem Ordered.orderly_beside (ordered : Ordered history client)
    {occurrence : Occurrence π}
    (aside : occurrence.aside = true) (patient : Patient client after) :
    Orderly history client occurrence after := by
  have same := Occurrence.aside_spec aside history
  apply Orderly.of_minor same.minor _ patient.delivered
  rw [same.begun, same.registered]
  exact (List.prefix_append _ _).trans ordered.order

theorem Ordered.along_beside (ordered : Ordered history client) {occurrence : Occurrence π}
    (aside : occurrence.aside = true) (patient : Patient client after) :
    Trail.Along Orderly history client [(occurrence, after)] ∧
      Ordered (history.extend [(occurrence, after)]) after := by
  have orderly := ordered.orderly_beside aside patient
  exact ⟨⟨orderly, trivial⟩, ordered.beside aside patient⟩

theorem Ordered.along_beside_cons (ordered : Ordered history client) {middle : Client π}
    {first second : Occurrence π} (asideFirst : first.aside = true)
    (asideSecond : second.aside = true) (patientFirst : Patient client middle)
    (patientSecond : Patient middle after) :
    Trail.Along Orderly history client [(first, middle), (second, after)] ∧
      Ordered (history.extend [(first, middle), (second, after)]) after := by
  have orderlyFirst := ordered.orderly_beside asideFirst patientFirst
  have between := ordered.beside asideFirst patientFirst
  have orderlySecond := between.orderly_beside asideSecond patientSecond
  exact ⟨⟨orderlyFirst, orderlySecond, trivial⟩, between.beside asideSecond patientSecond⟩

/-! ## The steps of hooks -/

theorem Ordered.queue (ordered : Ordered history client) (hook : π)
    (live : client.phase ≠ .closed) :
    Ordered (.registered hook :: history) (client.queueing hook) := by
  constructor
  case kept =>
    intro _
    rw [History.registered, ordered.kept live, List.append_assoc]
    rfl
  case order => exact ordered.order.trans (List.prefix_append _ _)
  case draining => exact ordered.draining
  case initialized => exact ordered.initialized
  case settled => exact ordered.settled
  case began => exact ordered.began
  case finished => exact ordered.finished
  case announced => exact ordered.announced
  case announces =>
    intro id last
    cases last

theorem Ordered.drop (ordered : Ordered history client) (hook : π)
    (closed : client.phase = .closed) : Ordered (.registered hook :: history) client := by
  constructor
  case kept => exact fun live => absurd closed live
  case order => exact ordered.order.trans (List.prefix_append _ _)
  case draining => exact ordered.draining
  case initialized => exact ordered.initialized
  case settled => exact ordered.settled
  case began => exact ordered.began
  case finished => exact ordered.finished
  case announced => exact ordered.announced
  case announces =>
    intro id last
    cases last

/-- The hook that starts is the newest active one. -/
theorem Ordered.finished_began (ordered : Ordered history client) (hook : π) :
    (history.ended ++ hook :: history.frame.active).Perm (history.begun ++ [hook]) := by
  have first : (history.ended ++ hook :: history.frame.active).Perm
      (hook :: (history.ended ++ history.frame.active)) := List.perm_middle
  have last : (hook :: history.begun).Perm (history.begun ++ [hook]) :=
    (List.perm_append_singleton hook history.begun).symm
  exact first.trans ((ordered.finished.cons hook).trans last)

/-- A hook that is registered after the handshake starts where it is registered: none is due and
none waits. -/
theorem Ordered.start (ordered : Ordered history client) (hook : π)
    (late : client.phase = .initialized) (none : client.hooks = []) :
    Ordered (.began hook true :: .registered hook :: history) client := by
  obtain ⟨free, some⟩ := ordered.initialized late
  have live : client.phase ≠ .closed := by
    rw [late]
    intro closed
    cases closed
  have all : history.registered = history.begun := by
    rw [ordered.kept live, free, none, List.append_nil, List.append_nil]
  have same : history.begun ++ [hook] ++ history.frame.due = history.registered ++ [hook] := by
    rw [all, free, List.append_nil]
  constructor
  case kept =>
    intro _
    rw [none, List.append_nil]
    exact same.symm
  case order => exact ⟨[], (List.append_nil _).trans same⟩
  case draining => exact ordered.draining
  case initialized => exact ordered.initialized
  case settled => exact ordered.settled
  case began => exact fun _ => some
  case finished => exact ordered.finished_began hook
  case announced => exact ordered.announced
  case announces =>
    intro id last
    cases last

theorem Ordered.begin (ordered : Ordered history client) {hook : π} {rest : List π}
    (next : history.frame.due = hook :: rest) : Ordered (.began hook false :: history) client := by
  have some : history.frame.due ≠ [] := by
    rw [next]
    exact List.cons_ne_nil hook rest
  have draining : history.frame.mode.settled = true := ordered.draining some
  have due : (History.frame (.began hook false :: history)).due = rest := by
    rw [History.frame_cons, Frame.next, next]
    rfl
  have same : History.begun (.began hook false :: history) ++ rest =
      history.begun ++ history.frame.due := by
    rw [History.begun, next, List.append_assoc]
    rfl
  constructor
  case kept =>
    rw [due, same]
    exact ordered.kept
  case order =>
    rw [due, same]
    exact ordered.order
  case draining => exact fun _ => draining
  case initialized =>
    intro initialized
    exact absurd (ordered.initialized initialized).1 some
  case settled => exact ordered.settled
  case began => exact fun _ => ordered.settled draining
  case finished => exact ordered.finished_began hook
  case announced => exact ordered.announced
  case announces =>
    intro id last
    cases last

theorem Ordered.finish (ordered : Ordered history client) {hook : π} {outer : List π}
    (innermost : history.frame.active = hook :: outer) :
    Ordered (.ended hook :: history) client := by
  have active : (History.frame (.ended hook :: history)).active = outer := by
    rw [History.frame_cons, Frame.next, innermost]
    rfl
  constructor
  case kept => exact ordered.kept
  case order => exact ordered.order
  case draining => exact ordered.draining
  case initialized => exact ordered.initialized
  case settled => exact ordered.settled
  case began => exact ordered.began
  case finished =>
    have finished := ordered.finished
    rw [innermost] at finished
    rw [active, History.ended, List.append_assoc]
    exact finished
  case announced => exact ordered.announced
  case announces =>
    intro id last
    cases last

/-! ## The steps of the handshake -/

private theorem Mode.settled_settle {mode : Mode} (settled : mode.settled = true) :
    mode.settle.settled = true := by
  cases mode with
  | resting => cases settled
  | answering => rfl

theorem Ordered.settle (ordered : Ordered history client) (id : Id) :
    Ordered (.settled id :: history) { client with handshake? := none } := by
  have some : History.settlements (.settled id :: history) ≠ [] :=
    List.cons_ne_nil id history.settlements
  constructor
  case kept => exact ordered.kept
  case order => exact ordered.order
  case draining => exact fun due => Mode.settled_settle (ordered.draining due)
  case initialized =>
    intro initialized
    obtain ⟨free, -⟩ := ordered.initialized initialized
    exact ⟨free, some⟩
  case settled => exact fun _ => some
  case began => exact fun _ => some
  case finished => exact ordered.finished
  case announced => exact Nat.le_succ_of_le ordered.announced
  case announces => exact fun _ _ => Nat.lt_succ_of_le ordered.announced

theorem Ordered.announce (ordered : Ordered history client) {id : Id} (message : Message)
    (last : history.head? = some (.settled id)) :
    Ordered (.announced :: history) (client.enqueued message) := by
  constructor
  case kept => exact ordered.kept
  case order => exact ordered.order
  case draining => exact ordered.draining
  case initialized => exact ordered.initialized
  case settled => exact ordered.settled
  case began => exact ordered.began
  case finished => exact ordered.finished
  case announced => exact ordered.announces id last
  case announces =>
    intro other last
    cases last

theorem Ordered.gather (ordered : Ordered history client)
    (draining : history.frame.mode.settled = true) (free : history.frame.due = [])
    (open? : client.phase ≠ .initialized) (live : client.phase ≠ .closed) :
    Ordered (.gathered client.hooks :: history) { client with hooks := [] } := by
  have all := ordered.kept live
  rw [free, List.append_nil] at all
  constructor
  case kept =>
    intro _
    rw [List.append_nil]
    exact all
  case order => exact ⟨[], (List.append_nil _).trans all.symm⟩
  case draining => exact fun _ => draining
  case initialized => exact fun initialized => absurd initialized open?
  case settled => exact ordered.settled
  case began => exact ordered.began
  case finished => exact ordered.finished
  case announced => exact ordered.announced
  case announces =>
    intro id last
    cases last

theorem Ordered.open (ordered : Ordered history client)
    (draining : history.frame.mode.settled = true) (free : history.frame.due = [])
    (open? : client.phase = .awaiting) :
    Ordered (.opened :: history) { client with phase := .initialized } := by
  constructor
  case kept =>
    intro _
    apply ordered.kept
    rw [open?]
    intro closed
    cases closed
  case order => exact ordered.order
  case draining => exact ordered.draining
  case initialized => exact fun _ => ⟨free, ordered.settled draining⟩
  case settled => exact ordered.settled
  case began => exact ordered.began
  case finished => exact ordered.finished
  case announced => exact ordered.announced
  case announces =>
    intro id last
    cases last

theorem Ordered.arrive (ordered : Ordered history client) (id : Id) (outcome : Outcome)
    (waited : Bool) (rest : history.frame.mode = .resting) :
    Ordered (.arrived id outcome waited :: history) (client.leaving id) := by
  constructor
  case kept => exact ordered.kept
  case order => exact ordered.order
  case draining =>
    intro some
    have settled := ordered.draining some
    rw [rest] at settled
    cases settled
  case initialized => exact ordered.initialized
  case settled =>
    intro settled
    cases settled
  case began => exact ordered.began
  case finished => exact ordered.finished
  case announced => exact ordered.announced
  case announces =>
    intro other last
    cases last

/-- The end of acting on a response, when no hook is due. -/
theorem Ordered.rest (ordered : Ordered history client) {id : Id} {occurrence : Occurrence π}
    (free : history.frame.due = [])
    (last : (∃ outcome, occurrence = .delivered id outcome) ∨ occurrence = .orphaned id)
    (phase : after.phase = client.phase) (hooks : after.hooks = client.hooks) :
    Ordered (occurrence :: history) after := by
  rcases last with ⟨outcome, rfl⟩ | rfl
  all_goals
    constructor
    case kept =>
      rw [phase, hooks]
      exact ordered.kept
    case order => exact ordered.order
    case draining => exact fun some => absurd free some
    case initialized =>
      rw [phase]
      exact ordered.initialized
    case settled =>
      intro settled
      cases settled
    case began => exact ordered.began
    case finished => exact ordered.finished
    case announced => exact ordered.announced
    case announces =>
      intro other last
      cases last

end Airlock.Client
