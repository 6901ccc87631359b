import Airlock.Proofs.Client.Invariant
import Airlock.Proofs.Client.Verdict

/-!
# Requests tracked through a history

The table of requests in flight and the outcomes that were handed over are determined by the
verdicts of the history. So is what a poll of an awaited handle finds.
-/

set_option autoImplicit false

namespace Airlock.Client

/-! ## The invariant -/

/-- The identifiers of which handles are held, awaited or resolved. -/
def handled (history : History) (client : Client) : List Id :=
  client.handles ++ (history.frame.waiting ++ history.resolutions)

/-- The requests in flight are, in order, those that are undecided, and what was handed over for a
request is what decided it. -/
structure Reflects (history : History) (client : Client) : Prop where
  pending : ∀ id, id ∈ client.pending.ids ↔ history.verdict id = .undecided
  sorted : client.pending.ids.Pairwise fun first second => first.precedes second
  delivered : ∀ id outcome, client.delivered.lookup id = some outcome →
    history.verdict id = .decided (result outcome)

/-- How a client obeys the verdicts of its history, apart from what is still to be found out
about requests that are decided. -/
structure Obeys (history : History) (client : Client) : Prop extends Reflects history client where
  issued : ∀ id, history.verdict id ≠ .unissued → ∃ count, count ≤ history.calls ∧ id = .nth count
  answering : ∀ id outcome settled, history.frame.mode = .answering id outcome true settled →
    history.verdict id = .decided (result outcome)
  once : (handled history client).Nodup
  known : ∀ id ∈ handled history client, history.verdict id ≠ .unissued
  fresh : ∀ id call, history.head? = some (.issued id call) → id ∉ handled history client

/-- A request is decided without an outcome that was handed over: the client was closed, its handle
has resolved already, or the outcome is just being acted on. -/
def Explained (history : History) (id : Id) (found : Except Error Value) : Prop :=
  found = .error .closed ∨ id ∈ history.resolutions ∨
    ∃ outcome settled, history.frame.mode = .answering id outcome true settled

/-- How a client obeys the verdicts of its history. -/
structure Tracked (history : History) (client : Client) : Prop extends Obeys history client where
  missing : ∀ id found, history.verdict id = .decided found → client.delivered.lookup id = none →
    Explained history id found

variable {history : History} {client after : Client}

theorem tracked_create (config : Config) (link : Link) :
    Tracked [] (Client.create config link) := by
  refine ⟨⟨⟨?pending, .nil, ?delivered⟩, ?issued, ?answering, .nil, ?known, ?fresh⟩, ?missing⟩
  case pending =>
    intro id
    constructor
    · intro member
      cases member
    · intro undecided
      cases undecided
  case delivered =>
    intro id outcome found
    cases found
  case issued => exact fun id issued => absurd rfl issued
  case answering =>
    intro id outcome settled mode
    cases mode
  case known =>
    intro id member
    cases member
  case fresh =>
    intro id call last
    cases last
  case missing =>
    intro id found decided
    cases decided

private theorem Reflects.same (reflects : Reflects history client) {occurrence : Occurrence}
    (idle : occurrence.rules = false) (pending : after.pending.ids = client.pending.ids)
    (delivered : after.delivered = client.delivered) :
    Reflects (occurrence :: history) after := by
  constructor
  case pending =>
    intro id
    rw [pending, History.verdict_cons, Verdict.next_idle idle]
    exact reflects.pending id
  case sorted =>
    rw [pending]
    exact reflects.sorted
  case delivered =>
    intro id outcome
    rw [delivered, History.verdict_cons, Verdict.next_idle idle]
    exact reflects.delivered id outcome

/-- An occurrence that decides nothing, and at most moves handles. -/
theorem Obeys.moved (obeys : Obeys history client) {occurrence : Occurrence}
    (idle : occurrence.rules = false)
    (mode : ∀ id outcome settled,
      (history.frame.next occurrence).mode = .answering id outcome true settled →
      ∃ before, history.frame.mode = .answering id outcome true before)
    (pending : after.pending.ids = client.pending.ids)
    (delivered : after.delivered = client.delivered)
    (once : (handled (occurrence :: history) after).Nodup)
    (known : ∀ id ∈ handled (occurrence :: history) after, history.verdict id ≠ .unissued) :
    Obeys (occurrence :: history) after := by
  have same (id : Id) : History.verdict id (occurrence :: history) = history.verdict id :=
    Verdict.next_idle idle _
  constructor
  case toReflects => exact obeys.toReflects.same idle pending delivered
  case issued =>
    intro id issued
    rw [same] at issued
    obtain ⟨count, small, nth⟩ := obeys.issued id issued
    exact ⟨count, Nat.le_trans small (Nat.le_add_right _ _), nth⟩
  case answering =>
    intro id outcome settled answering
    rw [same]
    obtain ⟨before, here⟩ := mode id outcome settled answering
    exact obeys.answering id outcome before here
  case once => exact once
  case known =>
    intro id member
    rw [same]
    exact known id member
  case fresh =>
    intro id call head
    obtain rfl := Option.some.inj head
    cases idle

theorem Tracked.moved (tracked : Tracked history client) {occurrence : Occurrence}
    (idle : occurrence.rules = false)
    (mode : ∀ id outcome, (∃ settled,
        (history.frame.next occurrence).mode = .answering id outcome true settled) ↔
      ∃ settled, history.frame.mode = .answering id outcome true settled)
    (pending : after.pending.ids = client.pending.ids)
    (delivered : after.delivered = client.delivered)
    (resolutions : ∀ id ∈ history.resolutions, id ∈ History.resolutions (occurrence :: history))
    (once : (handled (occurrence :: history) after).Nodup)
    (known : ∀ id ∈ handled (occurrence :: history) after, history.verdict id ≠ .unissued) :
    Tracked (occurrence :: history) after := by
  have answering (id : Id) (outcome : Outcome) (settled : Bool)
      (here : (history.frame.next occurrence).mode = .answering id outcome true settled) :
      ∃ before, history.frame.mode = .answering id outcome true before :=
    (mode id outcome).mp ⟨settled, here⟩
  constructor
  case toObeys => exact tracked.toObeys.moved idle answering pending delivered once known
  case missing =>
    intro id found decided none
    rw [History.verdict_cons, Verdict.next_idle idle] at decided
    rw [delivered] at none
    rcases tracked.missing id found decided none with closed | resolved | ⟨outcome, answering⟩
    · exact .inl closed
    · exact .inr (.inl (resolutions id resolved))
    · exact .inr (.inr ⟨outcome, (mode id outcome).mpr answering⟩)

private theorem Mode.settle_iff (mode : Mode) (id : Id) (outcome : Outcome) :
    (∃ settled, mode.settle = .answering id outcome true settled) ↔
      ∃ settled, mode = .answering id outcome true settled := by
  cases mode with
  | resting =>
    constructor <;> rintro ⟨_, same⟩ <;> cases same
  | answering other answer waited settled =>
    constructor
    · rintro ⟨_, same⟩
      cases same
      exact ⟨settled, rfl⟩
    · rintro ⟨_, same⟩
      cases same
      exact ⟨true, rfl⟩

def Occurrence.resolves : Occurrence → Bool
  | .resolved _ _ => true
  | _ => false

/-- The occurrences that neither decide anything nor move handles nor hand anything over. -/
def Occurrence.still : Occurrence → Bool
  | .attempted _ | .withdrawn _ _ | .refused _ | .notified _ | .registered _ | .began _ _ | .ended _
  | .settled _ | .announced | .abandoned _ | .gathered _ | .opened | .replied _ _ | .quiet => true
  | _ => false

theorem Occurrence.still_spec {occurrence : Occurrence} (still : occurrence.still = true)
    (history : History) :
    occurrence.rules = false ∧
      (∀ id outcome, (∃ settled,
          (history.frame.next occurrence).mode = .answering id outcome true settled) ↔
        ∃ settled, history.frame.mode = .answering id outcome true settled) ∧
      (history.frame.next occurrence).waiting = history.frame.waiting ∧
      History.resolutions (occurrence :: history) = history.resolutions ∧
      occurrence.resolves = false := by
  cases occurrence with
  | settled => exact ⟨rfl, Mode.settle_iff _, rfl, rfl, rfl⟩
  | began hook atOnce => cases atOnce <;> exact ⟨rfl, fun _ _ => Iff.rfl, rfl, rfl, rfl⟩
  | attempted | withdrawn | refused | notified | registered | ended | announced | abandoned
  | gathered | opened | replied | quiet => exact ⟨rfl, fun _ _ => Iff.rfl, rfl, rfl, rfl⟩
  | _ => cases still

/-- Two clients with the same requests in flight, handles and outcomes. -/
structure Steady (client after : Client) : Prop where
  pending : after.pending.ids = client.pending.ids := by rfl
  delivered : after.delivered = client.delivered := by rfl
  handles : after.handles = client.handles := by rfl

theorem Tracked.same (tracked : Tracked history client) {occurrence : Occurrence}
    (still : occurrence.still = true) (steady : Steady client after) :
    Tracked (occurrence :: history) after := by
  obtain ⟨idle, mode, waiting, resolutions, -⟩ := Occurrence.still_spec still history
  have handled : handled (occurrence :: history) after = handled history client := by
    rw [Client.handled, Client.handled, History.frame_cons, waiting, resolutions, steady.handles]
  apply tracked.moved idle mode steady.pending steady.delivered
  · intro id member
    rw [resolutions]
    exact member
  · rw [handled]
    exact tracked.once
  · rw [handled]
    exact tracked.known

/-- An occurrence that issues nothing, takes decided requests out of the table, and moves no
handles. -/
theorem Obeys.decides (obeys : Obeys history client) {occurrence : Occurrence}
    (issues : ∀ id call, occurrence ≠ .issued id call)
    (pending : ∀ id, id ∈ after.pending.ids ↔
      History.verdict id (occurrence :: history) = .undecided)
    (sublist : after.pending.ids.Sublist client.pending.ids)
    (answering : ∀ id outcome settled,
      (history.frame.next occurrence).mode = .answering id outcome true settled →
      History.verdict id (occurrence :: history) = .decided (result outcome))
    (waiting : (history.frame.next occurrence).waiting = history.frame.waiting)
    (resolutions : History.resolutions (occurrence :: history) = history.resolutions)
    (delivered : after.delivered = client.delivered) (handles : after.handles = client.handles) :
    Obeys (occurrence :: history) after := by
  have handled : handled (occurrence :: history) after = handled history client := by
    rw [Client.handled, Client.handled, History.frame_cons, waiting, resolutions, handles]
  constructor
  case toReflects =>
    refine ⟨pending, obeys.sorted.sublist sublist, ?_⟩
    intro id outcome found
    rw [delivered] at found
    rw [History.verdict_cons, obeys.delivered id outcome found]
    rfl
  case issued =>
    intro id issued
    have before : history.verdict id ≠ .unissued := by
      intro unissued
      rcases Verdict.next_cases id (history.verdict id) occurrence with
        same | ⟨-, call, here⟩ | ⟨undecided, -⟩
      · exact issued (same.trans unissued)
      · exact issues id call here
      · rw [unissued] at undecided
        cases undecided
    obtain ⟨count, small, nth⟩ := obeys.issued id before
    exact ⟨count, Nat.le_trans small (Nat.le_add_right _ _), nth⟩
  case answering => exact answering
  case once =>
    rw [handled]
    exact obeys.once
  case known =>
    rw [handled]
    intro id member
    exact Verdict.next_issued (obeys.known id member) occurrence
  case fresh =>
    intro id call head
    exact absurd (Option.some.inj head) (issues id call)

/-! ## Requests -/

/-- The request with the highest number so far is issued. -/
theorem Tracked.issue (tracked : Tracked history client) (count : Nat) {call : Call}
    (highest : ∀ id, history.verdict id ≠ .unissued →
      ∃ earlier, earlier < count ∧ id = .nth earlier)
    (small : count < 0x8000000000000000)
    (counted : count ≤ History.calls (.issued (.nth count) call :: history))
    (pending : after.pending.ids = (Id.nth count).insertOrdered client.pending.ids)
    (delivered : after.delivered = client.delivered) (handles : after.handles = client.handles) :
    Tracked (.issued (.nth count) call :: history) after := by
  have unissued : history.verdict (.nth count) = .unissued := by
    by_cases unissued : history.verdict (.nth count) = .unissued
    · exact unissued
    · obtain ⟨earlier, below, same⟩ := highest (.nth count) unissued
      have equal := (Id.nth_inj small (by omega)).mp same
      omega
  have here : History.verdict (.nth count) (.issued (.nth count) call :: history) = .undecided := by
    rw [History.verdict_cons, unissued]
    exact if_pos rfl
  have there {id : Id} (different : id ≠ .nth count) :
      History.verdict id (.issued (.nth count) call :: history) = history.verdict id :=
    Verdict.next_other different rfl _
  have keeps {id : Id} {found : Except Error Value}
      (decided : history.verdict id = .decided found) :
      History.verdict id (.issued (.nth count) call :: history) = .decided found := by
    rw [History.verdict_cons, decided]
    rfl
  -- Whatever is in flight has a lower number, so the new request goes to the end of the table.
  have before : ∀ id ∈ client.pending.ids,
      id ≠ .nth count ∧ (Id.nth count).precedes id = false ∧ id.precedes (.nth count) := by
    intro id member
    have flight : history.verdict id ≠ .unissued := by
      rw [(tracked.pending id).mp member]
      intro unissued
      cases unissued
    obtain ⟨earlier, below, rfl⟩ := highest id flight
    have smaller : earlier < 0x8000000000000000 := by omega
    refine ⟨?_, ?_, (Id.nth_precedes smaller small).mpr below⟩
    · intro same
      have equal := (Id.nth_inj smaller small).mp same
      omega
    · rw [Bool.eq_false_iff]
      intro precedes
      have above := (Id.nth_precedes small smaller).mp precedes
      omega
  have last : after.pending.ids = client.pending.ids ++ [.nth count] := by
    rw [pending]
    apply Id.insertOrdered_last
    intro id member
    obtain ⟨different, later, -⟩ := before id member
    exact ⟨different, later⟩
  have handled : handled (.issued (.nth count) call :: history) after = handled history client := by
    rw [Client.handled, Client.handled, handles]
    rfl
  refine ⟨⟨⟨?pending, ?sorted, ?delivered⟩, ?issued, ?answering, ?once, ?known, ?fresh⟩, ?missing⟩
  case pending =>
    intro id
    rw [pending, Id.mem_insertOrdered]
    by_cases same : id = .nth count
    · rw [same, here]
      exact ⟨fun _ => rfl, fun _ => .inl rfl⟩
    · rw [there same, ← tracked.pending]
      exact ⟨fun member => member.resolve_left same, .inr⟩
  case sorted =>
    rw [last]
    refine List.pairwise_append.mpr ⟨tracked.sorted, List.pairwise_singleton _ _, ?_⟩
    intro id member other single
    rw [List.mem_singleton.mp single]
    exact (before id member).2.2
  case delivered =>
    intro id outcome found
    rw [delivered] at found
    exact keeps (tracked.delivered id outcome found)
  case issued =>
    intro id issued
    by_cases same : id = .nth count
    · exact ⟨count, counted, same⟩
    · rw [there same] at issued
      obtain ⟨earlier, below, nth⟩ := highest id issued
      exact ⟨earlier, by omega, nth⟩
  case answering =>
    intro id outcome settled answering
    exact keeps (tracked.answering id outcome settled answering)
  case once =>
    rw [handled]
    exact tracked.once
  case known =>
    rw [handled]
    intro id member
    exact Verdict.next_issued (tracked.known id member) _
  case fresh =>
    rw [handled]
    intro id other head member
    cases Option.some.inj head
    exact tracked.known _ member unissued
  case missing =>
    intro id found decided none
    rw [delivered] at none
    by_cases same : id = .nth count
    · rw [same, here] at decided
      cases decided
    · rw [there same] at decided
      exact tracked.missing id found decided none

/-! ## Decisions -/

theorem Tracked.close (tracked : Tracked history client) (pending : after.pending.ids = [])
    (delivered : after.delivered = client.delivered) (handles : after.handles = client.handles) :
    Tracked (.closed :: history) after := by
  constructor
  case toObeys =>
    refine tracked.toObeys.decides nofun ?pending ?sublist ?answering rfl rfl delivered handles
    case pending =>
      intro id
      rw [pending, History.verdict_cons]
      constructor
      · intro member
        cases member
      · intro undecided
        cases verdict : history.verdict id <;> rw [verdict] at undecided <;> cases undecided
    case sublist =>
      rw [pending]
      exact List.nil_sublist _
    case answering =>
      intro id outcome settled answering
      rw [History.verdict_cons, tracked.answering id outcome settled answering]
      rfl
  case missing =>
    intro id found decided none
    rw [delivered] at none
    cases verdict : history.verdict id <;> rw [History.verdict_cons, verdict] at decided
    · cases decided
    · cases decided
      exact .inl rfl
    · cases decided
      exact tracked.missing id _ verdict none

private theorem Verdict.next_arrived_ne (id : Id) (outcome : Outcome) (waited : Bool)
    (verdict : Verdict) :
    verdict.next id (.arrived id outcome waited) ≠ .undecided := by
  intro undecided
  cases verdict with
  | undecided =>
    have decided : Verdict.undecided.next id (.arrived id outcome waited) =
      .decided (result outcome) := if_pos rfl
    rw [decided] at undecided
    cases undecided
  | _ => cases undecided

/-- A response decides the request that it names, if that was undecided. -/
theorem Tracked.arrive (tracked : Tracked history client) (rest : history.frame.mode = .resting)
    (id : Id) (outcome : Outcome) :
    Tracked (.arrived id outcome (client.pending.contains id) :: history) (client.leaving id) := by
  have there {other : Id} (different : other ≠ id) :
      History.verdict other (.arrived id outcome (client.pending.contains id) :: history) =
        history.verdict other :=
    Verdict.next_other different rfl _
  constructor
  case toObeys =>
    refine tracked.toObeys.decides nofun ?pending List.filter_sublist ?answering rfl rfl rfl rfl
    case pending =>
      intro other
      rw [mem_leaving, tracked.pending]
      by_cases same : other = id
      · rw [same]
        exact ⟨fun both => absurd rfl both.2,
          fun undecided => absurd undecided (Verdict.next_arrived_ne id outcome _ _)⟩
      · rw [there same]
        exact ⟨fun both => both.1, fun undecided => ⟨undecided, same⟩⟩
    case answering =>
      intro other answer settled answering
      cases mode : client.pending.contains id <;> rw [mode] at answering <;> cases answering
      have undecided : history.verdict id = .undecided := by
        rw [← tracked.pending]
        exact of_decide_eq_true mode
      rw [History.verdict_cons, undecided]
      exact if_pos rfl
  case missing =>
    intro other found decided none
    rcases Verdict.next_cases other (history.verdict other)
      (.arrived id outcome (client.pending.contains id)) with
      same | ⟨-, call, impossible⟩ | ⟨undecided, -⟩
    · rw [History.verdict_cons, same] at decided
      rcases tracked.missing other found decided none with
        closed | resolved | ⟨answer, settled, mode⟩
      · exact .inl closed
      · exact .inr (.inl resolved)
      · rw [rest] at mode
        cases mode
    · cases impossible
    -- The request is decided just now: its outcome is the one being acted on.
    · refine .inr (.inr ⟨outcome, false, ?_⟩)
      by_cases same : other = id
      · subst same
        have waited : client.pending.contains other = true :=
          decide_eq_true ((tracked.pending other).mpr undecided)
        rw [waited]
        rfl
      · rw [there same, undecided] at decided
        cases decided

/-- What is decided of a request that has no outcome and is in flight no more. -/
theorem Tracked.result (tracked : Tracked history client) (rest : history.frame.mode = .resting)
    {id : Id} (known : history.verdict id ≠ .unissued) (fresh : id ∉ history.resolutions) :
    client.result? id =
      match history.verdict id with
      | .decided found => some found
      | _ => none := by
  unfold result?
  cases handed : client.delivered.lookup id with
  | some outcome =>
    rw [tracked.delivered id outcome handed]
    cases outcome <;> rfl
  | none =>
    cases verdict : history.verdict id with
    | unissued => exact absurd verdict known
    | undecided => exact if_pos (decide_eq_true ((tracked.pending id).mpr verdict))
    | decided found =>
      have gone : ¬client.pending.contains id = true := by
        intro member
        have undecided := (tracked.pending id).mp (of_decide_eq_true member)
        rw [verdict] at undecided
        cases undecided
      dsimp only
      rw [if_neg gone]
      rcases tracked.missing id found verdict handed with
        closed | resolved | ⟨outcome, settled, mode⟩
      · rw [closed]
      · exact absurd resolved fresh
      · rw [rest] at mode
        cases mode

/-- An awaited handle has not resolved, and its request was issued. -/
theorem Tracked.awaits (tracked : Tracked history client) {id : Id}
    (waits : id ∈ history.frame.waiting) :
    history.verdict id ≠ .unissued ∧ id ∉ history.resolutions := by
  constructor
  · apply tracked.known
    exact List.mem_append_right _ (List.mem_append_left _ waits)
  · intro resolved
    have once := tracked.once
    have moved := (List.nodup_append.mp once).2.1
    have disjoint := (List.nodup_append.mp moved).2.2
    exact disjoint id waits id resolved rfl

/-- The handle that resolved moves from the awaited ones to the resolved ones. -/
theorem nodup_resolve {handles waiting resolved : List Id} {id : Id}
    (once : (handles ++ (waiting ++ resolved)).Nodup) (waits : id ∈ waiting) :
    (handles ++ (waiting.filter (· ≠ id) ++ id :: resolved)).Nodup := by
  grind [List.nodup_append, List.nodup_cons]

private theorem mem_resolve {id other : Id} {found : Except Error Value}
    (waits : id ∈ history.frame.waiting)
    (member : other ∈ handled (.resolved id found :: history) client) :
    other ∈ handled history client := by
  simp only [handled, History.frame_cons, Frame.next, History.resolutions, List.mem_append,
    List.mem_filter, List.mem_cons] at member ⊢
  grind

private theorem nodup_await {handles waiting resolved : List Id} {id : Id}
    (once : (handles ++ (waiting ++ resolved)).Nodup) (held : id ∈ handles) :
    (handles.filter (· ≠ id) ++ (waiting ++ [id] ++ resolved)).Nodup := by
  grind [List.nodup_append, List.nodup_cons]

private theorem nodup_enter {handles waiting resolved : List Id} {id : Id}
    (once : (handles ++ (waiting ++ resolved)).Nodup)
    (fresh : id ∉ handles ++ (waiting ++ resolved)) :
    (handles ++ (waiting ++ [id] ++ resolved)).Nodup ∧
      ((handles ++ [id]) ++ (waiting ++ resolved)).Nodup := by
  constructor <;> grind [List.nodup_append, List.nodup_cons]

theorem Tracked.resolve (tracked : Tracked history client) {id : Id}
    (waits : id ∈ history.frame.waiting) (found : Except Error Value) :
    Tracked (.resolved id found :: history) client := by
  refine tracked.moved rfl (fun _ _ => Iff.rfl) rfl rfl ?resolutions
    (nodup_resolve tracked.once waits) ?known
  case resolutions =>
    intro other member
    exact List.mem_cons_of_mem id member
  case known =>
    intro other member
    exact tracked.known other (mem_resolve waits member)

/-- A poll after the time has run out decides the request and resolves its handle. -/
theorem Tracked.expire (tracked : Tracked history client) {id : Id} (timeout : Duration)
    (rest : history.frame.mode = .resting) (waits : id ∈ history.frame.waiting)
    (open? : client.result? id = none)
    (pending : ∀ other, other ∈ after.pending.ids ↔ other ∈ client.pending.ids ∧ other ≠ id)
    (sublist : after.pending.ids.Sublist client.pending.ids)
    (delivered : after.delivered = client.delivered) (handles : after.handles = client.handles) :
    History.verdict id (.expired id timeout :: history) = .decided (.error (.timeout id timeout)) ∧
      Reflects (.expired id timeout :: history) after ∧
      Tracked (.resolved id (.error (.timeout id timeout)) :: .expired id timeout :: history)
        after := by
  obtain ⟨known, unresolved⟩ := tracked.awaits waits
  have undecided : history.verdict id = .undecided := by
    have found := tracked.result rest known unresolved
    rw [open?] at found
    cases verdict : history.verdict id with
    | unissued => exact absurd verdict known
    | undecided => rfl
    | decided result =>
      rw [verdict] at found
      cases found
  have here : History.verdict id (.expired id timeout :: history) =
      .decided (.error (.timeout id timeout)) := by
    rw [History.verdict_cons, undecided]
    exact if_pos rfl
  have there {other : Id} (different : other ≠ id) :
      History.verdict other (.expired id timeout :: history) = history.verdict other :=
    Verdict.next_other different rfl _
  have expired : Obeys (.expired id timeout :: history) after := by
    refine tracked.toObeys.decides nofun ?pending sublist ?answering rfl rfl delivered handles
    case pending =>
      intro other
      rw [pending, tracked.pending]
      by_cases same : other = id
      · rw [same, here]
        constructor
        · exact fun both => absurd rfl both.2
        · intro undecided
          cases undecided
      · rw [there same]
        exact ⟨fun both => both.1, fun undecided => ⟨undecided, same⟩⟩
    case answering =>
      intro other outcome settled answering
      have resting : history.frame.mode = .answering other outcome true settled := answering
      rw [rest] at resting
      cases resting
  have resolved :
      Obeys (.resolved id (.error (.timeout id timeout)) :: .expired id timeout :: history)
        after := by
    refine expired.moved rfl ?mode rfl rfl (nodup_resolve expired.once waits) ?known
    case mode => exact fun other outcome settled mode => ⟨settled, mode⟩
    case known =>
      intro other member
      exact expired.known other (mem_resolve waits member)
  refine ⟨here, expired.toReflects, resolved, ?_⟩
  intro other found decided none
  by_cases same : other = id
  · right
    left
    rw [same]
    exact List.mem_cons_self
  · rw [History.verdict_cons, Verdict.next_idle rfl, there same] at decided
    rw [delivered] at none
    rcases tracked.missing other found decided none with closed | resolved | answering
    · exact .inl closed
    · exact .inr (.inl (List.mem_cons_of_mem id resolved))
    · exact .inr (.inr answering)

private theorem lookup_delivered_other {id other : Id} (different : other ≠ id) (outcome : Outcome)
    (earlier : List (Id × Outcome)) :
    ((id, outcome) :: earlier).lookup other = earlier.lookup other := by
  have apart : (other == id) = false := by simpa using different
  simp only [List.lookup_cons, apart]

/-- The outcome that was being acted on is handed over. -/
theorem Tracked.deliver (tracked : Tracked history client) {id : Id} {outcome : Outcome}
    {settled : Bool} (mode : history.frame.mode = .answering id outcome true settled) :
    Tracked (.delivered id outcome :: history)
      { client with delivered := (id, outcome) :: client.delivered } := by
  have same (other : Id) :
      History.verdict other (.delivered id outcome :: history) = history.verdict other :=
    Verdict.next_idle rfl _
  have decided := tracked.answering id outcome settled mode
  refine ⟨⟨⟨?pending, tracked.sorted, ?delivered⟩, ?issued, ?answering, tracked.once, ?known,
    ?fresh⟩, ?missing⟩
  case pending =>
    intro other
    rw [same]
    exact tracked.pending other
  case delivered =>
    intro other answer found
    rw [same]
    by_cases equal : other = id
    · subst equal
      rw [List.lookup_cons_self] at found
      cases found
      exact decided
    · rw [lookup_delivered_other equal] at found
      exact tracked.delivered other answer found
  case issued =>
    intro other issued
    rw [same] at issued
    exact tracked.issued other issued
  case answering =>
    intro other answer settled resting
    cases resting
  case known =>
    intro other member
    rw [same]
    exact tracked.known other member
  case fresh =>
    intro other call last
    cases last
  case missing =>
    intro other found verdict none
    rw [same] at verdict
    by_cases equal : other = id
    · subst equal
      rw [List.lookup_cons_self] at none
      cases none
    · rw [lookup_delivered_other equal] at none
      rcases tracked.missing other found verdict none with
        closed | resolved | ⟨answer, settles, here⟩
      · exact .inl closed
      · exact .inr (.inl resolved)
      · rw [mode] at here
        cases here
        exact absurd rfl equal

/-! ## Handles -/

/-- A handle is new when its request was just issued. -/
theorem Tracked.new (tracked : Tracked history client) {id : Id} {call : Call}
    (last : history.head? = some (.issued id call)) :
    id ∉ handled history client ∧ history.verdict id ≠ .unissued := by
  refine ⟨tracked.fresh id call last, ?_⟩
  cases history with
  | nil => cases last
  | cons occurrence earlier =>
    obtain rfl := Option.some.inj last
    rw [History.verdict_cons]
    intro unissued
    cases verdict : History.verdict id earlier with
    | unissued =>
      have issued : Verdict.unissued.next id (.issued id call) = .undecided := if_pos rfl
      rw [verdict, issued] at unissued
      cases unissued
    | _ =>
      rw [verdict] at unissued
      cases unissued

theorem Tracked.hold (tracked : Tracked history client) {id : Id} {call : Call}
    (last : history.head? = some (.issued id call)) :
    Tracked (.held id :: history) (client.hold id) := by
  obtain ⟨new, issued⟩ := tracked.new last
  refine tracked.moved rfl (fun _ _ => Iff.rfl) rfl rfl (fun _ member => member)
    (nodup_enter tracked.once new).2 ?_
  intro other member
  have entered : other ∈ handled history client ∨ other = id := by
    simp only [handled, Client.hold, History.frame_cons, Frame.next, History.resolutions,
      List.mem_append, List.mem_singleton] at member ⊢
    grind
  rcases entered with old | rfl
  · exact tracked.known other old
  · exact issued

theorem Tracked.awaitNew (tracked : Tracked history client) {id : Id} {call : Call}
    (last : history.head? = some (.issued id call)) : Tracked (.awaited id :: history) client := by
  obtain ⟨new, issued⟩ := tracked.new last
  refine tracked.moved rfl (fun _ _ => Iff.rfl) rfl rfl (fun _ member => member)
    (nodup_enter tracked.once new).1 ?_
  intro other member
  have entered : other ∈ handled history client ∨ other = id := by
    simp only [handled, History.frame_cons, Frame.next, History.resolutions, List.mem_append,
      List.mem_singleton] at member ⊢
    grind
  rcases entered with old | rfl
  · exact tracked.known other old
  · exact issued

theorem Tracked.awaitHeld (tracked : Tracked history client) {id : Id}
    (held : id ∈ client.handles) : Tracked (.awaited id :: history) (client.release id).2 := by
  refine tracked.moved rfl (fun _ _ => Iff.rfl) rfl rfl (fun _ member => member)
    (nodup_await tracked.once held) ?_
  intro other member
  have moved : other ∈ handled history client := by
    simp only [handled, release, History.frame_cons, Frame.next, History.resolutions,
      List.mem_append, List.mem_filter, List.mem_singleton] at member ⊢
    grind
  exact tracked.known other moved

theorem Tracked.drop (tracked : Tracked history client) {occurrence : Occurrence} {id : Id}
    (drops : occurrence = .released id ∧ after = (client.release id).2 ∨
      occurrence = .forgotten id ∧ after = client) : Tracked (occurrence :: history) after := by
  have sublist : (handled (occurrence :: history) after).Sublist (handled history client) := by
    rcases drops with ⟨rfl, rfl⟩ | ⟨rfl, rfl⟩
    · exact List.filter_sublist.append (List.Sublist.refl _)
    · exact (List.Sublist.refl _).append (List.filter_sublist.append (List.Sublist.refl _))
  have once := tracked.once.sublist sublist
  have known : ∀ other ∈ handled (occurrence :: history) after,
      history.verdict other ≠ .unissued := by
    intro other member
    exact tracked.known other (sublist.subset member)
  rcases drops with ⟨rfl, rfl⟩ | ⟨rfl, rfl⟩
  · exact tracked.moved rfl (fun _ _ => Iff.rfl) rfl rfl (fun _ member => member) once known
  · exact tracked.moved rfl (fun _ _ => Iff.rfl) rfl rfl (fun _ member => member) once known

end Airlock.Client
