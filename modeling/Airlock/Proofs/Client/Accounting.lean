import Airlock.Proofs.Client.Outgoing
import Airlock.Proofs.Client.Resolution

/-!
# Accounting for requests

Every request that was issued is in flight, was given up, or was answered by a response that came
in. Numbers may come round again here: nothing is assumed of the count of calls, except where
requests are told apart.
-/

set_option autoImplicit false

namespace Airlock

def Message.request? : Message → Option Id
  | .request id _ _ => some id
  | _ => none

namespace Client

/-! ## What a history says about a request -/

namespace History

def Issued (history : History) (id : Id) : Prop :=
  ∃ call, .issued id call ∈ history

def Answered (history : History) (id : Id) (outcome : Outcome) : Prop :=
  ∃ waited, .arrived id outcome waited ∈ history

/-- The request was taken back or timed out, or the client was closed. -/
def Dropped (history : History) (id : Id) : Prop :=
  .closed ∈ history ∨ (∃ timeout, .expired id timeout ∈ history) ∨
    ∃ call, .withdrawn id call ∈ history

variable {history : History} {id : Id} {outcome : Outcome}

theorem Issued.cons (issued : history.Issued id) (occurrence : Occurrence) :
    Issued (occurrence :: history) id :=
  issued.imp fun _ => List.mem_cons_of_mem _

theorem Answered.cons (answered : history.Answered id outcome) (occurrence : Occurrence) :
    Answered (occurrence :: history) id outcome :=
  answered.imp fun _ => List.mem_cons_of_mem _

theorem Answered.before {occurrence : Occurrence}
    (answered : Answered (occurrence :: history) id outcome)
    (other : ∀ id outcome waited, occurrence ≠ .arrived id outcome waited) :
    history.Answered id outcome := by
  obtain ⟨waited, member⟩ := answered
  rcases List.mem_cons.mp member with here | before
  · exact absurd here.symm (other id outcome waited)
  · exact ⟨waited, before⟩

private theorem Dropped.cons (dropped : history.Dropped id) (occurrence : Occurrence) :
    Dropped (occurrence :: history) id :=
  dropped.imp (List.mem_cons_of_mem _) <| .imp
    (.imp fun _ => List.mem_cons_of_mem _) (.imp fun _ => List.mem_cons_of_mem _)

end History

/-- What can have become of a request that was issued. -/
inductive Standing (history : History) (client : Client) (id : Id) : Prop where
  | pending (flies : id ∈ client.pending.ids)
  | dropped (gone : history.Dropped id)
  | delivered {outcome : Outcome} (handed : (id, outcome) ∈ client.delivered)
  | answering {outcome : Outcome} {settled : Bool}
      (mode : history.frame.mode = .answering id outcome true settled)

structure Accounted (history : History) (client : Client) : Prop where
  issued : ∀ id, history.Issued id → Standing history client id
  delivered : ∀ id outcome, (id, outcome) ∈ client.delivered → history.Answered id outcome
  answering : ∀ {id outcome waited settled},
    history.frame.mode = .answering id outcome waited settled → history.Answered id outcome
  handles : ∀ id ∈ client.handles, history.Issued id
  waiting : ∀ id ∈ history.frame.waiting, history.Issued id
  resolved : ∀ id found, .resolved id found ∈ history →
    history.Dropped id ∨ ∃ outcome, history.Answered id outcome ∧ found = result outcome
  closed : .closed ∈ history → client.phase = .closed

variable {history : History} {client after : Client}

/-- What an occurrence has to do for the accounts to stay in order. Most occurrences do nothing of
what is asked about here. -/
structure Accounts (history : History) (client : Client) (occurrence : Occurrence)
    (after : Client) : Prop where
  entered : ∀ {id call}, occurrence = .issued id call → id ∈ after.pending.ids := by
    rintro _ _ ⟨⟩
  pending : ∀ id ∈ client.pending.ids, Standing (occurrence :: history) after id := by
    exact fun _ flies => .pending flies
  kept : ∀ pair ∈ client.delivered, pair ∈ after.delivered := by exact fun _ handed => handed
  answering : ∀ {id outcome settled}, history.frame.mode = .answering id outcome true settled →
    Standing (occurrence :: history) after id := by exact fun mode => .answering mode
  handed : ∀ {id outcome}, (id, outcome) ∈ after.delivered →
      (id, outcome) ∈ client.delivered ∨ history.Answered id outcome := by
    exact fun handed => .inl handed
  said : ∀ {id outcome waited settled},
      (history.frame.next occurrence).mode = .answering id outcome waited settled →
      History.Answered (occurrence :: history) id outcome ∨
        ∃ waited settled, history.frame.mode = .answering id outcome waited settled := by
    exact fun mode => .inr ⟨_, _, mode⟩
  handles : ∀ id ∈ after.handles, id ∈ client.handles ∨ history.Issued id := by
    exact fun _ => .inl
  waiting : ∀ id ∈ (history.frame.next occurrence).waiting,
      id ∈ history.frame.waiting ∨ history.Issued id := by exact fun _ => .inl
  resolved : ∀ {id found}, occurrence = .resolved id found →
    history.Dropped id ∨ ∃ outcome, history.Answered id outcome ∧ found = result outcome := by
    rintro _ _ ⟨⟩
  phase : client.phase = .closed → after.phase = .closed := by exact fun closed => closed
  ends : occurrence = .closed → after.phase = .closed := by rintro ⟨⟩

private theorem Accounted.next {occurrence : Occurrence} (accounted : Accounted history client)
    (accounts : Accounts history client occurrence after) :
    Accounted (occurrence :: history) after where
  issued id issued := by
    obtain ⟨call, member⟩ := issued
    rcases List.mem_cons.mp member with here | before
    · exact .pending (accounts.entered here.symm)
    · cases accounted.issued id ⟨call, before⟩ with
      | pending flies => exact accounts.pending id flies
      | dropped gone => exact .dropped (gone.cons _)
      | delivered handed => exact .delivered (accounts.kept _ handed)
      | answering mode => exact accounts.answering mode
  delivered id outcome member := by
    rcases accounts.handed member with before | answered
    · exact (accounted.delivered id outcome before).cons _
    · exact answered.cons _
  answering mode := by
    rcases accounts.said mode with here | ⟨waited, settled, before⟩
    · exact here
    · exact (accounted.answering before).cons _
  handles id member := by
    rcases accounts.handles id member with before | issued
    · exact (accounted.handles id before).cons _
    · exact issued.cons _
  waiting id member := by
    rcases accounts.waiting id member with before | issued
    · exact (accounted.waiting id before).cons _
    · exact issued.cons _
  resolved id found member := by
    have settled : history.Dropped id ∨
        ∃ outcome, history.Answered id outcome ∧ found = result outcome := by
      rcases List.mem_cons.mp member with here | before
      · exact accounts.resolved here.symm
      · exact accounted.resolved id found before
    exact settled.imp (·.cons _) (.imp fun _ both => ⟨both.1.cons _, both.2⟩)
  closed member := by
    rcases List.mem_cons.mp member with here | before
    · exact accounts.ends here.symm
    · exact accounts.phase (accounted.closed before)

/-- A result that a poll finds without a timeout was said by a response, unless the request was
given up. -/
theorem Accounted.result (accounted : Accounted history client)
    (rest : history.frame.mode = .resting) {id : Id} (waits : id ∈ history.frame.waiting)
    {found : Except Error Value} (decided : client.result? id = some found) :
    history.Dropped id ∨ ∃ outcome, history.Answered id outcome ∧ found = result outcome := by
  unfold result? at decided
  cases handed : client.delivered.lookup id with
  | some outcome =>
    have member : (id, outcome) ∈ client.delivered := by
      obtain ⟨before, after, split, -⟩ := List.lookup_eq_some_iff.mp handed
      rw [split]
      exact List.mem_append_right before List.mem_cons_self
    rw [handed] at decided
    refine .inr ⟨outcome, accounted.delivered id outcome member, ?_⟩
    cases outcome <;> exact (Option.some.inj decided).symm
  | none =>
    rw [handed] at decided
    cases accounted.issued id (accounted.waiting id waits) with
    | pending flies => simp [InFlight.contains, flies] at decided
    | dropped gone => exact .inl gone
    | delivered member =>
      have other := List.lookup_eq_none_iff.mp handed _ member
      simp at other
    | answering mode => simp [rest] at mode

private theorem accounted_create (config : Config) (link : Link) :
    Accounted [] (Client.create config link) where
  issued _ issued := nomatch issued
  delivered _ _ member := nomatch member
  answering mode := nomatch mode
  handles _ member := nomatch member
  waiting _ member := nomatch member
  resolved _ _ member := nomatch member
  closed member := nomatch member

/-! ## Occurrences -/

private theorem Standing.of_fewer {number id : Id} (flies : id ∈ client.pending.ids)
    (fewer : ∀ other ∈ client.pending.ids, other ≠ number → other ∈ after.pending.ids)
    (gone : Standing history after number) : Standing history after id := by
  by_cases same : id = number
  · rw [same]
    exact gone
  · exact .pending (fewer id flies same)

private theorem mem_pending_leaving {number : Id} :
    ∀ other ∈ client.pending.ids, other ≠ number → other ∈ (client.leaving number).pending.ids :=
  fun _ flies different => mem_leaving.mpr ⟨flies, different⟩

private theorem Accounts.of_steady {occurrence : Occurrence} {last : Client}
    (accounts : Accounts history client occurrence after) (steady : Steady after last)
    (phase : after.phase = .closed → last.phase = .closed) :
    Accounts history client occurrence last := by
  have standing {history : History} {id : Id} (before : Standing history after id) :
      Standing history last id := by
    cases before with
    | pending flies => exact .pending (steady.pending ▸ flies)
    | dropped gone => exact .dropped gone
    | delivered handed => exact .delivered (steady.delivered ▸ handed)
    | answering mode => exact .answering mode
  exact {
    accounts with
    entered := fun here => steady.pending ▸ accounts.entered here
    pending := fun id flies => standing (accounts.pending id flies)
    kept := fun pair handed => steady.delivered ▸ accounts.kept pair handed
    answering := fun mode => standing (accounts.answering mode)
    handed := fun member => accounts.handed (steady.delivered ▸ member)
    handles := fun id member => accounts.handles id (steady.handles ▸ member)
    phase := fun closed => phase (accounts.phase closed)
    ends := fun here => phase (accounts.ends here) }

/-- What neither answers a request nor awaits it, and neither issues one nor closes the client. -/
def Occurrence.bare : Occurrence → Bool
  | .issued _ _ | .closed | .arrived _ _ _ | .settled _ | .delivered _ _ | .orphaned _ | .awaited _
  | .resolved _ _ | .forgotten _ => false
  | _ => true

private theorem Occurrence.bare_spec {occurrence : Occurrence} (bare : occurrence.bare = true)
    (frame : Frame) :
    (frame.next occurrence).mode = frame.mode ∧
      (frame.next occurrence).waiting = frame.waiting := by
  cases occurrence with
  | began hook atOnce => cases atOnce <;> exact ⟨rfl, rfl⟩
  | attempted | withdrawn | refused | held | released | notified | registered | ended | announced
  | abandoned | gathered | opened | replied | expired | quiet => exact ⟨rfl, rfl⟩
  | _ => cases bare

private theorem Accounts.untouched {occurrence : Occurrence} (bare : occurrence.bare = true) :
    Accounts history client occurrence client := by
  obtain ⟨mode, waiting⟩ := Occurrence.bare_spec bare history.frame
  constructor
  case entered =>
    rintro _ _ rfl
    cases bare
  case resolved =>
    rintro _ _ rfl
    cases bare
  case ends =>
    rintro rfl
    cases bare
  case pending => exact fun _ flies => .pending flies
  case kept => exact fun _ handed => handed
  case answering => exact fun answering => .answering (mode.trans answering)
  case handed => exact .inl
  case said => exact fun answering => .inr ⟨_, _, mode.symm.trans answering⟩
  case handles => exact fun _ => .inl
  case waiting => exact fun _ member => .inl (waiting ▸ member)
  case phase => exact fun closed => closed

/-- Nothing that a request could be accounted by changes with a bare occurrence. -/
theorem Accounted.bare {occurrence : Occurrence} (accounted : Accounted history client)
    (bare : occurrence.bare = true) (steady : Steady client after)
    (phase : client.phase = .closed → after.phase = .closed) :
    Accounted (occurrence :: history) after :=
  accounted.next ((Accounts.untouched bare).of_steady steady phase)

/-- A request that is on record as dropped may leave. -/
theorem Accounts.left {occurrence : Occurrence} {number : Id} (bare : occurrence.bare = true)
    (gone : History.Dropped (occurrence :: history) number) :
    Accounts history client occurrence (client.leaving number) :=
  { Accounts.untouched bare with
    entered := by
      rintro _ _ rfl
      cases bare
    pending := fun _ flies => .of_fewer flies mem_pending_leaving (.dropped gone)
    answering := fun mode =>
      .answering ((Occurrence.bare_spec bare history.frame).1.trans mode) }

private theorem Accounts.withdrawn {number : Id} {call : Call}
    (steady : Steady (client.leaving number) after) (live : client.phase ≠ .closed) :
    Accounts history client (.withdrawn number call) after :=
  (left rfl (.inr (.inr ⟨call, List.mem_cons_self⟩))).of_steady steady fun closed =>
    absurd closed live

private theorem Accounts.issued {number : Id} {call : Call} (live : client.phase ≠ .closed)
    (pending : after.pending.ids = number.insertOrdered client.pending.ids)
    (delivered : after.delivered = client.delivered) (handles : after.handles = client.handles) :
    Accounts history client (.issued number call) after where
  entered here := by
    obtain ⟨rfl, -⟩ := Occurrence.issued.inj here
    rw [pending]
    exact Id.mem_insertOrdered.mpr (.inl rfl)
  pending _ flies := .pending (pending ▸ Id.mem_insertOrdered.mpr (.inr flies))
  kept _ handed := by rwa [delivered]
  handed member := .inl (delivered ▸ member)
  handles _ member := .inl (handles ▸ member)
  phase closed := absurd closed live

private theorem Accounts.closed (live : client.phase ≠ .closed) :
    Accounts history client .closed client.close := by
  have gone (id : Id) : Standing (.closed :: history) client.close id :=
    .dropped (.inl List.mem_cons_self)
  obtain ⟨-, delivered, handles⟩ := ids_close live
  have ended : client.close.phase = .closed := (torn_close live).2.1
  constructor
  case pending => exact fun id _ => gone id
  case kept => exact fun _ handed => by rwa [delivered]
  case answering => exact fun _ => gone _
  case handed => exact fun member => .inl (delivered ▸ member)
  case handles => exact fun _ member => .inl (handles ▸ member)
  case phase => exact fun _ => ended
  case ends => exact fun _ => ended
  case entered => rintro _ _ ⟨⟩
  case said => exact fun mode => .inr ⟨_, _, mode⟩
  case waiting => exact fun _ => .inl
  case resolved => rintro _ _ ⟨⟩

private theorem Accounts.arrived (rest : history.frame.mode = .resting) (id : Id)
    (outcome : Outcome) :
    Accounts history client (.arrived id outcome (client.pending.contains id))
      (client.leaving id) where
  pending other flies := by
    by_cases same : other = id
    · subst same
      have waited : client.pending.contains other = true := decide_eq_true flies
      rw [waited]
      exact .answering rfl
    · exact .pending (mem_leaving.mpr ⟨flies, same⟩)
  answering mode := by simp [rest] at mode
  said mode := by
    obtain ⟨rfl, rfl, -, -⟩ := Mode.answering.inj mode
    exact .inl ⟨_, List.mem_cons_self⟩

private theorem Accounts.settled (id : Id) :
    Accounts history client (.settled id) { client with handshake? := none } where
  answering mode := .answering (by rw [History.frame_cons, Frame.next, mode]; rfl)
  said {other outcome waited settled} mode := by
    right
    rw [Frame.next] at mode
    cases before : history.frame.mode with
    | resting => simp [before, Mode.settle] at mode
    | answering =>
      simp only [before, Mode.settle, Mode.answering.injEq] at mode
      obtain ⟨rfl, rfl, rfl, rfl⟩ := mode
      exact ⟨_, _, rfl⟩

private theorem Accounts.delivered (accounted : Accounted history client) {id : Id}
    {outcome : Outcome}
    {settled : Bool} (mode : history.frame.mode = .answering id outcome true settled) :
    Accounts history client (.delivered id outcome)
      { client with delivered := (id, outcome) :: client.delivered } where
  kept _ handed := List.mem_cons_of_mem _ handed
  answering same := by
    obtain ⟨rfl, rfl, -, -⟩ := Mode.answering.inj (mode.symm.trans same)
    exact .delivered List.mem_cons_self
  handed member := by
    rcases List.mem_cons.mp member with here | before
    · obtain ⟨rfl, rfl⟩ := Prod.mk.inj here
      exact .inr (accounted.answering mode)
    · exact .inl before
  said := by rintro _ _ _ _ ⟨⟩

private theorem Accounts.orphaned {id : Id} {outcome : Outcome} {settled : Bool}
    (mode : history.frame.mode = .answering id outcome false settled) :
    Accounts history client (.orphaned id) (client.keepEvent (.orphaned id)) where
  answering same := by cases mode.symm.trans same
  said := by rintro _ _ _ _ ⟨⟩

theorem phase_abandonHandshake {id : Id} (closed : client.phase = .closed) :
    (client.abandonHandshake id).phase = .closed := by
  unfold abandonHandshake
  split
  · exact closed
  · simp [closed]

private theorem Accounts.abandoned (id : Id) :
    Accounts history client (.abandoned id) (client.abandonHandshake id) :=
  (untouched rfl).of_steady (steady_abandonHandshake client id) phase_abandonHandshake

private theorem Accounts.expired (id : Id) (timeout : Duration) :
    Accounts history client (.expired id timeout) ((client.leaving id).abandonHandshake id) :=
  (left rfl (.inr (.inl ⟨timeout, List.mem_cons_self⟩))).of_steady
    (steady_abandonHandshake _ id) phase_abandonHandshake

private theorem mem_release {id other : Id} (member : other ∈ (client.release id).2.handles) :
    other ∈ client.handles :=
  (List.mem_filter.mp member).1

private theorem issued_of_waiting {id other : Id} (issued : history.Issued id)
    (member : other ∈ history.frame.waiting ++ [id]) :
    other ∈ history.frame.waiting ∨ history.Issued other := by
  rcases List.mem_append.mp member with before | here
  · exact .inl before
  · obtain rfl := List.mem_singleton.mp here
    exact .inr issued

private theorem Accounted.attempted (accounted : Accounted history client)
    (idle : client.phase = .uninitialized) (id : Id) :
    Accounted (.attempted id :: history) client.attempting :=
  accounted.bare rfl ⟨rfl, rfl, rfl⟩ fun closed => nomatch idle.symm.trans closed

private theorem accounted_step {chunk : Trail} (accounted : Accounted history client)
    (step : Step history client chunk after) : Accounted (history.extend chunk) after := by
  -- Only what enters or leaves a table, or names a result, has something to account for.
  cases step with
  | refused barred => exact accounted.bare rfl ⟨rfl, rfl, rfl⟩ id
  | withdrawn live plain => exact accounted.next (.withdrawn ⟨rfl, rfl, rfl⟩ live)
  | issued live plain sent =>
    subst sent
    exact accounted.next (.issued live rfl rfl rfl)
  | attemptWithdrawn idle opening undone =>
    subst undone
    exact (accounted.attempted idle _).next (.withdrawn ⟨rfl, rfl, rfl⟩ nofun)
  | attemptIssued idle opening sent =>
    subst sent
    exact (accounted.attempted idle _).next (.issued nofun rfl rfl rfl)
  | held fresh =>
    refine accounted.next { Accounts.untouched rfl with handles := fun id member => ?_ }
    rcases List.mem_append.mp member with before | here
    · exact .inl before
    · obtain rfl := List.mem_singleton.mp here
      exact .inr ⟨_, List.mem_of_mem_head? fresh⟩
  | released =>
    exact accounted.next {
      Accounts.untouched rfl with
      handles := fun _ member => .inl (mem_release member) }
  | started late =>
    exact (accounted.bare rfl ⟨rfl, rfl, rfl⟩ id).bare rfl ⟨rfl, rfl, rfl⟩ id
  | notified | queued | dropped | began | ended | announced | replied =>
    exact accounted.bare rfl ⟨rfl, rfl, rfl⟩ id
  | closed live => exact accounted.next (.closed live)
  | arrived rest => exact accounted.next (.arrived rest _ _)
  | settled last outstanding past =>
    subst past
    exact accounted.next (.settled _)
  | abandoned last outstanding => exact accounted.next (.abandoned _)
  | gathered draining free some taken =>
    subst taken
    exact accounted.bare rfl ⟨rfl, rfl, rfl⟩ id
  | opened draining free none open? done =>
    subst done
    exact accounted.bare rfl ⟨rfl, rfl, rfl⟩ fun closed => nomatch open?.symm.trans closed
  | delivered waited free idle past done handed =>
    subst handed
    exact accounted.next (.delivered accounted waited)
  | orphaned stray free idle past done noted =>
    subst noted
    exact accounted.next (.orphaned stray)
  | awaitedHeld held =>
    exact accounted.next {
      handles := fun _ member => .inl (mem_release member)
      waiting := fun _ member => issued_of_waiting (accounted.handles _ held) member }
  | awaitedFresh fresh =>
    exact accounted.next {
      waiting := fun _ member => issued_of_waiting ⟨_, List.mem_of_mem_head? fresh⟩ member }
  | expired rest waits open? forgotten =>
    subst forgotten
    refine (accounted.next (.expired _ _)).next {
      waiting := fun id member => .inl (List.mem_filter.mp member).1
      resolved := fun here => ?_ }
    obtain ⟨rfl, -⟩ := Occurrence.resolved.inj here
    exact .inl (.inr (.inl ⟨_, List.mem_cons_self⟩))
  | resolved rest waits decided =>
    refine accounted.next {
      waiting := fun id member => .inl (List.mem_filter.mp member).1
      resolved := fun here => ?_ }
    obtain ⟨rfl, rfl⟩ := Occurrence.resolved.inj here
    exact accounted.result rest waits decided
  | forgotten =>
    exact accounted.next { waiting := fun id member => .inl (List.mem_filter.mp member).1 }
  | quiet alike =>
    exact accounted.bare rfl ⟨by rw [alike.same], by rw [alike.same], by rw [alike.same]⟩
      fun closed => by rwa [alike.same]

private theorem accounted_path {trail : Trail} (path : Path history client trail after)
    (accounted : Accounted history client) : Accounted (history.extend trail) after := by
  induction path with
  | done => exact accounted
  | step step _ ih =>
    rw [History.extend_append]
    exact ih (accounted_step accounted step)

/-! ## The numbers of requests -/

def Occurrence.request? : Occurrence → Option Id
  | .issued id _ => some id
  | _ => none

/-- The identifiers under which requests were issued, the newest first. -/
def History.requests (history : History) : List Id :=
  history.filterMap Occurrence.request?

private theorem History.request?_sent (history : History) :
    history.sent.filterMap Message.request? = history.requests.reverse := by
  induction history with
  | nil => rfl
  | cons occurrence rest ih =>
    have one : occurrence.sent.filterMap Message.request? = occurrence.request?.toList := by
      cases occurrence <;> rfl
    rw [sent_cons, List.filterMap_append, ih, one, requests, requests, List.filterMap_cons]
    cases occurrence.request? <;> simp

/-- Requests are issued under the numbers of calls, and under each once while the numbers differ. -/
structure Distinct (history : History) : Prop where
  numbered : ∀ id ∈ history.requests, ∃ count, count ≤ history.calls ∧ id = .nth count
  once : history.calls < 0x8000000000000000 → history.requests.Nodup

private theorem Distinct.silent {occurrence : Occurrence} (distinct : Distinct history)
    (silent : occurrence.request? = none) : Distinct (occurrence :: history) := by
  have same : History.requests (occurrence :: history) = history.requests :=
    List.filterMap_cons_none silent
  have more : history.calls ≤ History.calls (occurrence :: history) := Nat.le_add_right _ _
  constructor
  · rw [same]
    intro id member
    obtain ⟨count, small, named⟩ := distinct.numbered id member
    exact ⟨count, Nat.le_trans small more, named⟩
  · rw [same]
    intro few
    exact distinct.once (Nat.lt_of_le_of_lt more few)

private theorem Distinct.issued {earlier : History} {call : Call} (distinct : Distinct earlier)
    (requests : history.requests = earlier.requests)
    (calls : History.calls (.issued (.nth (earlier.calls + 1)) call :: history) =
      earlier.calls + 1) :
    Distinct (.issued (.nth (earlier.calls + 1)) call :: history) := by
  have added : History.requests (.issued (.nth (earlier.calls + 1)) call :: history) =
      .nth (earlier.calls + 1) :: earlier.requests := by
    rw [← requests]
    rfl
  constructor
  · rw [added, calls]
    intro id member
    rcases List.mem_cons.mp member with rfl | before
    · exact ⟨_, Nat.le_refl _, rfl⟩
    · obtain ⟨count, small, named⟩ := distinct.numbered id before
      exact ⟨count, Nat.le_succ_of_le small, named⟩
  · rw [added, calls]
    intro few
    refine List.nodup_cons.mpr ⟨?_, distinct.once (Nat.lt_of_succ_lt few)⟩
    intro before
    obtain ⟨count, small, named⟩ := distinct.numbered _ before
    have same := (Id.nth_inj few (Nat.lt_of_le_of_lt (Nat.le_succ_of_le small) few)).mp named
    omega

/-- While the numbers differ, an identifier names one request of those that were sent. -/
theorem Distinct.position {first second : Nat} {id : Id} {firstMethod secondMethod : String}
    {firstParams secondParams : Value} (distinct : Distinct history)
    (few : history.calls < 0x8000000000000000)
    (here : history.sent[first]? = some (.request id firstMethod firstParams))
    (there : history.sent[second]? = some (.request id secondMethod secondParams)) :
    first = second := by
  have once : (history.sent.filterMap Message.request?).Nodup := by
    rw [History.request?_sent]
    exact List.pairwise_reverse.mpr ((distinct.once few).imp Ne.symm)
  rw [List.Nodup, List.pairwise_filterMap] at once
  obtain ⟨firstBound, here⟩ := List.getElem?_eq_some_iff.mp here
  obtain ⟨secondBound, there⟩ := List.getElem?_eq_some_iff.mp there
  have apart := List.pairwise_iff_getElem.mp once
  rcases Nat.lt_trichotomy first second with before | same | behind
  · exact absurd rfl (apart first second firstBound secondBound before id (by rw [here]; rfl) id
      (by rw [there]; rfl))
  · exact same
  · exact absurd rfl (apart second first secondBound firstBound behind id (by rw [there]; rfl) id
      (by rw [here]; rfl))

private theorem distinct_step {chunk : Trail} (kept : Kept history client)
    (distinct : Distinct history)
    (step : Step history client chunk after) : Distinct (history.extend chunk) := by
  have next : Id.number client.nextId = .nth (history.calls + 1) :=
    congrArg Id.number kept.numbered.next
  cases step with
  | issued live plain =>
    rw [next]
    exact distinct.issued rfl (by simp [Occurrence.calls, plain])
  | @attemptIssued call _ idle opening =>
    rw [next]
    have calls : History.calls (.issued (.nth (history.calls + 1)) call ::
        .attempted (.nth (history.calls + 1)) :: history) = history.calls + 1 := by
      simp [Occurrence.calls, opening]
    exact distinct.issued rfl calls
  | attemptWithdrawn | started | expired => exact (distinct.silent rfl).silent rfl
  | _ => exact distinct.silent rfl

private theorem distinct_path {trail : Trail} (path : Path history client trail after)
    (kept : Kept history client) (distinct : Distinct history) :
    Distinct (history.extend trail) := by
  induction path with
  | done => exact distinct
  | step step _ ih =>
    rw [History.extend_append]
    exact ih (kept_step kept step).2 (distinct_step kept distinct step)

/-! ## Runs -/

/-- What holds of a client whatever happened to it: its parts agree, its requests are accounted for
and numbered, and none was given up without a cause that is still there. -/
structure Audited (history : History) (client : Client) : Prop where
  kept : Kept history client
  accounted : Accounted history client
  distinct : Distinct history
  excused : ∀ occurrence ∈ history, occurrence.Excused client

theorem Trail.mem_history {trail : Trail} {occurrence : Occurrence} :
    occurrence ∈ trail.history ↔ occurrence ∈ trail.map (·.1) := by
  simp [history, History.extend]

namespace World

theorem run_audited (config : Config) (acts : List Act) :
    Audited ((create config).trail acts).history ((create config).run acts).client := by
  obtain ⟨path, -⟩ := path_trail (follows_create config) acts
  have kept : Kept ([] : History) (create config).client := kept_create config _
  have distinct : Distinct [] := ⟨nofun, fun _ => .nil⟩
  refine ⟨(path.along kept_step kept).2, accounted_path path (accounted_create config _),
    distinct_path path kept distinct, ?_⟩
  intro occurrence member
  obtain ⟨entry, along, rfl⟩ := List.mem_map.mp (Trail.mem_history.mp member)
  exact ((create config).keeps_run acts).2 entry along

end World

end Client

end Airlock
