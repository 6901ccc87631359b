import Airlock.Channel.Link

/-!
# What polls of a link come to

Each poll is said here once, with the link after it.
-/

set_option autoImplicit false

namespace Airlock.Link

variable (link : Link)

theorem pull_cases :
    (∃ unit rest, link.queue.units = unit :: rest ∧
      link.pull = (.ready (some unit), { link with queue := { link.queue with units := rest } })) ∨
    (link.queue.units = [] ∧ link.queue.closed = true ∧ link.pull = (.ready none, link)) ∨
    link.queue.units = [] ∧ link.queue.closed = false ∧ link.pull = (.waiting, link) := by
  cases units : link.queue.units with
  | cons unit rest =>
    refine .inl ⟨unit, rest, rfl, ?_⟩
    simp only [pull, Queue.pull, units]
  | nil =>
    right
    cases closed : link.queue.closed with
    | true =>
      refine .inl ⟨rfl, rfl, ?_⟩
      simp only [pull, Queue.pull, units, closed, if_true]
    | false =>
      refine .inr ⟨rfl, rfl, ?_⟩
      simp only [pull, Queue.pull, units, closed, Bool.false_eq_true, if_false]

theorem write_cases (unit : Bytes) :
    (link.sink.closed = true ∧ ∃ error, link.write unit = (.ready (.error error), link)) ∨
    link.write unit = (.ready (.ok ()),
      { link with sink := { link.sink with units := link.sink.units ++ [unit] } }) ∨
    link.sink.capacity ≤ link.sink.size ∧ link.write unit = (.waiting, link) := by
  cases closed : link.sink.closed with
  | true =>
    refine .inl ⟨rfl, link.sink.refusal, ?_⟩
    simp only [write, Sink.write, closed, if_true]
  | false =>
    right
    by_cases room : link.sink.size < link.sink.capacity
    · left
      simp only [write, Sink.write, closed, Bool.false_eq_true, if_false, room, if_true]
    · refine .inr ⟨Nat.not_lt.mp room, ?_⟩
      simp only [write, Sink.write, closed, Bool.false_eq_true, if_false, room]

theorem receive_cases :
    (∃ unit rest, link.sink.abortReason? = none ∧ link.sink.units = unit :: rest ∧
      link.receive = (.ready (.ok (some unit)),
        { link with sink := { link.sink with units := rest } })) ∨
    (∃ reason, link.sink.abortReason? = some reason ∧
      link.receive = (.ready (.error (.aborted reason)),
        { link with sink := { link.sink with units := [] } })) ∨
    (link.sink.units = [] ∧ link.sink.closed = true ∧ link.receive = (.ready (.ok none), link)) ∨
    link.sink.abortReason? = none ∧ link.sink.units = [] ∧ link.sink.closed = false ∧
      link.receive = (.waiting, link) := by
  cases aborted : link.sink.abortReason? with
  | some reason =>
    refine .inr (.inl ⟨reason, rfl, ?_⟩)
    simp only [receive, Sink.read, aborted]
  | none =>
    cases units : link.sink.units with
    | cons unit rest =>
      refine .inl ⟨unit, rest, rfl, rfl, ?_⟩
      simp only [receive, Sink.read, aborted, units]
    | nil =>
      refine .inr (.inr ?_)
      cases closed : link.sink.closed with
      | true =>
        refine .inl ⟨rfl, rfl, ?_⟩
        simp only [receive, Sink.read, aborted, units, closed, if_true]
      | false =>
        refine .inr ⟨rfl, rfl, rfl, ?_⟩
        simp only [receive, Sink.read, aborted, units, closed, Bool.false_eq_true, if_false]

/-! ## Closed links -/

/-- Both channels of a link are closed. -/
structure Closed (link : Link) : Prop where
  queue : link.queue.closed = true
  sink : link.sink.closed = true

theorem closed_close : link.close.Closed :=
  ⟨rfl, rfl⟩

variable {link}

theorem Closed.pull_ready (closed : link.Closed) : link.pull.1 ≠ .waiting := by
  rcases link.pull_cases with ⟨_, _, -, taken⟩ | ⟨-, -, ended⟩ | ⟨-, opened, -⟩
  · rw [taken]
    nofun
  · rw [ended]
    nofun
  · rw [closed.queue] at opened
    cases opened

theorem Closed.write_refused (closed : link.Closed) (unit : Bytes) :
    link.write unit = (.ready (.error link.sink.refusal), link) := by
  simp only [write, Sink.write, closed.sink, if_true]

theorem Closed.receive_ready (closed : link.Closed) : link.receive.1 ≠ .waiting := by
  rcases link.receive_cases with
    ⟨_, _, -, -, taken⟩ | ⟨_, -, dropped⟩ | ⟨-, -, ended⟩ | ⟨-, -, opened, -⟩
  · rw [taken]
    nofun
  · rw [dropped]
    nofun
  · rw [ended]
    nofun
  · rw [closed.sink] at opened
    cases opened

/-- A refused write is the end of a session, not a failure of it. -/
theorem isTerminal_refusal (sink : Sink) : sink.refusal.isTerminal = true := by
  unfold Sink.refusal
  split <;> rfl

end Airlock.Link
