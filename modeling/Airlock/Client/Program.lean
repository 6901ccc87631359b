import Airlock.Call
import Airlock.Rpc.Error

/-!
# Programs over a client

Hooks and handlers are programs: trees of client calls in which the result of a call chooses what
comes next. A program is finite along every path, and ends with an outcome, which only the handler
of a request makes use of. The hooks that a program registers are part of its tree, so none of them
can register itself; callbacks that do are behaviours, and a drain of those need not end.

`Program.QueuedBy` relates a program to the hooks that running it may queue; the relation is well
founded, and so is its lifting to batches of hooks: running a batch and then the hooks it queued,
again and again, comes to an end.
-/

set_option autoImplicit false

namespace Airlock

inductive Phase where
  | uninitialized
  | awaiting
  | initialized
  | closed
  deriving DecidableEq, Repr

def Phase.name : Phase → String
  | .uninitialized => "Uninitialized"
  | .awaiting => "AwaitingInitializeResponse"
  | .initialized => "Initialized"
  | .closed => "Closed"

inductive Event where
  | decodeFailed (error : DecodeError)
  | orphaned (id : Id)

/-- A tree of calls on a client. -/
inductive Program where
  | finish (outcome : Outcome)
  | request (call : Call) (next : Except Error Id → Program)
  | notify (call : Call) (next : Except Error Unit → Program)
  | hook (body : Program) (next : Program)
  | onNotification (method : String) (handler : Value → Program) (next : Program)
  | onRequest (method : String) (handler : Value → Program) (next : Program)
  | takeEvents (next : List Event → Program)
  | close (next : Program)
  | phase (next : Phase → Program)
  | pending (next : List Id → Program)
  | release (id : Id) (next : Bool → Program)
  | holds (id : Id) (next : Bool → Program)
  | note (entry : Value) (next : Program)

namespace Program

def skip : Program :=
  .finish (.ok .null)

instance : Inhabited Program := ⟨skip⟩

/-- Whether running the program may queue the hook. A hook that runs at once may queue hooks of its
own. -/
def QueuedBy (hook : Program) : Program → Prop
  | .finish _ => False
  | .request _ next => ∃ reply, QueuedBy hook (next reply)
  | .notify _ next => ∃ reply, QueuedBy hook (next reply)
  | .hook body next => hook = body ∨ QueuedBy hook body ∨ QueuedBy hook next
  | .onNotification _ _ next => QueuedBy hook next
  | .onRequest _ _ next => QueuedBy hook next
  | .takeEvents next => ∃ events, QueuedBy hook (next events)
  | .close next => QueuedBy hook next
  | .phase next => ∃ current, QueuedBy hook (next current)
  | .pending next => ∃ ids, QueuedBy hook (next ids)
  | .release _ next => ∃ held, QueuedBy hook (next held)
  | .holds _ next => ∃ held, QueuedBy hook (next held)
  | .note _ next => QueuedBy hook next

/-- No program queues hooks that queue hooks that queue hooks without end. -/
theorem queuedBy_wellFounded : WellFounded QueuedBy := by
  refine ⟨fun program => ?_⟩
  induction program with
  | finish => exact ⟨_, fun _ queued => queued.elim⟩
  | request call next ih => exact ⟨_, fun _ ⟨reply, queued⟩ => (ih reply).inv queued⟩
  | notify call next ih => exact ⟨_, fun _ ⟨reply, queued⟩ => (ih reply).inv queued⟩
  | hook body next bodyIH nextIH =>
    refine ⟨_, fun _ queued => ?_⟩
    rcases queued with rfl | queued | queued
    · exact bodyIH
    · exact bodyIH.inv queued
    · exact nextIH.inv queued
  | onNotification method handler next _ ih => exact ⟨_, fun _ queued => ih.inv queued⟩
  | onRequest method handler next _ ih => exact ⟨_, fun _ queued => ih.inv queued⟩
  | takeEvents next ih => exact ⟨_, fun _ ⟨events, queued⟩ => (ih events).inv queued⟩
  | close next ih => exact ⟨_, fun _ queued => ih.inv queued⟩
  | phase next ih => exact ⟨_, fun _ ⟨current, queued⟩ => (ih current).inv queued⟩
  | pending next ih => exact ⟨_, fun _ ⟨ids, queued⟩ => (ih ids).inv queued⟩
  | release id next ih => exact ⟨_, fun _ ⟨held, queued⟩ => (ih held).inv queued⟩
  | holds id next ih => exact ⟨_, fun _ ⟨held, queued⟩ => (ih held).inv queued⟩
  | note entry next ih => exact ⟨_, fun _ queued => ih.inv queued⟩

end Program

structure Batch where
  hooks : List Program

namespace Batch

/-- Every hook of the first batch may be queued by one of the second, which is not empty. -/
def Below (later earlier : Batch) : Prop :=
  earlier.hooks ≠ [] ∧
    ∀ hook ∈ later.hooks, ∃ program ∈ earlier.hooks, Program.QueuedBy hook program

private theorem acc_of_mem_iff {first second : Batch} (accessible : Acc Below first)
    (same : ∀ hook, hook ∈ first.hooks ↔ hook ∈ second.hooks) : Acc Below second := by
  refine ⟨_, fun later below => accessible.inv ⟨?_, fun hook member => ?_⟩⟩
  · obtain ⟨hook, rest, split⟩ := List.exists_cons_of_ne_nil below.1
    have member : hook ∈ first.hooks := (same hook).mpr (by simp [split])
    exact List.ne_nil_of_mem member
  · obtain ⟨program, there, queued⟩ := below.2 hook member
    exact ⟨program, (same program).mpr there, queued⟩

/-- What lies below two batches together falls into a part below each. -/
theorem acc_append {first second : Batch} (firstAcc : Acc Below first)
    (secondAcc : Acc Below second) : Acc Below ⟨first.hooks ++ second.hooks⟩ := by
  induction firstAcc generalizing second with
  | intro first firstAcc firstIH =>
  refine ⟨_, fun later below => ?_⟩
  have either : ∀ hook ∈ later.hooks,
      (∃ program ∈ first.hooks, Program.QueuedBy hook program) ∨
        ∃ program ∈ second.hooks, Program.QueuedBy hook program := fun hook member => by
    obtain ⟨program, there, queued⟩ := below.2 hook member
    rcases List.mem_append.mp there with there | there
    · exact .inl ⟨program, there, queued⟩
    · exact .inr ⟨program, there, queued⟩
  by_cases firstEmpty : first.hooks = []
  · refine secondAcc.inv ⟨fun secondEmpty => below.1 (by simp [firstEmpty, secondEmpty]), ?_⟩
    exact fun hook member => (either hook member).resolve_left (by simp [firstEmpty])
  by_cases secondEmpty : second.hooks = []
  · refine firstAcc later ⟨firstEmpty, ?_⟩
    exact fun hook member => (either hook member).resolve_right (by simp [secondEmpty])
  classical
  let belowFirst (hook : Program) : Bool := ∃ program ∈ first.hooks, Program.QueuedBy hook program
  let notFirst (hook : Program) : Bool := !belowFirst hook
  have restAcc : Acc Below ⟨later.hooks.filter notFirst⟩ :=
    secondAcc.inv ⟨secondEmpty, fun hook member => by
      obtain ⟨member, not⟩ := List.mem_filter.mp member
      exact (either hook member).resolve_left (by simpa [notFirst, belowFirst] using not)⟩
  refine acc_of_mem_iff (firstIH ⟨later.hooks.filter belowFirst⟩ ⟨firstEmpty, fun hook member => ?_⟩
    restAcc) fun hook => ?_
  · simpa [belowFirst] using (List.mem_filter.mp member).2
  · simp only [List.mem_append, List.mem_filter, ← and_or_left, notFirst]
    cases belowFirst hook <;> simp

private theorem acc_of_forall {hooks : List Program} (all : ∀ hook ∈ hooks, Acc Below ⟨[hook]⟩) :
    Acc Below ⟨hooks⟩ := by
  induction hooks with
  | nil => exact ⟨_, fun _ below => absurd rfl below.1⟩
  | cons hook rest ih =>
    exact acc_append (all hook (by simp)) (ih fun other member =>
      all other (by simp [member]))

private theorem acc_singleton (program : Program) : Acc Below ⟨[program]⟩ := by
  induction program using Program.queuedBy_wellFounded.induction with
  | _ program ih =>
    refine ⟨_, fun later below => acc_of_forall fun hook member => ?_⟩
    obtain ⟨other, there, queued⟩ := below.2 hook member
    exact ih hook (List.mem_singleton.mp there ▸ queued)

private theorem below_wellFounded : WellFounded Below :=
  ⟨fun _ => acc_of_forall fun hook _ => acc_singleton hook⟩

instance : WellFoundedRelation Batch := ⟨Below, below_wellFounded⟩

end Batch

end Airlock
