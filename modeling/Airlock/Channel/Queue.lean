import Airlock.Bytes
import Airlock.Rpc.Error
import Airlock.Channel.Poll

/-!
# The queue into the core

Producers put units in without ever waiting; the reader takes them out in order and waits while the
queue is open and empty. Either side may close it, and so does dropping the last handle of a side.
Closing keeps what is in the queue and refuses what comes later; it is never undone.
-/

set_option autoImplicit false

namespace Airlock

/-- An unbounded queue of units, first in first out. -/
structure Queue where
  units : List Bytes := []
  closed : Bool := false
  /-- handles that can put units in -/
  producers : Nat := 1
  /-- handles that can take units out -/
  readers : Nat := 1

namespace Queue

def size (queue : Queue) : Nat :=
  queue.units.length

def enqueue (queue : Queue) (unit : Bytes) : Except Error Queue :=
  if queue.closed then .error .closed else .ok { queue with units := queue.units ++ [unit] }

/-- Closes the queue; tells whether it was open. -/
def close (queue : Queue) : Bool × Queue :=
  (!queue.closed, { queue with closed := true })

/-- Takes the next unit out. Nothing comes once the queue is closed and empty. -/
def pull (queue : Queue) : Poll (Option Bytes) × Queue :=
  match queue.units with
  | unit :: rest => (.ready (some unit), { queue with units := rest })
  | [] => if queue.closed then (.ready none, queue) else (.waiting, queue)

theorem units_pull {queue : Queue} {unit : Bytes} (polled : queue.pull.1 = .ready (some unit)) :
    queue.units = unit :: queue.pull.2.units := by
  unfold pull at *
  split at polled
  · simp_all
  · split at polled <;> cases polled

@[simp] theorem closed_pull (queue : Queue) : queue.pull.2.closed = queue.closed := by
  unfold pull
  split
  · rfl
  · split <;> rfl

/-- Finding the end leaves the queue as it is. -/
theorem pull_none {queue : Queue} (polled : queue.pull.1 = .ready none) :
    queue.pull.2 = queue := by
  unfold pull at *
  split at polled
  · cases polled
  · split <;> rfl

def tryPull (queue : Queue) : Option Bytes × Queue :=
  match queue.units with
  | unit :: rest => (some unit, { queue with units := rest })
  | [] => (none, queue)

def takeAll (queue : Queue) : List Bytes × Queue :=
  (queue.units, { queue with units := [] })

def addProducer (queue : Queue) : Queue :=
  { queue with producers := queue.producers + 1 }

/-- One handle for putting units in less; without any the queue closes. -/
def dropProducer (queue : Queue) : Queue :=
  { queue with
    producers := queue.producers - 1
    closed := queue.closed || queue.producers ≤ 1 }

def addReader (queue : Queue) : Queue :=
  { queue with readers := queue.readers + 1 }

/-- One handle for taking units out less; without any the queue closes. -/
def dropReader (queue : Queue) : Queue :=
  { queue with
    readers := queue.readers - 1
    closed := queue.closed || queue.readers ≤ 1 }

end Queue

end Airlock
