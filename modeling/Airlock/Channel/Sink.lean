import Airlock.Bytes
import Airlock.Rpc.Error
import Airlock.Channel.Poll

/-!
# The sink out of the core

Writers put units in up to a high-water mark and wait while the sink is full; the reader takes them
out in order. A closed sink refuses writes, also waiting ones, and ends once its units were read. An
aborted sink is closed too and delivers nothing more: reads and writes fail with the reason of the
first abort. Dropping the last handle of a side closes the sink.
-/

set_option autoImplicit false

namespace Airlock

/-- A bounded buffer of units, first in first out. -/
structure Sink where
  capacity : Nat
  units : List Bytes := []
  closed : Bool := false
  abortReason? : Option String := none
  /-- handles that can put units in -/
  writers : Nat := 1
  /-- handles that can take units out -/
  readers : Nat := 1

namespace Sink

/-- A sink with the given high-water mark, which is raised to one. -/
def create (highWaterMark : Nat) : Sink :=
  { capacity := max highWaterMark 1 }

def size (sink : Sink) : Nat :=
  sink.units.length

/-- How many units a writer may put in without waiting. -/
def desiredSize (sink : Sink) : Nat :=
  sink.capacity - sink.size

/-- The error of a call on a sink that is aborted, or else closed. -/
def refusal (sink : Sink) : Error :=
  match sink.abortReason? with
  | some reason => .aborted reason
  | none => .closed

/-- Puts a unit in, as soon as there is room. -/
def write (sink : Sink) (unit : Bytes) : Poll (Except Error Unit) × Sink :=
  if sink.closed then (.ready (.error sink.refusal), sink)
  else if sink.size < sink.capacity then
    (.ready (.ok ()), { sink with units := sink.units ++ [unit] })
  else (.waiting, sink)

/-- Takes the next unit out. Nothing comes once the sink is closed and empty; an aborted sink drops
what it holds. -/
def read (sink : Sink) : Poll (Except Error (Option Bytes)) × Sink :=
  match sink.abortReason? with
  | some reason => (.ready (.error (.aborted reason)), { sink with units := [] })
  | none =>
    match sink.units with
    | unit :: rest => (.ready (.ok (some unit)), { sink with units := rest })
    | [] => if sink.closed then (.ready (.ok none), sink) else (.waiting, sink)

@[simp] theorem closed_write (sink : Sink) (unit : Bytes) :
    (sink.write unit).2.closed = sink.closed := by
  unfold write
  split
  · rfl
  · split <;> rfl

@[simp] theorem closed_read (sink : Sink) : sink.read.2.closed = sink.closed := by
  unfold read
  split
  · rfl
  · split
    · rfl
    · split <;> rfl

theorem units_read {sink : Sink} {unit : Bytes} (polled : sink.read.1 = .ready (.ok (some unit))) :
    sink.units = unit :: sink.read.2.units := by
  unfold read at *
  split at polled
  · cases polled
  · split at polled
    · rename_i none _ first rest units
      simp_all
    · split at polled <;> cases polled

/-- Closes the sink; tells whether it was open. -/
def close (sink : Sink) : Bool × Sink :=
  (!sink.closed, { sink with closed := true })

def abort (sink : Sink) (reason : String) : Sink :=
  { sink with closed := true, abortReason? := sink.abortReason?.or (some reason) }

def addWriter (sink : Sink) : Sink :=
  { sink with writers := sink.writers + 1 }

/-- One handle for putting units in less; without any the sink closes. -/
def dropWriter (sink : Sink) : Sink :=
  { sink with
    writers := sink.writers - 1
    closed := sink.closed || sink.writers ≤ 1 }

def addReader (sink : Sink) : Sink :=
  { sink with readers := sink.readers + 1 }

/-- One handle for taking units out less; without any the sink closes. -/
def dropReader (sink : Sink) : Sink :=
  { sink with
    readers := sink.readers - 1
    closed := sink.closed || sink.readers ≤ 1 }

end Sink

end Airlock
