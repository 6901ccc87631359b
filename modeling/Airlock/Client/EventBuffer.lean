import Airlock.Client.Program

/-!
# Events in waiting

A buffer of events keeps the newest ones: when it is full, a new event takes the place of the
oldest.
-/

set_option autoImplicit false

namespace Airlock

/-- Events that nobody took yet, the oldest first. -/
structure EventBuffer where
  capacity : Nat
  events : List Event := []

namespace EventBuffer

/-- Adds an event. A full buffer loses its oldest one. -/
def push (buffer : EventBuffer) (event : Event) : EventBuffer :=
  if buffer.events.length < buffer.capacity then
    { buffer with events := buffer.events ++ [event] }
  else { buffer with events := buffer.events.drop 1 ++ [event] }

def pop (buffer : EventBuffer) : Option Event × EventBuffer :=
  (buffer.events.head?, { buffer with events := buffer.events.drop 1 })

def takeAll (buffer : EventBuffer) : List Event × EventBuffer :=
  (buffer.events, { buffer with events := [] })

end EventBuffer

end Airlock
