/-!
# Suspended calls

A call that may have to wait is a function that is tried again whenever it is polled: each time it
is either ready with its result or still waiting. Waiting holds no place in any order.
-/

set_option autoImplicit false

namespace Airlock

inductive Poll (α : Type) where
  | ready (result : α)
  | waiting
  deriving DecidableEq, Repr

def Poll.map {α β : Type} (f : α → β) : Poll α → Poll β
  | .ready result => .ready (f result)
  | .waiting => .waiting

end Airlock
