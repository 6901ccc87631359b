import Airlock.Rpc.Id

/-!
# Requests in flight

The table holds the identifiers of requests that wait for a response, in order and each once. A
closed table is empty and takes no more.
-/

set_option autoImplicit false

namespace Airlock

structure InFlight where
  ids : List Id := []
  closed : Bool := false

namespace InFlight

def add? (table : InFlight) (id : Id) : Option InFlight :=
  if table.closed then none else some { table with ids := id.insertOrdered table.ids }

def contains (table : InFlight) (id : Id) : Bool :=
  id ∈ table.ids

def remove (table : InFlight) (id : Id) : InFlight :=
  { table with ids := table.ids.filter (· ≠ id) }

def close (_table : InFlight) : InFlight :=
  { ids := [], closed := true }

end InFlight

end Airlock
