import Airlock.Rpc.Message

/-!
# Handlers

A core answers requests by method. Its handlers act on one state that they share: a handler takes
the params and the state and gives an outcome and the next state, without waiting. A method inserted
again is answered by its last handler.
-/

set_option autoImplicit false

namespace Airlock

/-- Taking the entries of one key out does not touch those of another. -/
theorem lookup_filter_other {α : Type} (entries : List (String × α)) {key other : String}
    (different : other ≠ key) :
    (entries.filter (·.1 ≠ key)).lookup other = entries.lookup other := by
  have differ : (other == key) = false := beq_false_of_ne different
  induction entries with
  | nil => rfl
  | cons entry rest ih =>
    by_cases here : entry.1 = key
    · rw [List.filter_cons_of_neg (by simp [here]), ih, List.lookup_cons, here, differ]
    · rw [List.filter_cons_of_pos (by simp [here]), List.lookup_cons, List.lookup_cons, ih]

/-- Answers the params of a request on the state of the core. -/
abbrev Handler (σ : Type) := Value → σ → Outcome × σ

/-- A handler for params of a shape. Params of another shape are invalid. -/
def Handler.typed {σ α : Type} (decoder : Json.Decoder α) (answer : α → σ → Outcome × σ) :
    Handler σ := fun params state =>
  match decoder params with
  | .ok given => answer given state
  | .error reason => (.error (.invalidParams reason.message), state)

/-- Handlers by method, each method once. -/
structure Handlers (σ : Type) where
  entries : List (String × Handler σ)

namespace Handlers

variable {σ : Type}

def empty : Handlers σ :=
  ⟨[]⟩

def get? (handlers : Handlers σ) (method : String) : Option (Handler σ) :=
  handlers.entries.lookup method

/-- Adds the handler of a method, in place of an earlier one. -/
def insert (handlers : Handlers σ) (method : String) (handler : Handler σ) : Handlers σ :=
  ⟨handlers.entries.filter (·.1 ≠ method) ++ [(method, handler)]⟩

def contains (handlers : Handlers σ) (method : String) : Bool :=
  (handlers.get? method).isSome

def methods (handlers : Handlers σ) : List String :=
  handlers.entries.map (·.1)

/-- The answer to a request, and the next state. A method without a handler changes nothing. -/
def answer (handlers : Handlers σ) (method : String) (params : Value) (state : σ) : Outcome × σ :=
  match handlers.get? method with
  | some handler => handler params state
  | none => (.error (.methodNotFound method), state)

end Handlers

end Airlock
