import Airlock.Client.Program

/-!
# Callbacks

A hook or a handler is code that calls the client. What counts of it is the call it makes next and,
for every answer, the code that goes on. A program is such code spread out as a tree; there a hook
always comes from inside the tree that registers it. A behaviour says of code of any kind what it
does next, so that a hook may register itself, or two hooks each other, and callbacks may share a
state of their own. Each callback by itself comes to an end; what comes of the hooks it registers
is left open.
-/

set_option autoImplicit false

namespace Airlock

/-- The next call of a callback, with the code that goes on. -/
inductive Client.Move (π : Type) where
  | finish (outcome : Outcome)
  | request (call : Call) (next : Except Error Id → π)
  | notify (call : Call) (next : Except Error Unit → π)
  | hook (body : π) (next : π)
  | onNotification (method : String) (handler : Value → π) (next : π)
  | onRequest (method : String) (handler : Value → π) (next : π)
  | takeEvents (next : List Event → π)
  | close (next : π)
  | phase (next : Phase → π)
  | pending (next : List Id → π)
  | release (id : Id) (next : Bool → π)
  | holds (id : Id) (next : Bool → π)
  | note (entry : Value) (next : π)

/-- Whether a callback may go on with some code. A hook or a handler that it registers is not code
with which it goes on itself. -/
def Client.Move.GoesOn {π : Type} (later : π) : Client.Move π → Prop
  | .finish _ => False
  | .request _ next => ∃ reply, later = next reply
  | .notify _ next => ∃ reply, later = next reply
  | .hook _ next | .onNotification _ _ next | .onRequest _ _ next | .close next | .note _ next =>
    later = next
  | .takeEvents next => ∃ events, later = next events
  | .phase next => ∃ current, later = next current
  | .pending next => ∃ ids, later = next ids
  | .release _ next | .holds _ next => ∃ held, later = next held

/-- What callbacks do, with a state that they share. Whatever a callback is answered, it makes only
so many calls of its own. -/
structure Behaviour (σ π : Type) where
  move : σ → π → Client.Move π × σ
  returns : WellFounded fun later now : σ × π =>
    later.1 = (move now.1 now.2).2 ∧ (move now.1 now.2).1.GoesOn later.2

namespace Program

def move : Program → Client.Move Program
  | .finish outcome => .finish outcome
  | .request call next => .request call next
  | .notify call next => .notify call next
  | .hook body next => .hook body next
  | .onNotification method handler next => .onNotification method handler next
  | .onRequest method handler next => .onRequest method handler next
  | .takeEvents next => .takeEvents next
  | .close next => .close next
  | .phase next => .phase next
  | .pending next => .pending next
  | .release id next => .release id next
  | .holds id next => .holds id next
  | .note entry next => .note entry next

/-- A program goes on with its branches only, and each path of the tree ends. -/
theorem goesOn_wellFounded :
    WellFounded fun later now : Program => now.move.GoesOn later := by
  refine ⟨fun program => ?_⟩
  induction program with
  | finish => exact ⟨_, fun _ none => none.elim⟩
  | request call next ih | notify call next ih => exact ⟨_, fun _ ⟨reply, here⟩ => here ▸ ih reply⟩
  | takeEvents next ih => exact ⟨_, fun _ ⟨events, here⟩ => here ▸ ih events⟩
  | phase next ih => exact ⟨_, fun _ ⟨current, here⟩ => here ▸ ih current⟩
  | pending next ih => exact ⟨_, fun _ ⟨ids, here⟩ => here ▸ ih ids⟩
  | release id next ih | holds id next ih => exact ⟨_, fun _ ⟨held, here⟩ => here ▸ ih held⟩
  | hook body next _ ih => exact ⟨_, fun _ here => here ▸ ih⟩
  | onNotification method handler next _ ih => exact ⟨_, fun _ here => here ▸ ih⟩
  | onRequest method handler next _ ih => exact ⟨_, fun _ here => here ▸ ih⟩
  | close next ih | note entry next ih => exact ⟨_, fun _ here => here ▸ ih⟩

/-- Programs as callbacks. They share no state. -/
def behaviour : Behaviour Unit Program where
  move _ program := (program.move, ())
  returns := Subrelation.wf (fun onward => onward.2) (InvImage.wf Prod.snd goesOn_wellFounded)

end Program

end Airlock
