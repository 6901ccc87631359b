import Airlock.Proofs.Client.Handshake
import Airlock.Proofs.Client.Machine

/-!
# Programs settle

A machine whose callbacks are programs comes to rest after every act, exactly where the functions
of the client end: call by call it makes the same trail as the function that performs the whole
program, the whole batch, the whole drain.
-/

set_option autoImplicit false

namespace Airlock.Client

namespace Machine

variable (machine : Machine Unit Program)

/-- The machine with a client and callbacks under way. -/
def holding (client : Client) (running : List (Running Program)) : Machine Unit Program :=
  { machine.become client with running }

/-- The machine with a client whose hooks are drained. -/
def draining (client : Client) (drain : Drain Program) (running : List (Running Program) := []) :
    Machine Unit Program :=
  { machine.become client with running, drain? := some drain }

/-- The machine at rest with a world. -/
def resting (world : World) : Machine Unit Program :=
  { world, state := () }

/-- A step after which the machine comes to another one by itself, with a trail in all. -/
def Settles (step : Trail × Machine Unit Program) (trail : Trail) (last : Machine Unit Program) :
    Prop :=
  ∃ rest, step.2.Leads Program.behaviour rest last ∧ step.1 ++ rest = trail

private theorem Settles.done (trail : Trail) (last : Machine Unit Program) :
    Settles (trail, last) trail last :=
  ⟨[], .refl _ _, List.append_nil trail⟩

private theorem Settles.cons {step : Trail × Machine Unit Program} {trail : Trail}
    {last : Machine Unit Program} (settles : Settles step trail last)
    (entry : Occurrence × Client) :
    Settles (entry :: step.1, step.2) (entry :: trail) last := by
  obtain ⟨rest, leads, same⟩ := settles
  exact ⟨rest, leads, congrArg (entry :: ·) same⟩

end Machine

end Airlock.Client
