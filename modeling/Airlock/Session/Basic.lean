import Airlock.Host

/-!
# Sessions

A session holds at most one host. The first peer that it is given makes the host; peers that
come later are dropped. Running the host to its end through the session terminates the session,
unless somebody else runs the host.
-/

set_option autoImplicit false

namespace Airlock

inductive Slot (τ : Type) where
  | empty
  | running (host : Host τ)
  | terminated (host : Host τ)

structure Session (τ : Type) where
  config : Config
  slot : Slot τ := .empty

namespace Session

variable {τ : Type}

def stateName (session : Session τ) : String :=
  match session.slot with
  | .empty => "Uninitialized"
  | .running _ => "Running"
  | .terminated _ => "Terminated"

def host? (session : Session τ) : Option (Host τ) :=
  match session.slot with
  | .empty => none
  | .running host | .terminated host => some host

/-- The session with its host changed, if there is one. -/
def updateHost (session : Session τ) (f : Host τ → Host τ) : Session τ :=
  match session.slot with
  | .empty => session
  | .running host => { session with slot := .running (f host) }
  | .terminated host => { session with slot := .terminated (f host) }

/-- The session with the client of its host changed, if there is one. -/
def updateClient (session : Session τ) (f : Client → Client) : Session τ :=
  session.updateHost fun host => { host with client := f host.client }

/-- Gives the session a peer. Only the first one counts. -/
def offer (session : Session τ) (peer : Peer τ) (state : τ) : Host τ × Session τ :=
  match session.host? with
  | some host => (host, session)
  | none =>
    let host := Host.create peer state session.config
    (host, { session with slot := .running host })

def begin (session : Session τ) : Except Error (Progress × Session τ) :=
  match session.host? with
  | none => .error .notInitialized
  | some host =>
    (host.begin).map fun (progress, host) =>
      (progress, session.updateHost fun _ => host)

def terminate (session : Session τ) : Session τ :=
  match session.slot with
  | .running host => { session with slot := .terminated host }
  | _ => session

def finish (session : Session τ) (result : Except Error Unit) : Session τ :=
  match result with
  | .error .alreadyStarted => session
  | _ => session.terminate

end Session

end Airlock
