import Airlock.Document.Handlers
import Airlock.Peer.Responder
import Airlock.Peer.Script
import Airlock.Probe

/-!
# Sample peers

One kind of peers that takes in all the peers a session can be tried out with: the two cores, a peer
that echoes params, one that only pulls, and scripts.
-/

set_option autoImplicit false

namespace Airlock.Gallery

/-- Answers every request with its params; a refused reply is a failure. -/
def echo : Responder Unit where
  respond
    | .request id _ params, core => (some (.response id (.ok params)), core)
    | _, core => (none, core)
  refused := .error

def idle : Responder Unit where
  respond _ core := (none, core)
  refused := .error

abbrev Sample :=
  (Responding Document.Store ⊕ Responding Value) ⊕ ((Responding Unit ⊕ Responding Unit)
    ⊕ Script.Playing)

def peer : Peer Sample :=
  .either (.either Document.handlers.peer Probe.handlers.peer)
    (.either (.either echo.peer idle.peer) Script.peer)

def document : Sample := .inl (.inl { core := {} })

def probe : Sample := .inl (.inr { core := .null })

def echoing : Sample := .inr (.inl (.inl { core := () }))

def idling : Sample := .inr (.inl (.inr { core := () }))

def script (playing : Script.Playing) : Sample := .inr (.inr playing)

def name : Sample → String
  | .inl _ => "router"
  | .inr (.inl (.inl _)) => "echo"
  | .inr (.inl (.inr _)) => "idle"
  | .inr (.inr playing) => playing.name

end Airlock.Gallery
