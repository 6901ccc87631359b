import Airlock.Peer.Basic
import Airlock.Handlers

/-!
# Responders

A responder is a peer that acts on one message after the other and may write a reply to each; units
that are no messages are skipped. It ends when the queue does, or when a reply is refused. Handlers
are served in this way: requests are answered in the order of the queue, notifications of methods
that have handlers are handled without a reply, and responses are skipped.
-/

set_option autoImplicit false

namespace Airlock

inductive Stage where
  | pulling
  | replying (reply : Bytes)
  | finished (result : Except Error Unit)

structure Responding (σ : Type) where
  core : σ
  stage : Stage := .pulling

/-- How messages are acted on, and what a refused reply means for the result. -/
structure Responder (σ : Type) where
  respond : Message → σ → Option Message × σ
  refused : Error → Except Error Unit

namespace Responder

variable {σ : Type}

/-- Acts on the next unit, or on the end of the queue. -/
def takeUp (responder : Responder σ) (codec : Codec) (core : σ) : Option Bytes → Responding σ
  | none => ⟨core, .finished (.ok ())⟩
  | some unit =>
    match codec.decode unit with
    | .error _ => ⟨core, .pulling⟩
    | .ok message =>
      match responder.respond message core with
      | (some reply, core) => ⟨core, .replying (codec.encode reply)⟩
      | (none, core) => ⟨core, .pulling⟩

def afterReply (responder : Responder σ) (core : σ) : Except Error Unit → Responding σ
  | .ok () => ⟨core, .pulling⟩
  | .error error => ⟨core, .finished (responder.refused error)⟩

def peer (responder : Responder σ) : Peer (Responding σ) where
  move codec state :=
    match state.stage with
    | .pulling => .pull (responder.takeUp codec state.core)
    | .replying reply => .write reply (responder.afterReply state.core)
    | .finished result => .finish result
  rank state :=
    match state.stage with
    | .replying _ => 2
    | .pulling => 1
    | .finished _ => 0
  rank_pull {_ state _} move := by
    split at move <;> simp_all
    simp [← move, takeUp]
  rank_write {_ state _ _} move result := by
    split at move <;> simp_all
    cases result <;> simp [← move.2, afterReply]
  rank_close {_ state _} move := by
    split at move <;> cases move
  rank_abort {_ state _ _} move := by
    split at move <;> cases move

end Responder

namespace Handlers

variable {σ : Type}

def respond (handlers : Handlers σ) : Message → σ → Option Message × σ
  | .request id method params, core =>
    let (outcome, core) := handlers.answer method params core
    (some (.response id outcome), core)
  | .notification method params, core =>
    (none, if handlers.contains method then (handlers.answer method params core).2 else core)
  | .response _ _, core => (none, core)

/-- Serves handlers. That nobody reads the replies any more is no failure. -/
def responder (handlers : Handlers σ) : Responder σ where
  respond := handlers.respond
  refused error := if error.isTerminal then .ok () else .error error

def peer (handlers : Handlers σ) : Peer (Responding σ) :=
  handlers.responder.peer

end Handlers

end Airlock
