import Airlock.Peer.Responder

/-!
# Exchanges

In an exchange a peer serves the units of a queue that is closed already, while a reader takes the
replies. Both go in turns, the peer first, each as far as it can. A reader that wants no more than
some number of replies closes the client's end as soon as it has them.
-/

set_option autoImplicit false

namespace Airlock

inductive Ending where
  | exhausted
  | stopped
  | failed (error : Error)

/-- The reader of an exchange: the replies so far, the newest first, and the end. -/
structure Replies where
  limit? : Option Nat
  units : List Bytes := []
  ending? : Option Ending := none

namespace Replies

def read (replies : Replies) (link : Link) : Replies × Link :=
  if replies.ending?.isSome then (replies, link)
  else if replies.limit?.any (· ≤ replies.units.length) then
    ({ replies with ending? := some .stopped }, link.close)
  else
    match _received : link.receive with
    | (.waiting, link) => (replies, link)
    | (.ready (.ok (some unit)), link) => read { replies with units := unit :: replies.units } link
    | (.ready (.ok none), link) => ({ replies with ending? := some .exhausted }, link)
    | (.ready (.error error), link) => ({ replies with ending? := some (.failed error) }, link)
termination_by link.sink.units.length
decreasing_by simp [Link.units_receive _received]

end Replies

structure Exchange (τ : Type) where
  state : τ
  link : Link
  served? : Option (Except Error Unit) := none
  replies : Replies

namespace Exchange

variable {τ : Type}

/-- Lets the peer go as far as it can. At its end it drops its end of the link. -/
def serve (peer : Peer τ) (codec : Codec) (exchange : Exchange τ) : Exchange τ :=
  if exchange.served?.isSome then exchange
  else
    match peer.run codec exchange.state exchange.link with
    | (.ready result, state, link) =>
      { exchange with state, link := link.dropPeer, served? := some result }
    | (.waiting, state, link) => { exchange with state, link }

def read (exchange : Exchange τ) : Exchange τ :=
  let (replies, link) := exchange.replies.read exchange.link
  { exchange with replies, link }

/-- Lets peer and reader go in turns, so many times. -/
def rounds (peer : Peer τ) (codec : Codec) : Nat → Exchange τ → Exchange τ
  | 0, exchange => exchange
  | count + 1, exchange => rounds peer codec count (exchange.serve peer codec).read

/-- The exchange of handlers whose state begins as given. Every turn of the handlers but the last
two takes up a unit, so the turns suffice. -/
def run {σ : Type} (handlers : Handlers σ) (core : σ) (codec : Codec) (link : Link)
    (limit? : Option Nat) : Exchange (Responding σ) :=
  rounds handlers.peer codec (link.queue.size + 2)
    { state := { core }, link, replies := { limit? } }

end Exchange

end Airlock
