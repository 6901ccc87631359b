import Airlock.Client.Waiting
import Airlock.Peer.Basic

/-!
# Hosts

A host owns a link: its peer holds the far end, its client the near one. Starting it runs the peer
and the loop of the client side by side. When the peer ends the sink is closed, and when the loop
ends the queue is, so neither outlives the other for long. A host starts once.
-/

set_option autoImplicit false

namespace Airlock

structure Host (τ : Type) where
  peer : Peer τ
  codec : Codec
  state : τ
  client : Client
  started : Bool := false

/-- A started host: the results of the peer and of the loop, as far as they ended. -/
structure Progress where
  served? : Option (Except Error Unit) := none
  drained? : Option (Except Error Unit) := none

namespace Host

variable {τ : Type}

/-- A host with a link of its own for a peer that begins in the given state. -/
def create (peer : Peer τ) (state : τ) (config : Config) : Host τ where
  peer
  codec := config.codec
  state
  client := Client.create config (Link.create config.highWaterMark)

/-- Begins to run, unless that was done before. The loop of the client may be running already. -/
def begin (host : Host τ) : Except Error (Progress × Host τ) :=
  if host.started then .error .alreadyStarted
  else
    let host := { host with started := true }
    match host.client.startDrain with
    | .ok client => .ok ({}, { host with client })
    | .error error => .ok ({ drained? := some (.error error) }, host)

/-- Lets the peer go as far as it can. At its end the sink is closed. -/
def serve (host : Host τ) (progress : Progress) : Progress × Host τ :=
  if progress.served?.isSome then (progress, host)
  else
    match host.peer.run host.codec host.state host.client.link with
    | (.ready result, state, link) =>
      ({ progress with served? := some result },
        { host with state, client := { host.client with link := link.closeSink.dropPeer } })
    | (.waiting, state, link) =>
      (progress, { host with state, client := { host.client with link } })

/-- Lets the loop of the client go as far as it can. -/
def drain (host : Host τ) (progress : Progress) : Progress × Host τ :=
  if progress.drained?.isSome then (progress, host)
  else
    match host.client.drain with
    | (.ready result, client) => ({ progress with drained? := some result }, { host with client })
    | (.waiting, client) => (progress, { host with client })

/-- The result of a run: the error of the peer, else what the loop came to. -/
def result? (progress : Progress) : Option (Except Error Unit) :=
  match progress.served?, progress.drained? with
  | some served, some drained => some (served.bind fun _ => drained)
  | _, _ => none

/-- What the two loops can see of each other: how many units both channels hold, and which of the
loops ended. -/
def trace (host : Host τ) (progress : Progress) : Nat × Nat × Bool × Bool :=
  (host.client.link.queue.size, host.client.link.sink.size,
    progress.served?.isSome, progress.drained?.isSome)

/-- Lets both go once, the peer first. Tells whether anything moved. -/
def round (host : Host τ) (progress : Progress) : Bool × Progress × Host τ :=
  let (served, between) := host.serve progress
  let (drained, after) := between.drain served
  (host.trace progress ≠ between.trace served || between.trace served ≠ after.trace drained,
    drained, after)

/-- Goes on with rounds until one moves nothing, for so many rounds at most. Tells whether anything
moved. -/
def rounds : Nat → Host τ → Progress → Bool × Progress × Host τ
  | 0, host, progress => (false, progress, host)
  | limit + 1, host, progress =>
    match host.round progress with
    | (false, progress, host) => (false, progress, host)
    | (true, progress, host) =>
      let (_, progress, host) := rounds limit host progress
      (true, progress, host)

/-- Rounds that a run takes at most: one for every unit that the channels hold already, and far more
than a conversation needs for the units that come of them. -/
def patience (host : Host τ) : Nat :=
  host.client.link.queue.size + host.client.link.sink.size + Schedule.patience

def run (host : Host τ) (progress : Progress) : Bool × Progress × Host τ :=
  rounds host.patience host progress

/-- Stops a run that is not over: the end of the peer is dropped, and with it both channels are
closed. The loop of the client does not start again. -/
def abandon (host : Host τ) : Host τ :=
  let link := host.client.link.dropPeer
  { host with client := { host.client with
      link := { queue := link.queue.close.2, sink := link.sink.close.2 } } }

end Host

end Airlock
