import Airlock.Proofs.Client.Trail

/-!
# The world around a client

A world is a client with its loop over incoming units and the handles that are awaited. Acts happen
to it one at a time, in any order: programs of calls, single steps of the loop, polls of awaited
handles at any moment, the orderly end, and whatever the far end and other copies of the near end do
to the link. What the peer writes is not restricted, so neither are the units that come in.
-/

set_option autoImplicit false

namespace Airlock

/-- What others than the client do to its link. -/
inductive LinkMove where
  | pull
  | takeAll
  | write (unit : Bytes)
  | closeSink
  | abort (reason : String)
  | addPeer
  | dropPeer
  | addClient
  | dropClient

def Link.after (link : Link) : LinkMove → Link
  | .pull => link.pull.2
  | .takeAll => { link with queue := link.queue.takeAll.2 }
  | .write unit => (link.write unit).2
  | .closeSink => link.closeSink
  | .abort reason => link.abort reason
  | .addPeer => link.addPeer
  | .dropPeer => link.dropPeer
  | .addClient => link.addClient
  | .dropClient => link.dropClient

namespace Client

/-- An awaited handle; tells whether the orderly end goes on with its result. -/
structure Waiter where
  awaited : Awaited
  ends : Bool := false

structure World (π : Type := Program) where
  client : Client π
  looping : Bool := false
  waiters : List Waiter := []

inductive Act (π : Type := Program) where
  | call (program : π)
  | start
  | intake
  | cancel
  /-- a held handle begins to be awaited -/
  | await (id : Id)
  | shutdown
  | poll (id : Id) (now : Duration)
  | forget (id : Id)
  | link (move : LinkMove)

variable {π : Type}

def pollTrail (client : Client π) (now : Duration) (awaited : Awaited) : Trail π :=
  match client.pollAwaited now awaited with
  | (.ready result, _, after) =>
    (match client.result? awaited.id, client.timeout? with
      | none, some timeout => [(.expired awaited.id timeout, after)]
      | _, _ => []) ++ [(.resolved awaited.id result, after)]
  | (.waiting, _, _) => []

/-- The trail of the orderly end, once the peer answered. -/
def finishTrail (client : Client π) (answer : Except Error Value) : Trail π :=
  match answer with
  | .ok _ => client.notifyTrail .exit ++ (client.notifyIfOpen .exit).closeTrail
  | .error _ => client.closeTrail

namespace World

def create (config : Config) : World π :=
  { client := Client.create config (Link.create config.highWaterMark) }

/-- The world with another link. -/
def linked (world : World π) (link : Link) : World π :=
  { world with client := { world.client with link } }

def waiter? (world : World π) (id : Id) : Option Waiter :=
  world.waiters.find? (·.awaited.id = id)

/-- The world without the waiters on a handle. -/
def dismiss (world : World π) (id : Id) : World π :=
  { world with waiters := world.waiters.filter (·.awaited.id ≠ id) }

def pollWaiter (world : World π) (now : Duration) (waiter : Waiter) : World π :=
  match world.client.pollAwaited now waiter.awaited with
  | (.ready result, _, after) =>
    let finished := if waiter.ends then (after.finishShutdown result).2 else after
    { world with client := finished }.dismiss waiter.awaited.id
  | (.waiting, later, after) =>
    { world with
      client := after
      waiters := world.waiters.map fun other =>
        if other.awaited.id = waiter.awaited.id then { other with awaited := later } else other }

def waiterTrail (world : World π) (now : Duration) (waiter : Waiter) : Trail π :=
  world.client.pollTrail now waiter.awaited ++
    match world.client.pollAwaited now waiter.awaited with
    | (.ready result, _, after) => if waiter.ends then after.finishTrail result else []
    | (.waiting, _, _) => []

/-- What an act does that runs no program. -/
def manage (world : World π) : Act π → World π
  | .call _ | .intake => world
  | .start =>
    match world.client.startDrain with
    | .ok started => { world with client := started, looping := true }
    | .error _ => world
  | .cancel => { world with looping := false }
  | .await id =>
    if world.client.handles.contains id then
      { world with
        client := (world.client.release id).2
        waiters := world.waiters ++ [{ awaited := { id } }] }
    else world
  | .shutdown =>
    match world.client.beginShutdown with
    | (.ok awaited, after) =>
      { world with client := after, waiters := world.waiters ++ [{ awaited, ends := true }] }
    | (.error _, after) => { world with client := after }
  | .poll id now =>
    match world.waiter? id with
    | some waiter => world.pollWaiter now waiter
    | none => world
  | .forget id => world.dismiss id
  | .link move =>
    { world with client := { world.client with link := world.client.link.after move } }

def manageTrail (world : World π) : Act π → Trail π
  | .call _ | .intake | .cancel => []
  | .start =>
    match world.client.startDrain with
    | .ok started => [(.quiet, started)]
    | .error _ => []
  | .await id =>
    if world.client.handles.contains id then [(.awaited id, (world.client.release id).2)] else []
  | .shutdown =>
    world.client.requestTrail .shutdown ++
      match world.client.request .shutdown with
      | (.ok id, sent) => [(.awaited id, sent)]
      | (.error _, after) => after.closeTrail
  | .poll id now =>
    match world.waiter? id with
    | some waiter => world.waiterTrail now waiter
    | none => []
  | .forget id => [(.forgotten id, world.client)]
  | .link move =>
    [(.quiet, { world.client with link := world.client.link.after move })]

def act (world : World) : Act → World
  | .call program => { world with client := (perform program world.client).2 }
  | .intake =>
    if world.looping then
      match world.client.step with
      | (.ended _, after) => { world with client := after, looping := false }
      | (_, after) => { world with client := after }
    else world
  | next => world.manage next

def actTrail (world : World) : Act → Trail
  | .call program => performTrail program world.client
  | .intake => if world.looping then world.client.stepTrail else []
  | next => world.manageTrail next

def run (world : World) (acts : List Act) : World :=
  acts.foldl act world

def trail : World → List Act → Trail
  | _, [] => []
  | world, next :: rest => world.actTrail next ++ trail (world.act next) rest

theorem run_append (world : World) (first second : List Act) :
    world.run (first ++ second) = (world.run first).run second :=
  List.foldl_append

theorem trail_append (world : World) (first second : List Act) :
    world.trail (first ++ second) = world.trail first ++ (world.run first).trail second := by
  induction first generalizing world with
  | nil => rfl
  | cons next rest ih =>
    rw [List.cons_append, trail, ih, trail, List.append_assoc]
    rfl

end World

end Client

end Airlock
