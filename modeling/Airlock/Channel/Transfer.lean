import Airlock.Schedule
import Airlock.Channel.Link

/-!
# Suspended transfers

A transfer moves units through one channel of a link and may have to wait. While it waits it holds a
copy of the end it acts for, so that end outlives the drop of every other copy. A stream has no copy
of its own: it has taken the reader over.
-/

set_option autoImplicit false

namespace Airlock

inductive Transfer where
  | pull
  /-- the units taken so far, the newest first -/
  | stream (taken : List Bytes)
  | receive
  | write (unit : Bytes)

inductive Transfer.Result where
  | pulled (unit? : Option Bytes)
  | streamed (units : List Bytes)
  | received (result : Except Error (Option Bytes))
  | written (result : Except Error Unit)

namespace Transfer

def acquire (transfer : Transfer) (link : Link) : Link :=
  match transfer with
  | .pull | .write _ => link.addPeer
  | .receive => link.addClient
  | .stream _ => link

/-- Gives the copy back, at the end or when the transfer is cancelled. -/
def giveBack (transfer : Transfer) (link : Link) : Link :=
  match transfer with
  | .pull | .write _ | .stream _ => link.dropPeer
  | .receive => link.dropClient

def turn (transfer : Transfer) (link : Link) : Turn Transfer Result × Link :=
  let finish (result : Result) (link : Link) : Turn Transfer Result × Link :=
    (.finished result, transfer.giveBack link)
  match transfer with
  | .pull =>
    match link.pull with
    | (.ready unit?, link) => finish (.pulled unit?) link
    | (.waiting, link) => (.kept transfer false, link)
  | .stream taken =>
    let (units, queue) := link.queue.takeAll
    let link := { link with queue }
    let taken := units.reverse ++ taken
    if queue.closed then finish (.streamed taken.reverse) link
    else (.kept (.stream taken) !units.isEmpty, link)
  | .receive =>
    match link.receive with
    | (.ready result, link) => finish (.received result) link
    | (.waiting, link) => (.kept transfer false, link)
  | .write unit =>
    match link.write unit with
    | (.ready result, link) => finish (.written result) link
    | (.waiting, link) => (.kept transfer false, link)

end Transfer

end Airlock
