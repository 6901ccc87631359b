import Airlock.Channel.Queue
import Airlock.Channel.Sink

/-!
# Links across the boundary

A link is a queue into the core and a sink out of it. The client's end puts units into the queue and
takes them out of the sink; the peer's end does the reverse. Either end is one handle on both
channels, so dropping its last copy closes both.
-/

set_option autoImplicit false

namespace Airlock

structure Link where
  queue : Queue
  sink : Sink

namespace Link

def create (highWaterMark : Nat) : Link :=
  ⟨{}, Sink.create highWaterMark⟩

/-! ## The client's end -/

def send (link : Link) (unit : Bytes) : Except Error Link :=
  (link.queue.enqueue unit).map fun queue => { link with queue }

def receive (link : Link) : Poll (Except Error (Option Bytes)) × Link :=
  let (polled, sink) := link.sink.read
  (polled, { link with sink })

/-- A unit that is received was the first one in the sink. -/
theorem units_receive {link rest : Link} {unit : Bytes}
    (received : link.receive = (.ready (.ok (some unit)), rest)) :
    link.sink.units = unit :: rest.sink.units := by
  simp only [receive, Prod.mk.injEq] at received
  obtain ⟨polled, rfl⟩ := received
  exact Sink.units_read polled

def close (link : Link) : Link :=
  ⟨link.queue.close.2, link.sink.close.2⟩

def addClient (link : Link) : Link :=
  ⟨link.queue.addProducer, link.sink.addReader⟩

def dropClient (link : Link) : Link :=
  ⟨link.queue.dropProducer, link.sink.dropReader⟩

/-! ## The peer's end -/

def pull (link : Link) : Poll (Option Bytes) × Link :=
  let (polled, queue) := link.queue.pull
  (polled, { link with queue })

def write (link : Link) (unit : Bytes) : Poll (Except Error Unit) × Link :=
  let (polled, sink) := link.sink.write unit
  (polled, { link with sink })

/-- A unit that is pulled was the first one in the queue. -/
theorem units_pull {link rest : Link} {unit : Bytes}
    (pulled : link.pull = (.ready (some unit), rest)) :
    link.queue.units = unit :: rest.queue.units := by
  simp only [pull, Prod.mk.injEq] at pulled
  obtain ⟨polled, rfl⟩ := pulled
  exact Queue.units_pull polled

/-- Finding the end leaves the queue as it is. -/
theorem queue_of_pull_none {link rest : Link} (pulled : link.pull = (.ready none, rest)) :
    rest.queue = link.queue := by
  simp only [pull, Prod.mk.injEq] at pulled
  obtain ⟨polled, rfl⟩ := pulled
  exact Queue.pull_none polled

theorem queue_of_write {link rest : Link} {unit : Bytes} {polled : Poll (Except Error Unit)}
    (written : link.write unit = (polled, rest)) : rest.queue = link.queue := by
  simp only [write, Prod.mk.injEq] at written
  rw [← written.2]

/-- Ends the stream to the client; what is in the sink can still be read. -/
def closeSink (link : Link) : Link :=
  { link with sink := link.sink.close.2 }

def abort (link : Link) (reason : String) : Link :=
  { link with sink := link.sink.abort reason }

def addPeer (link : Link) : Link :=
  ⟨link.queue.addReader, link.sink.addWriter⟩

def dropPeer (link : Link) : Link :=
  ⟨link.queue.dropReader, link.sink.dropWriter⟩

end Link

end Airlock
