import Airlock.Client.Callback
import Airlock.Proofs.Client.Runs

/-!
# A client with its callbacks, call by call

The machine runs the callbacks of a client one call at a time, on a stack: a hook that is registered
after the handshake starts on top of the callback that registers it. While hooks are drained, the
machine holds the batch that is due and the outcome that is handed over at the end. Callbacks follow
any behaviour, so a run of the machine need not settle.
-/

set_option autoImplicit false

namespace Airlock.Client

variable {σ π : Type}

/-! ## Callbacks under way -/

/-- What a callback comes to with its next call. -/
inductive Onward (π : Type) where
  | finished (outcome : Outcome)
  | goes (next : π)
  /-- a hook runs first -/
  | nests (hook : π) (next : π)

/-- The next call of a callback: what happens, the client afterwards, and what comes next. -/
def carryOut (client : Client π) : Move π → Trail π × Client π × Onward π
  | .finish outcome => ([], client, .finished outcome)
  | .request call next =>
    match client.request call with
    | (.ok id, sent) =>
      (client.requestTrail call ++ [(.held id, sent.hold id)], sent.hold id, .goes (next (.ok id)))
    | (.error error, after) => (client.requestTrail call, after, .goes (next (.error error)))
  | .notify call next =>
    match client.notify call with
    | .ok sent => ([(.notified call, sent)], sent, .goes (next (.ok ())))
    | .error error => ([], client, .goes (next (.error error)))
  | .hook body next =>
    match client.phase with
    | .uninitialized | .awaiting =>
      ([(.registered body, client.queueing body)], client.queueing body, .goes next)
    | .initialized =>
      ([(.registered body, client), (.began body true, client)], client, .nests body next)
    | .closed => ([(.registered body, client)], client, .goes next)
  | .onNotification method handler next =>
    let after :=
      { client with notificationHandlers := (method, handler) :: client.notificationHandlers }
    ([(.quiet, after)], after, .goes next)
  | .onRequest method handler next =>
    let after := { client with requestHandlers := (method, handler) :: client.requestHandlers }
    ([(.quiet, after)], after, .goes next)
  | .takeEvents next =>
    let after := { client with events := client.events.takeAll.2 }
    ([(.quiet, after)], after, .goes (next client.events.takeAll.1))
  | .close next => (client.closeTrail, client.close, .goes next)
  | .phase next => ([], client, .goes (next client.phase))
  | .pending next => ([], client, .goes (next client.pending.ids))
  | .release id next =>
    ([(.released id, (client.release id).2)], (client.release id).2,
      .goes (next (client.release id).1))
  | .holds id next => ([], client, .goes (next (client.handles.contains id)))
  | .note entry next => ([(.quiet, client.note entry)], client.note entry, .goes next)

/-- The client with an open handshake done. -/
def opened (client : Client π) : Client π :=
  if client.phase = .awaiting then { client with phase := .initialized } else client

/-- Why a callback was called. -/
inductive Purpose (π : Type) where
  | plain
  /-- to answer a request of the peer -/
  | answer (id : Id)
  | hook (hook : π)

def Purpose.hooks : Purpose π → List π
  | .hook body => [body]
  | _ => []

/-- What happens once a callback has come to its end. -/
def conclude (client : Client π) (outcome : Outcome) : Purpose π → Trail π × Client π
  | .plain => ([], client)
  | .answer id => (client.replyTrail id outcome, client.sendIfOpen (.response id outcome))
  | .hook hook => ([(.ended hook, client)], client)

/-- A callback under way, with the code that is left of it. -/
structure Running (π : Type) where
  rest : π
  purpose : Purpose π := .plain

def Running.hooks (now : Running π) : List π :=
  now.purpose.hooks

/-- A drain of hooks under way, and the response that began it. -/
structure Drain (π : Type) where
  id : Id
  value : Value
  waited : Bool
  /-- hooks of the batch that did not start yet -/
  due : List π := []

/-- The last occurrence of the response: its outcome is handed over, or nobody waited for it. -/
def Drain.last (drain : Drain π) : Occurrence π :=
  if drain.waited then .delivered drain.id (.ok drain.value) else .orphaned drain.id

structure Machine (σ π : Type) where
  world : World π
  /-- what the callbacks share -/
  state : σ
  /-- callbacks under way, the innermost first -/
  running : List (Running π) := []
  drain? : Option (Drain π) := none

namespace Machine

def create (config : Config) (state : σ) : Machine σ π :=
  { world := World.create config, state }

variable (machine : Machine σ π)

def client : Client π :=
  machine.world.client

/-- The machine with another client. -/
def become (client : Client π) : Machine σ π :=
  { machine with world := { machine.world with client } }

/-- Whether no callback is under way and no hook is drained. -/
def idle : Bool :=
  machine.running.isEmpty && machine.drain?.isNone

def due : List π :=
  match machine.drain? with
  | some drain => drain.due
  | none => []

/-! ## One step -/

/-- The innermost callback goes on by one call. -/
def proceed (now : Running π) (outer : List (Running π)) (move : Move π) :
    Trail π × Machine σ π :=
  match machine.client.carryOut move with
  | (trail, after, .goes next) =>
    (trail, { machine.become after with running := { now with rest := next } :: outer })
  | (trail, after, .nests hook next) =>
    (trail, { machine.become after with
      running := { rest := hook, purpose := .hook hook } :: { now with rest := next } :: outer })
  | (trail, after, .finished outcome) =>
    let (last, final) := after.conclude outcome now.purpose
    (trail ++ last, { machine.become final with running := outer })

/-- The drain goes on while no callback is under way: the next hook of the batch starts, or the
hooks that wait become the batch. When none is left the handshake is done and its outcome is handed
over. -/
def drainOn (drain : Drain π) : Trail π × Machine σ π :=
  let client := machine.client
  match drain.due with
  | hook :: rest =>
    ([(.began hook false, client)],
      { machine with
        running := [{ rest := hook, purpose := .hook hook }]
        drain? := some { drain with due := rest } })
  | [] =>
    if client.hooks = [] then
      let final := client.opened.handingOver drain.id (.ok drain.value) drain.waited
      ((if client.phase = .awaiting then [(.opened, client.opened)] else []) ++
          [(drain.last, final)],
        { machine.become final with drain? := none })
    else
      let taken := { client with hooks := [] }
      ([(.gathered client.hooks, taken)],
        { machine.become taken with drain? := some { drain with due := client.hooks } })

/-- The machine goes on by one step. It stays as it is when nothing is under way. -/
def goOn (code : Behaviour σ π) : Trail π × Machine σ π :=
  match machine.running with
  | now :: outer =>
    let moved := code.move machine.state now.rest
    { machine with state := moved.2 }.proceed now outer moved.1
  | [] =>
    match machine.drain? with
    | some drain => machine.drainOn drain
    | none => ([], machine)

theorem drainOn_due (drain : Drain π) {hook : π} {rest : List π} (next : drain.due = hook :: rest) :
    machine.drainOn drain = ([(.began hook false, machine.client)],
      { machine with
        running := [{ rest := hook, purpose := .hook hook }]
        drain? := some { drain with due := rest } }) := by
  rw [drainOn, next]

theorem drainOn_some (drain : Drain π) (free : drain.due = []) (some : machine.client.hooks ≠ []) :
    machine.drainOn drain =
      ([(.gathered machine.client.hooks, { machine.client with hooks := [] })],
        { machine.become { machine.client with hooks := [] } with
          drain? := .some { drain with due := machine.client.hooks } }) := by
  rw [drainOn, free]
  exact if_neg some

theorem drainOn_none (drain : Drain π) (free : drain.due = []) (none : machine.client.hooks = []) :
    machine.drainOn drain =
      ((if machine.client.phase = .awaiting then [(.opened, machine.client.opened)] else []) ++
          [(drain.last,
            machine.client.opened.handingOver drain.id (.ok drain.value) drain.waited)],
        { machine.become
            (machine.client.opened.handingOver drain.id (.ok drain.value) drain.waited) with
          drain? := .none }) := by
  rw [drainOn, free]
  exact if_pos none

theorem goOn_running (code : Behaviour σ π) {now : Running π} {outer : List (Running π)}
    (running : machine.running = now :: outer) :
    machine.goOn code =
      { machine with state := (code.move machine.state now.rest).2 }.proceed now outer
        (code.move machine.state now.rest).1 := by
  obtain ⟨world, state, _, drain?⟩ := machine
  obtain rfl : _ = now :: outer := running
  rfl

theorem goOn_draining (code : Behaviour σ π) {drain : Drain π} (running : machine.running = [])
    (drains : machine.drain? = some drain) : machine.goOn code = machine.drainOn drain := by
  obtain ⟨world, state, _, _⟩ := machine
  obtain rfl : _ = [] := running
  obtain rfl : _ = some drain := drains
  rfl

theorem idle_iff {machine : Machine σ π} :
    machine.idle = true ↔ machine.running = [] ∧ machine.drain? = none := by
  simp [idle]

private theorem goOn_idle (code : Behaviour σ π) (idle : machine.idle = true) :
    machine.goOn code = ([], machine) := by
  obtain ⟨world, state, _, _⟩ := machine
  obtain ⟨rfl, rfl⟩ := idle_iff.mp idle
  rfl

/-! ## Acts -/

/-- Acts on a response. After a success of the outstanding handshake the peer is told, as far as it
can be, and the hooks begin to be drained; with any other response nothing is left to do. -/
def respond (id : Id) (outcome : Outcome) : Trail π × Machine σ π :=
  let client := machine.client
  let waited := client.pending.contains id
  let left := client.leaving id
  let last : Occurrence π := if waited then .delivered id outcome else .orphaned id
  if left.handshake? = some id then
    match outcome with
    | .ok value =>
      let settled := { left with handshake? := none }
      let told := if settled.sendsInitialized then settled.notifyIfOpen .handshakeDone else settled
      ((.arrived id outcome waited, left) :: (.settled id, settled) :: settled.announceTrail,
        { machine.become told with drain? := some { id, value, waited } })
    | .error _ =>
      let open? := left.abandonHandshake id
      let final := open?.handingOver id outcome waited
      ([(.arrived id outcome waited, left), (.abandoned id, open?), (last, final)],
        machine.become final)
  else
    let final := left.handingOver id outcome waited
    ([(.arrived id outcome waited, left), (last, final)], machine.become final)

/-- Acts on a unit. The handler of a notification or a request is only begun here. -/
def dispatch (unit : Bytes) : Trail π × Machine σ π :=
  let client := machine.client
  match client.codec.decode unit with
  | .error error =>
    let noted := client.keepEvent (.decodeFailed error)
    ([(.quiet, noted)], machine.become noted)
  | .ok (.response id outcome) => machine.respond id outcome
  | .ok (.notification method params) =>
    match client.notificationHandlers.lookup method with
    | some handler => ([], { machine with running := [{ rest := handler params }] })
    | none => ([], machine)
  | .ok (.request id method params) =>
    match client.requestHandlers.lookup method with
    | some handler =>
      ([], { machine with running := [{ rest := handler params, purpose := .answer id }] })
    | none =>
      let outcome := .error (.methodNotFound method)
      (client.replyTrail id outcome, machine.become (client.sendIfOpen (.response id outcome)))

def intake : Trail π × Machine σ π :=
  let received := { machine.client with link := machine.client.link.receive.2 }
  match machine.client.link.receive.1 with
  | .waiting => ([(.quiet, received)], machine.become received)
  | .ready (.ok (some unit)) =>
    let dispatched := (machine.become received).dispatch unit
    ((.quiet, received) :: dispatched.1, dispatched.2)
  | .ready (.ok none) | .ready (.error _) =>
    ((.quiet, received) :: received.closeTrail,
      { machine with world := { machine.world with client := received.close, looping := false } })

/-- What an act does to an idle machine. A program of the near end is only begun here. -/
def take : Act π → Trail π × Machine σ π
  | .call program => ([], { machine with running := [{ rest := program }] })
  | .intake => if machine.world.looping then machine.intake else ([], machine)
  | act => (machine.world.manageTrail act, { machine with world := machine.world.manage act })

/-- The machine goes on, or takes an act if it is idle. -/
def turn (code : Behaviour σ π) : Option (Act π) → Trail π × Machine σ π
  | none => machine.goOn code
  | some act => if machine.idle then machine.take act else ([], machine)

def run (code : Behaviour σ π) (machine : Machine σ π) :
    List (Option (Act π)) → Trail π × Machine σ π
  | [] => ([], machine)
  | act? :: rest =>
    let next := machine.turn code act?
    let last := run code next.2 rest
    (next.1 ++ last.1, last.2)

/-- The machine goes on by so many steps, and no act happens. -/
def advance (code : Behaviour σ π) (machine : Machine σ π) : Nat → Trail π × Machine σ π
  | 0 => ([], machine)
  | count + 1 =>
    let next := machine.goOn code
    let last := advance code next.2 count
    (next.1 ++ last.1, last.2)

/-! ## Steps without acts -/

theorem run_append (code : Behaviour σ π) (machine : Machine σ π)
    (first second : List (Option (Act π))) :
    machine.run code (first ++ second) =
      ((machine.run code first).1 ++ ((machine.run code first).2.run code second).1,
        ((machine.run code first).2.run code second).2) := by
  induction first generalizing machine with
  | nil => rfl
  | cons act? rest ih =>
    rw [List.cons_append, run, run, ih]
    dsimp only
    rw [List.append_assoc]

theorem run_replicate (code : Behaviour σ π) (machine : Machine σ π) (count : Nat) :
    machine.run code (.replicate count none) = machine.advance code count := by
  induction count generalizing machine with
  | zero => rfl
  | succ count ih =>
    rw [List.replicate_succ, run, advance, ih]
    rfl

theorem advance_add (code : Behaviour σ π) (machine : Machine σ π) (first second : Nat) :
    machine.advance code (first + second) =
      ((machine.advance code first).1 ++ ((machine.advance code first).2.advance code second).1,
        ((machine.advance code first).2.advance code second).2) := by
  induction first generalizing machine with
  | zero => rw [Nat.zero_add]; rfl
  | succ first ih =>
    rw [Nat.succ_add, advance, advance, ih]
    dsimp only
    rw [List.append_assoc]

theorem advance_idle (code : Behaviour σ π) {machine : Machine σ π} (idle : machine.idle = true)
    (count : Nat) :
    machine.advance code count = ([], machine) := by
  induction count with
  | zero => rfl
  | succ count ih =>
    rw [advance, machine.goOn_idle code idle, ih]
    rfl

variable {machine}
variable {code : Behaviour σ π} {middle last : Machine σ π} {trail first second : Trail π}

/-- The machine comes to another one by itself, with a trail. -/
def Leads (code : Behaviour σ π) (machine : Machine σ π) (trail : Trail π)
    (last : Machine σ π) : Prop :=
  ∃ count, machine.advance code count = (trail, last)

theorem Leads.refl (code : Behaviour σ π) (machine : Machine σ π) : machine.Leads code [] machine :=
  ⟨0, rfl⟩

theorem Leads.step (goes : machine.goOn code = (first, middle))
    (leads : middle.Leads code second last) : machine.Leads code (first ++ second) last := by
  obtain ⟨count, advanced⟩ := leads
  exact ⟨count + 1, by rw [advance, goes, advanced]⟩

theorem Leads.single (goes : machine.goOn code = (trail, last)) :
    machine.Leads code trail last := by
  rw [← List.append_nil trail]
  exact .step goes (.refl _ _)

theorem Leads.append (before : machine.Leads code first middle)
    (after : middle.Leads code second last) : machine.Leads code (first ++ second) last := by
  obtain ⟨one, goes⟩ := before
  obtain ⟨two, further⟩ := after
  exact ⟨one + two, by rw [advance_add, goes, further]⟩

end Machine

end Airlock.Client
