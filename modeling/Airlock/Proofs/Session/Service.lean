import Airlock.Peer.Responder
import Airlock.Proofs.Channel.Polls
import Airlock.Proofs.Client.World
import Airlock.Proofs.Session.Dialogue

/-!
# Handlers at the far end of a client

A service is a client, the link, and handlers that are served on the far end of it. Whatever happens
to the client, its loop and its handles, and every move of the handlers, is an act, and acts come in
any order. Nobody else has an end of the link.
-/

set_option autoImplicit false

namespace Airlock

variable {σ : Type}

/-! ## Handlers by themselves -/

/-- A handler that also notes each of its calls behind the earlier ones. -/
def Handler.logged (handler : Handler σ) (method : String) :
    Handler (σ × List (String × Value)) := fun params state =>
  let (outcome, core) := handler params state.1
  (outcome, core, state.2 ++ [(method, params)])

namespace Handlers

variable (handlers : Handlers σ)

/-- The core after the handlers acted on messages, one after the other. -/
def after (core : σ) (messages : List Message) : σ :=
  messages.foldl (fun core message => (handlers.respond message core).2) core

/-- A reply that the handlers give to one of the messages, in its turn. -/
def Replies (core : σ) (messages : List Message) (reply : Message) : Prop :=
  ∃ before message later, messages = before ++ message :: later ∧
    (handlers.respond message (handlers.after core before)).1 = some reply

/-- The call of a handler that a message leads to. -/
def call? : Message → Option (String × Value)
  | .request _ method params | .notification method params =>
    if handlers.contains method then some (method, params) else none
  | .response _ _ => none

def calls (messages : List Message) : List (String × Value) :=
  messages.filterMap handlers.call?

def logged : Handlers (σ × List (String × Value)) :=
  ⟨handlers.entries.map fun (method, handler) => (method, handler.logged method)⟩

variable {handlers} {core : σ} {messages : List Message} {reply : Message}

theorem after_append (first second : List Message) :
    handlers.after core (first ++ second) = handlers.after (handlers.after core first) second :=
  List.foldl_append

theorem Replies.append (replies : handlers.Replies core messages reply) (more : List Message) :
    handlers.Replies core (messages ++ more) reply := by
  obtain ⟨before, message, later, rfl, given⟩ := replies
  exact ⟨before, message, later ++ more, by simp, given⟩

theorem replies_last {message : Message}
    (given : (handlers.respond message (handlers.after core messages)).1 = some reply) :
    handlers.Replies core (messages ++ [message]) reply :=
  ⟨messages, message, [], rfl, given⟩

private theorem get?_logged (method : String) :
    handlers.logged.get? method = (handlers.get? method).map (·.logged method) := by
  unfold get? logged
  induction handlers.entries with
  | nil => rfl
  | cons entry rest ih =>
    rw [List.map_cons, List.lookup_cons, List.lookup_cons]
    cases same : method == entry.1 with
    | true =>
      rw [beq_iff_eq.mp same]
      rfl
    | false => exact ih

/-- Noting calls changes nothing of what the handlers answer. -/
theorem respond_logged (message : Message) (core : σ) (calls : List (String × Value)) :
    handlers.logged.respond message (core, calls) =
      ((handlers.respond message core).1, (handlers.respond message core).2,
        calls ++ (handlers.call? message).toList) := by
  cases message with
  | response id outcome => simp [respond, call?]
  | request id method params | notification method params =>
    cases known : handlers.get? method with
    | none => simp [respond, answer, call?, contains, get?_logged, known]
    | some handler => simp [respond, answer, call?, contains, get?_logged, known, Handler.logged]

theorem after_logged (messages : List Message) (core : σ) (calls : List (String × Value)) :
    handlers.logged.after (core, calls) messages =
      (handlers.after core messages, calls ++ handlers.calls messages) := by
  induction messages generalizing core calls with
  | nil => simp [after, Handlers.calls]
  | cons message rest ih =>
    have step := ih (handlers.respond message core).2 (calls ++ (handlers.call? message).toList)
    rw [after, List.foldl_cons, respond_logged]
    refine step.trans ?_
    rw [List.append_assoc, after, after, List.foldl_cons, Handlers.calls, Handlers.calls,
      List.filterMap_cons]
    cases handlers.call? message <;> rfl

end Handlers

/-! ## Services -/

structure Service (σ : Type) where
  world : Client.World
  router : Responding σ
  /-- the handlers are not served any more, and their end of the link is dropped -/
  gone : Bool := false

namespace Service

inductive Act where
  | near (act : Client.Act)
  | serve

def create (core : σ) (config : Config) : Service σ :=
  { world := Client.World.create config, router := { core } }

def client (service : Service σ) : Client :=
  service.world.client

variable (handlers : Handlers σ)

def act (service : Service σ) : Act → Service σ
  | .near (.link _) => service
  | .near act => { service with world := service.world.act act }
  | .serve =>
    match handlers.peer.advance service.client.codec service.router service.client.link with
    | .moved router link => { service with router, world := service.world.linked link }
    | .waiting => service
    | .finished _ =>
      if service.gone then service
      else { service with
        gone := true
        world := service.world.linked service.client.link.closeSink.dropPeer }

def moves (service : Service σ) : Act → List Client.Act
  | .near (.link _) => []
  | .near act => [act]
  | .serve =>
    match service.router.stage with
    | .pulling => [.link .pull]
    | .replying reply => [.link (.write reply)]
    | .finished _ => if service.gone then [] else [.link .closeSink, .link .dropPeer]

def run (service : Service σ) (acts : List Act) : Service σ :=
  acts.foldl (act handlers) service

def trail : Service σ → List Act → Client.Trail
  | _, [] => []
  | service, next :: rest =>
    service.world.trail (service.moves next) ++ trail (service.act handlers next) rest

variable {handlers}

theorem act_serve (service : Service σ) :
    service.act handlers .serve =
      match service.router.stage with
      | .pulling =>
        match service.client.link.pull with
        | (.ready unit?, link) =>
          { service with
            router := handlers.responder.takeUp service.client.codec service.router.core unit?
            world := service.world.linked link }
        | (.waiting, _) => service
      | .replying reply =>
        match service.client.link.write reply with
        | (.ready result, link) =>
          { service with
            router := handlers.responder.afterReply service.router.core result
            world := service.world.linked link }
        | (.waiting, _) => service
      | .finished _ =>
        if service.gone then service
        else { service with
          gone := true
          world := service.world.linked service.client.link.closeSink.dropPeer } := by
  rw [act, Peer.advance, Handlers.peer, Responder.peer]
  dsimp only
  cases service.router.stage with
  | pulling =>
    dsimp only
    rcases service.client.link.pull with ⟨_ | _, link⟩ <;> rfl
  | replying reply =>
    dsimp only
    rcases service.client.link.write reply with ⟨_ | _, link⟩ <;> rfl
  | finished result => rfl

private theorem world_act (service : Service σ) (next : Act) :
    (service.act handlers next).world = service.world.run (service.moves next) := by
  cases next with
  | near act => cases act <;> rfl
  | serve =>
    rw [act_serve, moves]
    cases service.router.stage with
    | pulling =>
      have act : service.world.run [.link .pull] =
          service.world.linked service.client.link.pull.2 := rfl
      dsimp only
      rw [act]
      rcases service.client.link.pull_cases with ⟨_, _, -, taken⟩ | ⟨-, -, ended⟩ | ⟨-, -, same⟩
      · rw [taken]
      · rw [ended]
      · rw [same]
        rfl
    | replying reply =>
      have act : service.world.run [.link (.write reply)] =
          service.world.linked (service.client.link.write reply).2 := rfl
      dsimp only
      rw [act]
      rcases service.client.link.write_cases reply with ⟨-, _, refused⟩ | accepted | ⟨-, same⟩
      · rw [refused]
      · rw [accepted]
      · rw [same]
        rfl
    | finished result =>
      dsimp only
      split <;> rfl

/-- A run of a service is a run of the world around its client. -/
theorem run_world (service : Service σ) (acts : List Act) :
    ∃ moves, (service.run handlers acts).world = service.world.run moves ∧
      service.trail handlers acts = service.world.trail moves := by
  induction acts generalizing service with
  | nil => exact ⟨[], rfl, rfl⟩
  | cons next rest ih =>
    obtain ⟨moves, world, trail⟩ := ih (service.act handlers next)
    refine ⟨service.moves next ++ moves, ?_, ?_⟩
    · rw [Client.World.run_append, ← world_act]
      exact world
    · rw [Client.World.trail_append, Service.trail, trail, ← world_act]

/-- Serving the handlers as far as it goes is so many moves of theirs. -/
theorem run_peer (service : Service σ) {polled : Poll (Except Error Unit)}
    {router : Responding σ} {link : Link}
    (served : handlers.peer.run service.client.codec service.router service.client.link =
      (polled, router, link)) :
    ∃ count, service.run handlers (List.replicate count .serve) =
      { service with router, world := service.world.linked link } := by
  -- The parts of the service vary in the induction over the moves of the peer.
  generalize codec : service.client.codec = spoken at served
  generalize started : service.router = from? at served
  generalize linked : service.client.link = far at served
  fun_induction Peer.run handlers.peer spoken from? far generalizing service with
  | case1 state far router' far' advanced ih =>
    subst codec started linked
    have moved : service.act handlers .serve =
        { service with router := router', world := service.world.linked far' } := by
      rw [act, advanced]
    obtain ⟨count, further⟩ := ih (service.act handlers .serve)
      (by rw [moved]; rfl) (by rw [moved]) (by rw [moved]; rfl) served
    refine ⟨count + 1, ?_⟩
    rw [List.replicate_succ]
    refine further.trans ?_
    rw [moved]
    rfl
  | case2 state far advanced =>
    obtain ⟨rfl, rfl, rfl⟩ := served
    subst codec started linked
    exact ⟨0, rfl⟩
  | case3 state far result advanced =>
    obtain ⟨rfl, rfl, rfl⟩ := served
    subst codec started linked
    exact ⟨0, rfl⟩

/-! ## Noting calls -/

def unlogged (service : Service (σ × List (String × Value))) : Service σ where
  world := service.world
  router := ⟨service.router.core.1, service.router.stage⟩
  gone := service.gone

private theorem takeUp_logged (codec : Codec) (core : σ) (calls : List (String × Value))
    (unit? : Option Bytes) :
    let noted := handlers.logged.responder.takeUp codec (core, calls) unit?
    handlers.responder.takeUp codec core unit? = ⟨noted.core.1, noted.stage⟩ := by
  cases unit? with
  | none => rfl
  | some unit =>
    simp only [Responder.takeUp]
    cases codec.decode unit with
    | error error => rfl
    | ok message =>
      simp only [Handlers.responder, Handlers.respond_logged]
      rcases handlers.respond message core with ⟨_ | reply, next⟩ <;> rfl

private theorem act_unlogged (service : Service (σ × List (String × Value))) (next : Act) :
    (service.act handlers.logged next).unlogged = service.unlogged.act handlers next := by
  cases next with
  | near act => cases act <;> rfl
  | serve =>
    obtain ⟨world, ⟨⟨core, calls⟩, stage⟩, gone⟩ := service
    rw [act_serve, act_serve]
    cases stage with
    | pulling =>
      simp only [unlogged, client]
      rcases world.client.link.pull with ⟨unit? | _, link⟩
      · dsimp only
        rw [takeUp_logged world.client.codec core calls unit?]
      · rfl
    | replying reply =>
      simp only [unlogged, client]
      rcases world.client.link.write reply with ⟨result | _, link⟩
      · cases result <;> rfl
      · rfl
    | finished result => cases gone <;> rfl

theorem run_unlogged (service : Service (σ × List (String × Value))) (acts : List Act) :
    (service.run handlers.logged acts).unlogged = service.unlogged.run handlers acts ∧
      service.trail handlers.logged acts = service.unlogged.trail handlers acts := by
  induction acts generalizing service with
  | nil => exact ⟨rfl, rfl⟩
  | cons next rest ih =>
    obtain ⟨reached, trail⟩ := ih (service.act handlers.logged next)
    rw [act_unlogged] at reached trail
    have moves : service.moves next = service.unlogged.moves next := by
      cases next with
      | near act => cases act <;> rfl
      | serve => rfl
    refine ⟨reached, ?_⟩
    rw [Service.trail, Service.trail, trail, moves]
    rfl

end Service

end Airlock
