import Airlock.Proofs.Client.World
import Airlock.Peer.Responder

/-!
# Dialogues

A dialogue is a client, the link, and a router on the far end. The router takes one message up after
the other; its handler may take any time and comes to any outcome. Meanwhile anything may happen to
the client, and others may close, abort or let go of the link; units pass through the client and the
router only. Handlers that answer at once are served as one such router.
-/

set_option autoImplicit false

namespace Airlock

/-- Whether a move takes units out of a link or puts one into it. -/
def LinkMove.passes : LinkMove → Bool
  | .pull | .takeAll | .write _ => true
  | _ => false

inductive Serving where
  | pulling
  | handling (message : Message)
  | replying (id : Id) (outcome : Outcome)
  | finished

namespace Serving

/-- Responses are skipped, and so is a unit that is no message. -/
def afterPull (codec : Codec) : Poll (Option Bytes) → Serving
  | .waiting => .pulling
  | .ready none => .finished
  | .ready (some unit) =>
    match codec.decode unit with
    | .ok (.request id method params) => .handling (.request id method params)
    | .ok (.notification method params) => .handling (.notification method params)
    | .ok (.response _ _) | .error _ => .pulling

/-- Only a request is replied to. -/
def afterHandler (outcome : Outcome) : Message → Serving
  | .request id _ _ => .replying id outcome
  | .notification _ _ | .response _ _ => .pulling

def afterWrite (id : Id) (outcome : Outcome) : Poll (Except Error Unit) → Serving
  | .waiting => .replying id outcome
  | .ready (.ok ()) => .pulling
  | .ready (.error _) => .finished

end Serving

structure Dialogue where
  world : Client.World
  serving : Serving := .pulling
  /-- the replies that the router began to write, the newest first -/
  replies : List (Id × Outcome) := []

namespace Dialogue

inductive Act where
  /-- something that happens to the client, or to the link but for its units -/
  | near (act : Client.Act)
  | pull
  /-- the handler at work ends -/
  | answer (outcome : Outcome)
  | write

def create (config : Config) : Dialogue :=
  { world := Client.World.create config }

def client (dialogue : Dialogue) : Client :=
  dialogue.world.client

/-- What an act is to the world around the client. -/
def moves (dialogue : Dialogue) : Act → List Client.Act
  | .near (.link move) => if move.passes then [] else [.link move]
  | .near act => [act]
  | .pull =>
    match dialogue.serving with
    | .pulling => [.link .pull]
    | _ => []
  | .answer _ => []
  | .write =>
    match dialogue.serving with
    | .replying id outcome =>
      [.link (.write (dialogue.client.codec.encode (.response id outcome)))]
    | _ => []

def serve (dialogue : Dialogue) : Act → Serving
  | .near _ => dialogue.serving
  | .pull =>
    match dialogue.serving with
    | .pulling => .afterPull dialogue.client.codec dialogue.client.link.pull.1
    | other => other
  | .answer outcome =>
    match dialogue.serving with
    | .handling message => .afterHandler outcome message
    | other => other
  | .write =>
    match dialogue.serving with
    | .replying id outcome =>
      .afterWrite id outcome
        (dialogue.client.link.write (dialogue.client.codec.encode (.response id outcome))).1
    | other => other

def repliesAfter (dialogue : Dialogue) : Act → List (Id × Outcome)
  | .write =>
    match dialogue.serving with
    | .replying id outcome => (id, outcome) :: dialogue.replies
    | _ => dialogue.replies
  | _ => dialogue.replies

def act (dialogue : Dialogue) (next : Act) : Dialogue where
  world := dialogue.world.run (dialogue.moves next)
  serving := dialogue.serve next
  replies := dialogue.repliesAfter next

def actTrail (dialogue : Dialogue) (next : Act) : Client.Trail :=
  dialogue.world.trail (dialogue.moves next)

def run (dialogue : Dialogue) (acts : List Act) : Dialogue :=
  acts.foldl act dialogue

def trail : Dialogue → List Act → Client.Trail
  | _, [] => []
  | dialogue, next :: rest => dialogue.actTrail next ++ trail (dialogue.act next) rest

/-- The router has asked for a unit, or for room for one, and waits. -/
def Waits (dialogue : Dialogue) : Prop :=
  match dialogue.serving with
  | .pulling => dialogue.client.link.pull.1 = .waiting
  | .replying id outcome =>
    (dialogue.client.link.write (dialogue.client.codec.encode (.response id outcome))).1 = .waiting
  | .handling _ | .finished => False

variable {dialogue : Dialogue} {next : Act}

theorem act_pull (pulling : dialogue.serving = .pulling) :
    dialogue.act .pull =
      { dialogue with
        world := dialogue.world.act (.link .pull)
        serving := .afterPull dialogue.client.codec dialogue.client.link.pull.1 } := by
  simp only [act, moves, serve, repliesAfter, pulling]
  rfl

theorem act_answer {message : Message} (handling : dialogue.serving = .handling message)
    (outcome : Outcome) :
    dialogue.act (.answer outcome) =
      { dialogue with serving := .afterHandler outcome message } := by
  simp only [act, moves, serve, repliesAfter, handling]
  rfl

theorem act_write {id : Id} {outcome : Outcome}
    (replying : dialogue.serving = .replying id outcome) :
    let unit := dialogue.client.codec.encode (.response id outcome)
    dialogue.act .write = {
      world := dialogue.world.act (.link (.write unit))
      serving := .afterWrite id outcome (dialogue.client.link.write unit).1
      replies := (id, outcome) :: dialogue.replies } := by
  simp only [act, moves, serve, repliesAfter, replying]
  rfl

/-- What an act can do, with the trail that it leaves. -/
inductive Step (dialogue : Dialogue) : Act → Client.Trail → Dialogue → Prop where
  | still {next : Act} (idle : next = .pull → dialogue.serving ≠ .pulling) :
      Step dialogue next [] dialogue
  | near {act : Client.Act} (stays : ∀ move, act = .link move → move.passes = false) :
      Step dialogue (.near act) (dialogue.world.actTrail act)
        { dialogue with world := dialogue.world.act act }
  | pull (pulling : dialogue.serving = .pulling) :
      Step dialogue .pull (dialogue.world.actTrail (.link .pull))
        { dialogue with
          world := dialogue.world.act (.link .pull)
          serving := .afterPull dialogue.client.codec dialogue.client.link.pull.1 }
  | answer {message : Message} {outcome : Outcome}
      (handling : dialogue.serving = .handling message) :
      Step dialogue (.answer outcome) []
        { dialogue with serving := .afterHandler outcome message }
  | write {id : Id} {outcome : Outcome} {unit : Bytes}
      (replying : dialogue.serving = .replying id outcome)
      (encoded : dialogue.client.codec.encode (.response id outcome) = unit) :
      Step dialogue .write (dialogue.world.actTrail (.link (.write unit))) {
        world := dialogue.world.act (.link (.write unit))
        serving := .afterWrite id outcome (dialogue.client.link.write unit).1
        replies := (id, outcome) :: dialogue.replies }

private theorem step_still (moves : dialogue.moves next = [])
    (serve : dialogue.serve next = dialogue.serving)
    (replies : dialogue.repliesAfter next = dialogue.replies)
    (idle : next = .pull → dialogue.serving ≠ .pulling) :
    Step dialogue next (dialogue.actTrail next) (dialogue.act next) := by
  rw [actTrail, act, moves, serve, replies]
  exact .still idle

private theorem step_near (act : Client.Act) :
    Step dialogue (.near act) (dialogue.actTrail (.near act)) (dialogue.act (.near act)) := by
  by_cases passes : ∃ move, act = .link move ∧ move.passes = true
  · obtain ⟨move, rfl, passes⟩ := passes
    exact step_still (if_pos passes) rfl rfl nofun
  · have stays (move : LinkMove) (linked : act = .link move) : move.passes = false :=
      Bool.eq_false_iff.mpr fun other => passes ⟨move, linked, other⟩
    have moves : dialogue.moves (.near act) = [act] := by
      cases act with
      | link move => exact if_neg (by simp [stays move rfl])
      | _ => rfl
    have trail : dialogue.actTrail (.near act) = dialogue.world.actTrail act := by
      rw [actTrail, moves]
      exact List.append_nil _
    rw [trail, Dialogue.act, moves]
    exact .near stays

theorem step_act (dialogue : Dialogue) (next : Act) :
    Step dialogue next (dialogue.actTrail next) (dialogue.act next) := by
  cases next with
  | near act => exact step_near act
  | pull =>
    cases serving : dialogue.serving with
    | pulling =>
      have trail : dialogue.actTrail .pull = dialogue.world.actTrail (.link .pull) := by
        simp only [actTrail, moves, serving]
        exact List.append_nil _
      rw [trail, act_pull serving]
      exact .pull serving
    | handling | replying | finished =>
      apply step_still <;> simp [moves, serve, repliesAfter, serving]
  | answer outcome =>
    cases serving : dialogue.serving with
    | handling message =>
      rw [act_answer serving]
      exact .answer serving
    | pulling | replying | finished =>
      apply step_still <;> simp [moves, serve, repliesAfter, serving]
  | write =>
    cases serving : dialogue.serving with
    | replying id outcome =>
      have trail : dialogue.actTrail .write = dialogue.world.actTrail
          (.link (.write (dialogue.client.codec.encode (.response id outcome)))) := by
        simp only [actTrail, moves, serving]
        exact List.append_nil _
      rw [trail, act_write serving]
      exact .write serving rfl
    | pulling | handling | finished =>
      apply step_still <;> simp [moves, serve, repliesAfter, serving]

/-- A run of a dialogue is a run of the world around its client. -/
theorem run_world (dialogue : Dialogue) (acts : List Act) :
    ∃ moves, (dialogue.run acts).world = dialogue.world.run moves ∧
      dialogue.trail acts = dialogue.world.trail moves := by
  induction acts generalizing dialogue with
  | nil => exact ⟨[], rfl, rfl⟩
  | cons next rest ih =>
    obtain ⟨moves, world, trail⟩ := ih (dialogue.act next)
    refine ⟨dialogue.moves next ++ moves, ?_, ?_⟩
    · rw [Client.World.run_append]
      exact world
    · rw [Client.World.trail_append, Dialogue.trail, trail]
      rfl

/-! ## Handlers that answer at once -/

/-- A responder of handlers is at the same as a router. -/
inductive Represents {σ : Type} (codec : Codec) : Responding σ → Serving → Prop where
  | pulling {core : σ} : Represents codec ⟨core, .pulling⟩ .pulling
  | replying {core : σ} {id : Id} {outcome : Outcome} :
    Represents codec ⟨core, .replying (codec.encode (.response id outcome))⟩ (.replying id outcome)
  | finished {core : σ} {result : Except Error Unit} :
    Represents codec ⟨core, .finished result⟩ .finished

variable {σ : Type}

/-- Whatever handlers do on the far end of a link, a router may do too. -/
theorem run_of_takeUp (handlers : Handlers σ) (core : σ) {unit? : Option Bytes} {rest : Link}
    (pulling : dialogue.serving = .pulling)
    (pulled : dialogue.client.link.pull = (.ready unit?, rest)) :
    ∃ acts, (dialogue.run acts).client = { dialogue.client with link := rest } ∧
      Represents dialogue.client.codec
        (handlers.responder.takeUp dialogue.client.codec core unit?)
        (dialogue.run acts).serving := by
  have client : (dialogue.act .pull).client = { dialogue.client with link := rest } := by
    rw [act_pull pulling]
    exact congrArg (fun link => { dialogue.client with link }) (congrArg Prod.snd pulled)
  have serving : (dialogue.act .pull).serving =
      .afterPull dialogue.client.codec (.ready unit?) := by
    rw [act_pull pulling, pulled]
  have once {responding : Responding σ}
      (same : Represents dialogue.client.codec responding (dialogue.act .pull).serving) :
      ∃ acts, (dialogue.run acts).client = { dialogue.client with link := rest } ∧
        Represents dialogue.client.codec responding (dialogue.run acts).serving :=
    ⟨[.pull], client, same⟩
  have twice {message : Message} {responding : Responding σ}
      (handling : (dialogue.act .pull).serving = .handling message) (outcome : Outcome)
      (same : Represents dialogue.client.codec responding (.afterHandler outcome message)) :
      ∃ acts, (dialogue.run acts).client = { dialogue.client with link := rest } ∧
        Represents dialogue.client.codec responding (dialogue.run acts).serving := by
    have answered : dialogue.run [.pull, .answer outcome] = _ := act_answer handling outcome
    refine ⟨[.pull, .answer outcome], ?_, ?_⟩
    · rw [answered]
      exact client
    · rw [answered]
      exact same
  cases unit? with
  | none =>
    apply once
    rw [serving]
    exact .finished
  | some unit =>
    simp only [Responder.takeUp]
    rw [Serving.afterPull] at serving
    cases read : dialogue.client.codec.decode unit with
    | error error =>
      rw [read] at serving
      apply once
      rw [serving]
      exact .pulling
    | ok message =>
      rw [read] at serving
      dsimp only
      cases message with
      | response id outcome =>
        apply once
        rw [serving]
        exact .pulling
      | notification method params => exact twice serving (.ok .null) .pulling
      | request id method params =>
        exact twice serving (handlers.answer method params core).1 .replying

theorem run_of_advance (handlers : Handlers σ) {state next : Responding σ} {after : Link}
    (same : Represents dialogue.client.codec state dialogue.serving)
    (advanced : handlers.peer.advance dialogue.client.codec state dialogue.client.link =
      .moved next after) :
    ∃ acts, (dialogue.run acts).client = { dialogue.client with link := after } ∧
      Represents dialogue.client.codec next (dialogue.run acts).serving := by
  generalize serving : dialogue.serving = router at same
  cases same with
  | @pulling core =>
    simp only [Peer.advance, Handlers.peer, Responder.peer] at advanced
    rcases pulled : dialogue.client.link.pull with ⟨polled, rest⟩
    rw [pulled] at advanced
    cases polled with
    | waiting => cases advanced
    | ready unit? =>
      cases advanced
      exact run_of_takeUp handlers core serving pulled
  | @replying core id outcome =>
    simp only [Peer.advance, Handlers.peer, Responder.peer] at advanced
    rcases written : dialogue.client.link.write
      (dialogue.client.codec.encode (.response id outcome)) with ⟨polled, rest⟩
    rw [written] at advanced
    cases polled with
    | waiting => cases advanced
    | ready result =>
      cases advanced
      refine ⟨[.write], ?_, ?_⟩
      · rw [run, List.foldl_cons, act_write serving]
        exact congrArg (fun link => { dialogue.client with link }) (congrArg Prod.snd written)
      · rw [run, List.foldl_cons, act_write serving]
        simp only [List.foldl_nil, written]
        cases result with
        | ok => exact .pulling
        | error error => exact .finished
  | finished => cases advanced

theorem waits_of_advance (handlers : Handlers σ) {state : Responding σ}
    (same : Represents dialogue.client.codec state dialogue.serving)
    (advanced : handlers.peer.advance dialogue.client.codec state dialogue.client.link =
      .waiting) : dialogue.Waits := by
  unfold Waits
  generalize dialogue.serving = router at same
  cases same with
  | pulling =>
    simp only [Peer.advance, Handlers.peer, Responder.peer] at advanced
    split at advanced
    · cases advanced
    · rename_i pulled
      exact congrArg Prod.fst pulled
  | replying =>
    simp only [Peer.advance, Handlers.peer, Responder.peer] at advanced
    split at advanced
    · cases advanced
    · rename_i written
      exact congrArg Prod.fst written
  | finished => cases advanced

end Dialogue

end Airlock
