import Airlock.Proofs.Session.Responding

/-!
# What handlers answer

Handlers are served while others fill and close the queue, and read, close or abort the sink. None
of that shows in what they answer: the units that they took decide by themselves which replies are
due and where the core is. The replies are written in this order. One that is refused is the last
one due, and belongs to the last unit that was taken; the handlers end with it, and end well. What
was written is read off the sink: it is what the sink holds more after a move of the handlers.
-/

set_option autoImplicit false

namespace Airlock

variable {σ : Type}

/-! ## What is due -/

namespace Handlers

/-- The handlers of methods that were registered one after the other. -/
def registered (registrations : List (String × Handler σ)) : Handlers σ :=
  registrations.foldl (fun handlers entry => handlers.insert entry.1 entry.2) .empty

/-- The last handler that was registered for a method. -/
def last? (registrations : List (String × Handler σ)) (method : String) : Option (Handler σ) :=
  registrations.reverse.lookup method

/-- The reply that is due for a unit, and the core after it. Only a request is replied to; a
notification changes the core alone, whatever its handler answers. -/
def due (registrations : List (String × Handler σ)) (codec : Codec) (core : σ) (unit : Bytes) :
    Option Bytes × σ :=
  match codec.decode unit with
  | .ok (.request id method params) =>
    match last? registrations method with
    | some handler =>
      (some (codec.encode (.response id (handler params core).1)), (handler params core).2)
    | none => (some (codec.encode (.response id (.error (.methodNotFound method)))), core)
  | .ok (.notification method params) =>
    match last? registrations method with
    | some handler => (none, (handler params core).2)
    | none => (none, core)
  | .ok (.response _ _) | .error _ => (none, core)

/-- The replies that are due for units, in their order, and the core after them. -/
def dues (registrations : List (String × Handler σ)) (codec : Codec) (core : σ) :
    List Bytes → List Bytes × σ
  | [] => ([], core)
  | unit :: rest =>
    let (reply?, next) := due registrations codec core unit
    let (replies, last) := dues registrations codec next rest
    (reply?.toList ++ replies, last)

variable {registrations : List (String × Handler σ)} {codec : Codec} {core : σ}

private theorem get?_insert (handlers : Handlers σ) (method other : String) (handler : Handler σ) :
    (handlers.insert method handler).get? other =
      if other = method then some handler else handlers.get? other := by
  unfold insert get?
  rw [List.lookup_append, List.lookup_cons, List.lookup_nil]
  by_cases same : other = method
  · subst same
    have none : (handlers.entries.filter (·.1 ≠ other)).lookup other = none := by
      rw [List.lookup_eq_none_iff]
      intro entry member
      have different := of_decide_eq_true (List.mem_filter.mp member).2
      exact bne_iff_ne.mpr fun same => different same.symm
    rw [none, beq_self_eq_true, if_pos rfl]
    rfl
  · have differ : (other == method) = false := beq_eq_false_iff_ne.mpr same
    rw [lookup_filter_other handlers.entries same, differ, if_neg same]
    exact Option.or_none

private theorem get?_registered (method : String) :
    (registered registrations).get? method = last? registrations method := by
  have further (handlers : Handlers σ) :
      (registrations.foldl (fun handlers entry => handlers.insert entry.1 entry.2) handlers).get?
        method = (last? registrations method).or (handlers.get? method) := by
    unfold last?
    induction registrations generalizing handlers with
    | nil => rfl
    | cons entry rest ih =>
      rw [List.foldl_cons, ih, get?_insert, List.reverse_cons, List.lookup_append,
        List.lookup_cons, List.lookup_nil]
      cases rest.reverse.lookup method with
      | some handler => rfl
      | none =>
        by_cases same : method = entry.1
        · rw [if_pos same, beq_iff_eq.mpr same]
          rfl
        · rw [if_neg same, beq_eq_false_iff_ne.mpr same]
          rfl
  rw [registered, further]
  exact Option.or_none

private theorem request_of_due {unit reply : Bytes}
    (given : (due registrations codec core unit).1 = some reply) :
    ∃ id method params outcome, codec.decode unit = .ok (.request id method params) ∧
      reply = codec.encode (.response id outcome) := by
  unfold due at given
  split at given
  · rename_i id method params reads
    split at given
    · cases given
      exact ⟨id, method, params, _, reads, rfl⟩
    · cases given
      exact ⟨id, method, params, _, reads, rfl⟩
  · split at given <;> cases given
  · cases given
  · cases given

private theorem dues_append (first second : List Bytes) :
    dues registrations codec core (first ++ second) =
      ((dues registrations codec core first).1 ++
          (dues registrations codec (dues registrations codec core first).2 second).1,
        (dues registrations codec (dues registrations codec core first).2 second).2) := by
  induction first generalizing core with
  | nil => rfl
  | cons unit rest ih => simp only [List.cons_append, dues, ih, List.append_assoc]

private theorem dues_concat (units : List Bytes) (unit : Bytes) :
    dues registrations codec core (units ++ [unit]) =
      ((dues registrations codec core units).1 ++
          (due registrations codec (dues registrations codec core units).2 unit).1.toList,
        (due registrations codec (dues registrations codec core units).2 unit).2) := by
  rw [dues_append]
  simp only [dues, List.append_nil]

end Handlers

/-- The stage after a unit for which a reply is due, or none. -/
def Stage.owing : Option Bytes → Stage
  | some reply => .replying reply
  | none => .pulling

def Stage.reply? : Stage → Option Bytes
  | .replying reply => some reply
  | .pulling | .finished _ => none

@[simp] theorem Stage.reply?_pulling : Stage.pulling.reply? = none := rfl

@[simp] theorem Stage.reply?_replying (reply : Bytes) :
    (Stage.replying reply).reply? = some reply := rfl

@[simp] theorem Stage.reply?_finished (result : Except Error Unit) :
    (Stage.finished result).reply? = none := rfl

@[simp] theorem Stage.reply?_owing (reply? : Option Bytes) :
    (Stage.owing reply?).reply? = reply? := by
  cases reply? <;> rfl

private theorem Stage.pulling_ne_finished (result : Except Error Unit) :
    Stage.pulling ≠ .finished result :=
  nofun

private theorem Stage.replying_ne_finished (reply : Bytes) (result : Except Error Unit) :
    Stage.replying reply ≠ .finished result :=
  nofun

private theorem Stage.owing_ne_finished (reply? : Option Bytes) (result : Except Error Unit) :
    Stage.owing reply? ≠ .finished result := by
  cases reply? <;> nofun

private theorem Handlers.takeUp_due (registrations : List (String × Handler σ)) (codec : Codec)
    (core : σ)
    (unit : Bytes) :
    (registered registrations).responder.takeUp codec core (some unit) =
      ⟨(due registrations codec core unit).2, .owing (due registrations codec core unit).1⟩ := by
  simp only [Responder.takeUp, due, responder]
  cases codec.decode unit with
  | error error => rfl
  | ok message =>
    cases message with
    | response id outcome => rfl
    | request id method params =>
      simp only [respond, answer, get?_registered]
      cases last? registrations method <;> rfl
    | notification method params =>
      simp only [respond, answer, contains, get?_registered]
      cases last? registrations method <;> rfl

/-! ## Handlers being watched -/

/-- Handlers that are served, with a note of the units that were ever in the queue, of those that
the handlers took, of the units that they brought into the sink, and of the replies that the sink
refused. -/
structure Watched (σ : Type) where
  router : Responding σ
  link : Link
  arrived : List Bytes
  taken : List Bytes := []
  written : List Bytes := []
  refused : List Bytes := []
  /-- what the handlers ended with -/
  result? : Option (Except Error Unit) := none

namespace Watched

inductive Act where
  | serve
  | enqueue (unit : Bytes)
  | closeQueue
  /-- whatever others do to the sink -/
  | sink (sink : Sink)

def create (core : σ) (link : Link) : Watched σ :=
  { router := { core }, link, arrived := link.queue.units }

/-- The units behind those that the sink held before. -/
def gained (before after : Sink) : List Bytes :=
  after.units.drop before.size

/-- What a move of the handlers that comes to this link adds to the notes. -/
def noting (watched : Watched σ) (link : Link) : Watched σ :=
  let watched :=
    { watched with written := watched.written ++ gained watched.link.sink link.sink }
  match watched.router.stage with
  | .pulling => { watched with taken := watched.taken ++ watched.link.queue.units.head?.toList }
  | .replying reply =>
    match (watched.link.write reply).1 with
    | .ready (.error _) => { watched with refused := watched.refused ++ [reply] }
    | _ => watched
  | .finished _ => watched

variable (handlers : Handlers σ) (codec : Codec)

def serve (watched : Watched σ) : Watched σ :=
  match handlers.peer.advance codec watched.router watched.link with
  | .moved router link => { watched.noting link with router, link }
  | .waiting => watched
  | .finished result => { watched with result? := some result }

def act (watched : Watched σ) : Act → Watched σ
  | .serve => watched.serve handlers codec
  | .enqueue unit =>
    match watched.link.queue.enqueue unit with
    | .ok queue =>
      { watched with link := { watched.link with queue }, arrived := watched.arrived ++ [unit] }
    | .error _ => watched
  | .closeQueue =>
    { watched with link := { watched.link with queue := watched.link.queue.close.2 } }
  | .sink sink => { watched with link := { watched.link with sink } }

def run (watched : Watched σ) (acts : List Act) : Watched σ :=
  acts.foldl (act handlers codec) watched

/-- Whether the handlers would have to wait now. -/
def waits (watched : Watched σ) : Bool :=
  match handlers.peer.advance codec watched.router watched.link with
  | .waiting => true
  | _ => false

/-- How many moves the handlers made in a run, those left out in which they had to wait. -/
def moves : Watched σ → List Act → Nat
  | _, [] => 0
  | watched, .serve :: rest =>
    (if watched.waits handlers codec then 0 else 1) + moves (watched.act handlers codec .serve) rest
  | watched, next :: rest => moves (watched.act handlers codec next) rest

/-! ## Every move of the handlers -/

variable {registrations : List (String × Handler σ)} {codec : Codec} {watched : Watched σ}

/-- What serving comes to. -/
inductive Serves (registrations : List (String × Handler σ)) (codec : Codec)
    (watched : Watched σ) : Watched σ → Prop where
  | took {unit : Bytes} {rest : List Bytes} (pulling : watched.router.stage = .pulling)
      (units : watched.link.queue.units = unit :: rest) :
      Serves registrations codec watched { watched with
        router := ⟨(Handlers.due registrations codec watched.router.core unit).2,
          .owing (Handlers.due registrations codec watched.router.core unit).1⟩
        link := { watched.link with queue := { watched.link.queue with units := rest } }
        taken := watched.taken ++ [unit] }
  | ended (pulling : watched.router.stage = .pulling) (none : watched.link.queue.units = [])
      (closed : watched.link.queue.closed = true) :
      Serves registrations codec watched
        { watched with router := ⟨watched.router.core, .finished (.ok ())⟩ }
  | wrote {reply : Bytes} (replying : watched.router.stage = .replying reply) :
      Serves registrations codec watched { watched with
        router := ⟨watched.router.core, .pulling⟩
        link := { watched.link with sink := { watched.link.sink with
          units := watched.link.sink.units ++ [reply] } }
        written := watched.written ++ [reply] }
  | refused {reply : Bytes} (replying : watched.router.stage = .replying reply) :
      Serves registrations codec watched { watched with
        router := ⟨watched.router.core, .finished (.ok ())⟩
        refused := watched.refused ++ [reply] }
  | returned {result : Except Error Unit} (finished : watched.router.stage = .finished result) :
      Serves registrations codec watched { watched with result? := some result }

/-- What the handlers wait for. -/
inductive Waits (watched : Watched σ) : Prop where
  | unit (pulling : watched.router.stage = .pulling) (none : watched.link.queue.units = [])
      (opened : watched.link.queue.closed = false)
  | room {reply : Bytes} (replying : watched.router.stage = .replying reply)
      (opened : watched.link.sink.closed = false)
      (full : watched.link.sink.capacity ≤ watched.link.sink.size)

/-- A move of the handlers, or that they have to wait. -/
def Turns (registrations : List (String × Handler σ)) (codec : Codec) (watched : Watched σ) :
    Prop :=
  let handlers := Handlers.registered registrations
  (watched.waits handlers codec = true ∧ watched.serve handlers codec = watched ∧
      Waits watched) ∨
    watched.waits handlers codec = false ∧
      Serves registrations codec watched (watched.serve handlers codec)

@[simp] theorem gained_self (sink : Sink) : gained sink sink = [] :=
  List.drop_length

@[simp] theorem gained_append (sink : Sink) (units : List Bytes) :
    gained sink { sink with units := sink.units ++ units } = units :=
  List.drop_left

private theorem turns_pulling (pulling : watched.router.stage = .pulling) :
    Turns registrations codec watched := by
  unfold Turns waits serve Peer.advance
  simp only [Handlers.peer, Responder.peer, pulling]
  rcases watched.link.pull_cases with ⟨unit, rest, units, taken⟩ | ⟨none, closed, ended⟩ |
    ⟨none, opened, waits⟩
  · right
    simp only [taken, Handlers.takeUp_due, noting, pulling, units, List.head?_cons,
      Option.toList_some, gained_self, List.append_nil, true_and]
    exact .took pulling units
  · right
    simp only [ended, noting, pulling, none, List.head?_nil, Option.toList_none, List.append_nil,
      gained_self, true_and]
    exact .ended pulling none closed
  · left
    simp only [waits, true_and]
    exact .unit pulling none opened

private theorem turns_replying {reply : Bytes} (replying : watched.router.stage = .replying reply) :
    Turns registrations codec watched := by
  unfold Turns waits serve Peer.advance
  simp only [Handlers.peer, Responder.peer, replying]
  rcases watched.link.write_cases reply with ⟨-, error, refused⟩ | written | ⟨full, waits⟩
  · right
    have terminal : error.isTerminal = true := Hosting.written_terminal (by rw [refused])
    simp only [refused, noting, replying, Responder.afterReply, Handlers.responder, terminal,
      if_true, gained_self, List.append_nil, true_and]
    exact .refused replying
  · right
    simp only [written, noting, replying, Responder.afterReply, gained_append, true_and]
    exact .wrote replying
  · left
    have opened : watched.link.sink.closed = false := by
      rw [Bool.eq_false_iff]
      intro closed
      simp [Link.write, Sink.write, closed] at waits
    simp only [waits, true_and]
    exact .room replying opened full

private theorem turns (registrations : List (String × Handler σ)) (codec : Codec)
    (watched : Watched σ) :
    Turns registrations codec watched := by
  cases stage : watched.router.stage with
  | pulling => exact turns_pulling stage
  | replying reply => exact turns_replying stage
  | finished result =>
    unfold Turns waits serve Peer.advance
    simp only [Handlers.peer, Responder.peer, stage, true_and]
    exact .inr (.returned stage)

/-! ## What was answered so far -/

/-- What the notes say at any time. The units that were taken are the first ones that arrived; they
decide where the core is and which replies are due, of which the first ones were written. -/
structure Answers (registrations : List (String × Handler σ)) (codec : Codec) (core : σ)
    (watched : Watched σ) : Prop where
  order : watched.arrived = watched.taken ++ watched.link.queue.units
  acted : watched.router.core = (Handlers.dues registrations codec core watched.taken).2
  replies : watched.written ++ watched.refused ++ watched.router.stage.reply?.toList =
    (Handlers.dues registrations codec core watched.taken).1
  /-- a reply that is not written is due for a request, the last unit that was taken -/
  latest : ∀ reply ∈ watched.refused ++ watched.router.stage.reply?.toList,
    ∃ before unit id method params outcome, watched.taken = before ++ [unit] ∧
      codec.decode unit = .ok (.request id method params) ∧
      reply = codec.encode (.response id outcome) ∧
      (Handlers.due registrations codec (Handlers.dues registrations codec core before).2
        unit).1 = some reply
  once : watched.refused.length ≤ 1
  stopped : watched.refused ≠ [] → ∃ result, watched.router.stage = .finished result
  ended : ∀ result, watched.router.stage = .finished result → result = .ok () ∧
    (watched.refused ≠ [] ∨
      watched.link.queue.units = [] ∧ watched.link.queue.closed = true)
  returned : ∀ result, watched.result? = some result → watched.router.stage = .finished result

variable {core : σ} {after : Watched σ}

private theorem answers_create (core : σ) (link : Link) :
    Answers registrations codec core (create core link) where
  order := rfl
  acted := rfl
  replies := rfl
  latest := nofun
  once := Nat.zero_le 1
  stopped some := absurd rfl some
  ended := nofun
  returned := nofun

/-- Nothing was refused as long as the handlers have not come to an end. -/
theorem Answers.refused_eq_nil (answers : Answers registrations codec core watched) {stage : Stage}
    (here : watched.router.stage = stage) (going : ∀ result, stage ≠ .finished result) :
    watched.refused = [] := by
  cases none : watched.refused with
  | nil => rfl
  | cons reply rest =>
    have some : watched.refused ≠ [] := by
      rw [none]
      exact List.cons_ne_nil reply rest
    obtain ⟨result, finished⟩ := answers.stopped some
    exact absurd (here.symm.trans finished) (going result)

private theorem Answers.result?_eq_none (answers : Answers registrations codec core watched)
    {stage : Stage} (here : watched.router.stage = stage)
    (going : ∀ result, stage ≠ .finished result) : watched.result? = none := by
  cases returned : watched.result? with
  | none => rfl
  | some result =>
    exact absurd (here.symm.trans (answers.returned result returned)) (going result)

private theorem Answers.serves (answers : Answers registrations codec core watched)
    (serves : Serves registrations codec watched after) :
    Answers registrations codec core after := by
  have replies := answers.replies
  have latest := answers.latest
  cases serves with
  | @took unit rest pulling units =>
    have none := answers.refused_eq_nil pulling Stage.pulling_ne_finished
    have running := answers.result?_eq_none pulling Stage.pulling_ne_finished
    have due := @Handlers.dues_concat σ registrations codec core watched.taken unit
    rw [← answers.acted] at due
    rw [none, pulling] at replies
    constructor
    case order => rw [answers.order, units]; simp
    case acted => rw [due]
    case replies =>
      rw [due, ← replies]
      simp [none]
    case latest =>
      intro reply member
      simp only [none, Stage.reply?_owing, List.nil_append, Option.mem_toList] at member
      obtain ⟨id, method, params, outcome, reads, encoded⟩ := Handlers.request_of_due member
      refine ⟨watched.taken, unit, id, method, params, outcome, rfl, reads, encoded, ?_⟩
      rw [← answers.acted]
      exact member
    case once => exact answers.once
    case stopped => exact fun some => absurd none some
    case ended => exact fun result finished => absurd finished (Stage.owing_ne_finished _ result)
    case returned =>
      intro result returned
      cases running.symm.trans returned
  | ended pulling units closed =>
    rw [pulling] at replies latest
    constructor
    case order => exact answers.order
    case acted => exact answers.acted
    case replies => exact replies
    case latest => exact latest
    case once => exact answers.once
    case stopped => exact fun _ => ⟨_, rfl⟩
    case ended =>
      rintro _ ⟨⟩
      exact ⟨rfl, .inr ⟨units, closed⟩⟩
    case returned =>
      intro result returned
      cases pulling.symm.trans (answers.returned result returned)
  | wrote replying =>
    have none := answers.refused_eq_nil replying (Stage.replying_ne_finished _)
    rw [replying, none] at replies latest
    constructor
    case order => exact answers.order
    case acted => exact answers.acted
    case replies =>
      rw [← replies]
      simp [none]
    case latest => simp [none]
    case once => exact answers.once
    case stopped => exact fun some => absurd none some
    case ended => exact fun result finished => absurd finished (Stage.pulling_ne_finished result)
    case returned =>
      intro result returned
      cases replying.symm.trans (answers.returned result returned)
  | refused replying =>
    have none := answers.refused_eq_nil replying (Stage.replying_ne_finished _)
    rw [replying, none] at replies latest
    constructor
    case order => exact answers.order
    case acted => exact answers.acted
    case replies =>
      rw [← replies]
      simp [none]
    case latest =>
      intro reply member
      refine latest reply ?_
      simpa [none] using member
    case once => simp [none]
    case stopped => exact fun _ => ⟨_, rfl⟩
    case ended =>
      rintro _ ⟨⟩
      exact ⟨rfl, .inl (by simp)⟩
    case returned =>
      intro result returned
      cases replying.symm.trans (answers.returned result returned)
  | returned finished =>
    refine { answers with returned := ?_ }
    rintro _ ⟨⟩
    exact finished

private theorem Answers.act (answers : Answers registrations codec core watched) (next : Act) :
    Answers registrations codec core
      (watched.act (Handlers.registered registrations) codec next) := by
  cases next with
  | serve =>
    rcases turns registrations codec watched with ⟨-, same, -⟩ | ⟨-, serves⟩
    · rw [Watched.act, same]
      exact answers
    · exact answers.serves serves
  | enqueue unit =>
    simp only [Watched.act, Queue.enqueue]
    cases closed : watched.link.queue.closed with
    | true => exact answers
    | false =>
      refine { answers with order := ?_, ended := ?_ }
      · simp [answers.order]
      · intro result finished
        obtain ⟨good, refused | ⟨-, shut⟩⟩ := answers.ended result finished
        · exact ⟨good, .inl refused⟩
        · cases closed.symm.trans shut
  | closeQueue =>
    refine { answers with ended := ?_ }
    intro result finished
    obtain ⟨good, refused | ⟨none, -⟩⟩ := answers.ended result finished
    · exact ⟨good, .inl refused⟩
    · exact ⟨good, .inr ⟨none, rfl⟩⟩
  | sink sink => exact { answers with }

private theorem Answers.run (answers : Answers registrations codec core watched) (acts : List Act) :
    Answers registrations codec core
      (watched.run (Handlers.registered registrations) codec acts) := by
  induction acts generalizing watched with
  | nil => exact answers
  | cons next rest ih => exact ih (answers.act next)

/-! ## Every move uses something up -/

/-- How many moves are left at most, once the queue is closed. -/
def left (watched : Watched σ) : Nat :=
  match watched.result?, watched.router.stage with
  | some _, _ => 0
  | none, .finished _ => 1
  | none, .pulling => 2 * watched.link.queue.size + 2
  | none, .replying _ => 2 * watched.link.queue.size + 3

private theorem left_le (watched : Watched σ) : watched.left ≤ 2 * watched.link.queue.size + 3 := by
  unfold left
  split <;> omega

private theorem Answers.left_serves (answers : Answers registrations codec core watched)
    (serves : Serves registrations codec watched after) : after.left ≤ watched.left - 1 := by
  cases serves with
  | @took unit rest pulling units =>
    have none := answers.result?_eq_none pulling Stage.pulling_ne_finished
    have size : watched.link.queue.units.length = rest.length + 1 := congrArg List.length units
    cases (Handlers.due registrations codec watched.router.core unit).1 <;>
      simp only [left, none, pulling, Stage.owing, Queue.size, size] <;> omega
  | ended pulling =>
    have none := answers.result?_eq_none pulling Stage.pulling_ne_finished
    simp [left, none, pulling]
  | wrote replying | refused replying =>
    have none := answers.result?_eq_none replying (Stage.replying_ne_finished _)
    simp [left, none, replying, Queue.size]
  | returned => exact Nat.zero_le _

private theorem Serves.queue_closed (serves : Serves registrations codec watched after) :
    after.link.queue.closed = watched.link.queue.closed := by
  cases serves <;> rfl

private theorem closed_act (closed : watched.link.queue.closed = true) (next : Act) :
    (watched.act (Handlers.registered registrations) codec next).link.queue.closed = true := by
  cases next with
  | serve =>
    rw [act]
    rcases turns registrations codec watched with ⟨-, same, -⟩ | ⟨-, serves⟩
    · rw [same]
      exact closed
    · exact serves.queue_closed.trans closed
  | enqueue unit => simp [act, Queue.enqueue, closed]
  | closeQueue => rfl
  | sink sink => exact closed

private theorem Answers.left_act (answers : Answers registrations codec core watched)
    (closed : watched.link.queue.closed = true) (next : Act) :
    let handlers := Handlers.registered registrations
    (watched.act handlers codec next).left ≤
      watched.left - watched.moves handlers codec [next] := by
  intro handlers
  cases next with
  | serve =>
    rw [Watched.act, moves, moves]
    rcases turns registrations codec watched with ⟨waits, same, -⟩ | ⟨moved, serves⟩
    · rw [same, if_pos waits]
      exact Nat.le_refl _
    · rw [if_neg (ne_true_of_eq_false moved)]
      exact answers.left_serves serves
  | enqueue unit =>
    have same : watched.act handlers codec (.enqueue unit) = watched := by
      simp [Watched.act, Queue.enqueue, closed]
    rw [same]
    exact Nat.le_refl _
  | closeQueue | sink => exact Nat.le_refl _

private theorem moves_cons (handlers : Handlers σ) (watched : Watched σ) (next : Act)
    (rest : List Act) :
    watched.moves handlers codec (next :: rest) = watched.moves handlers codec [next] +
      (watched.act handlers codec next).moves handlers codec rest := by
  cases next <;> simp [moves]

/-- Once the queue is closed, every move of the handlers brings them nearer to their end. -/
theorem Answers.left_run (answers : Answers registrations codec core watched)
    (closed : watched.link.queue.closed = true) (acts : List Act) :
    let handlers := Handlers.registered registrations
    (watched.run handlers codec acts).left ≤ watched.left - watched.moves handlers codec acts := by
  intro handlers
  induction acts generalizing watched with
  | nil => exact Nat.le_refl _
  | cons next rest ih =>
    have here := answers.left_act closed next
    have later := ih (answers.act next) (closed_act closed next)
    rw [moves_cons, ← Nat.sub_sub]
    exact Nat.le_trans later (Nat.sub_le_sub_right here _)

/-- The handlers come to a good end, once the queue is closed and they could move often enough. -/
theorem Answers.returns (answers : Answers registrations codec core watched)
    (closed : watched.link.queue.closed = true) {acts : List Act}
    (enough : 2 * watched.link.queue.size + 3 ≤
      watched.moves (Handlers.registered registrations) codec acts) :
    (watched.run (Handlers.registered registrations) codec acts).result? = some (.ok ()) := by
  have spent : (watched.run (Handlers.registered registrations) codec acts).left = 0 := by
    have most := watched.left_le
    have nearer := answers.left_run closed acts
    dsimp only at nearer
    omega
  cases returned : (watched.run (Handlers.registered registrations) codec acts).result? with
  | none =>
    unfold left at spent
    rw [returned] at spent
    split at spent <;> simp_all
  | some result =>
    have reached := answers.run acts
    rw [(reached.ended result (reached.returned result returned)).1]

/-! ## What reaches the sink -/

/-- What was written in between is what the sink holds more, behind what it held. -/
def Gains (before after : Watched σ) : Prop :=
  ∃ units, after.link.sink.units = before.link.sink.units ++ units ∧
    after.written = before.written ++ units

private theorem Gains.nothing {before after : Watched σ}
    (units : after.link.sink.units = before.link.sink.units)
    (written : after.written = before.written) : Gains before after :=
  ⟨[], by rw [units, List.append_nil], by rw [written, List.append_nil]⟩

private theorem Gains.trans {first second third : Watched σ} (before : Gains first second)
    (behind : Gains second third) : Gains first third := by
  obtain ⟨units, held, written⟩ := before
  obtain ⟨further, heldThen, writtenThen⟩ := behind
  exact ⟨units ++ further, by rw [heldThen, held, List.append_assoc],
    by rw [writtenThen, written, List.append_assoc]⟩

private theorem Serves.gains (serves : Serves registrations codec watched after) :
    Gains watched after := by
  cases serves with
  | wrote => exact ⟨_, rfl, rfl⟩
  | took | ended | refused | returned => exact .nothing rfl rfl

private theorem gains_serve (registrations : List (String × Handler σ)) (codec : Codec)
    (watched : Watched σ) :
    Gains watched (watched.serve (Handlers.registered registrations) codec) := by
  rcases turns registrations codec watched with ⟨-, same, -⟩ | ⟨-, serves⟩
  · rw [same]
    exact .nothing rfl rfl
  · exact serves.gains

/-- While nobody else touches the sink, it gains what is written and nothing else. -/
theorem gains_run (registrations : List (String × Handler σ)) (codec : Codec)
    (watched : Watched σ) {acts : List Act} (alone : ∀ sink, .sink sink ∉ acts) :
    Gains watched (watched.run (Handlers.registered registrations) codec acts) := by
  induction acts generalizing watched with
  | nil => exact .nothing rfl rfl
  | cons next rest ih =>
    have later := ih (watched.act (Handlers.registered registrations) codec next)
      fun sink member => alone sink (List.mem_cons_of_mem _ member)
    refine Gains.trans ?_ later
    cases next with
    | serve => exact gains_serve registrations codec watched
    | enqueue unit =>
      rw [act]
      split <;> exact .nothing rfl rfl
    | closeQueue => exact .nothing rfl rfl
    | sink sink => exact absurd List.mem_cons_self (alone sink)

/-! ## Whole runs -/

/-- What handlers answer, however units arrive and whatever becomes of the sink. At any time the
units that were taken decide where the core is, and which replies are due in which order; those that
were written are the first of these. Written is what a move of the handlers brings into the sink,
behind all that is in it. When the handlers return it is without an error, and if no reply was
refused then every unit was taken and every reply written. On a closed queue they wait for nothing
but room in the sink, and return. -/
theorem run_answers (registrations : List (String × Handler σ)) (codec : Codec) (core : σ)
    (link : Link) (acts : List Act) :
    let handlers := Handlers.registered registrations
    let reached := (create core link).run handlers codec acts
    let dues := Handlers.dues registrations codec core
    Answers registrations codec core reached ∧
      reached.written <+: (dues reached.arrived).1 ∧
      Gains reached (reached.serve handlers codec) ∧
      ((∀ sink, .sink sink ∉ acts) →
        reached.link.sink.units = link.sink.units ++ reached.written) ∧
      (∀ result, reached.result? = some result → result = .ok () ∧ (reached.refused = [] →
        reached.taken = reached.arrived ∧ reached.written = (dues reached.arrived).1 ∧
          reached.router.core = (dues reached.arrived).2)) ∧
      (reached.link.queue.closed = true →
        (reached.waits handlers codec = true → ∃ reply, reached.router.stage = .replying reply ∧
          reached.link.sink.closed = false ∧
          reached.link.sink.capacity ≤ reached.link.sink.size) ∧
        ∀ later, 2 * reached.link.queue.size + 3 ≤ reached.moves handlers codec later →
          (reached.run handlers codec later).result? = some (.ok ())) := by
  intro handlers reached dues
  have answers : Answers registrations codec core reached := (answers_create core link).run acts
  have whole : (dues reached.arrived).1 = reached.written ++ (reached.refused ++
      (reached.router.stage.reply?.toList ++ (Handlers.dues registrations codec
        (dues reached.taken).2 reached.link.queue.units).1)) := by
    rw [answers.order]
    simp only [dues, Handlers.dues_append, ← answers.replies, List.append_assoc]
  refine ⟨answers, ⟨_, whole.symm⟩, gains_serve registrations codec reached, ?alone, ?returned,
    fun closed => ⟨?waits, ?returns⟩⟩
  case alone =>
    intro alone
    obtain ⟨units, held, written⟩ := gains_run registrations codec (create core link) alone
    rw [held, written]
    rfl
  case returned =>
    intro result returned
    have finished := answers.returned result returned
    obtain ⟨good, why⟩ := answers.ended result finished
    refine ⟨good, fun none => ?_⟩
    obtain ⟨empty, -⟩ := why.resolve_left (not_not_intro none)
    have all : reached.taken = reached.arrived := by rw [answers.order, empty, List.append_nil]
    have replies := answers.replies
    rw [finished, none] at replies
    rw [← all]
    exact ⟨rfl, by simpa using replies, answers.acted⟩
  case waits =>
    intro waits
    rcases turns registrations codec reached with ⟨-, -, waiting⟩ | ⟨moves, -⟩
    · cases waiting with
      | unit _ _ opened => cases closed.symm.trans opened
      | room replying opened full => exact ⟨_, replying, opened, full⟩
    · cases moves.symm.trans waits
  case returns => exact fun later enough => answers.returns closed enough

/-- A unit that is no message, a request, a notification, and a request that nobody answers. The
sink is read once in between. -/
theorem run_answers_mixed :
    let codec : Codec := ⟨.json, .bare⟩
    let count : Handler Nat := fun _ seen => (.ok (.ofNat seen), seen + 1)
    let units := [[0], codec.encode (.request (.number 1) "count" .null),
      codec.encode (.notification "count" .null),
      codec.encode (.request (.string "a") "other" .null)]
    let replies := [codec.encode (.response (.number 1) (.ok (.ofNat 0))),
      codec.encode (.response (.string "a") (.error (.methodNotFound "other")))]
    let link : Link := ⟨{ units, closed := true }, Sink.create 1⟩
    let acts := List.replicate 5 .serve ++ .sink (Sink.create 1) :: List.replicate 3 .serve
    let reached := (create 0 link).run (Handlers.registered [("count", count)]) codec acts
    reached.result? = some (.ok ()) ∧ reached.taken = units ∧ reached.written = replies ∧
      reached.router.core = 2 ∧ reached.link.sink.units = replies.tail := by
  intro codec count units replies link acts reached
  have answers := run_answers [("count", count)] codec 0 link acts
  obtain ⟨-, -, -, -, returns, -⟩ := answers
  obtain ⟨-, whole⟩ := returns (.ok ()) rfl
  obtain ⟨taken, written, core⟩ := whole rfl
  exact ⟨rfl, taken, written, core, rfl⟩

end Watched

end Airlock
