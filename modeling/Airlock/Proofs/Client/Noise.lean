import Airlock.Proofs.Client.Deafness
import Airlock.Proofs.Client.Dealings

/-!
# Noise among the incoming units

A unit is noise where it comes in when it is no message, answers no request in flight, or notifies
of what nobody handles. A run with noise put in anywhere is the run without it, but for the events:
each noise is acted on in one step of the loop that changes nothing else.
-/

set_option autoImplicit false

namespace Airlock

/-- What happens to an event buffer. -/
inductive Notice where
  | told (event : Event)
  | read

def EventBuffer.after (buffer : EventBuffer) : Notice → EventBuffer
  | .told event => buffer.push event
  | .read => buffer.takeAll.2

namespace Client

/-! ## Acting on a unit -/

/-- The events that acting on a unit keeps. -/
def reports (client : Client) (unit : Bytes) : List Event :=
  match client.codec.decode unit with
  | .error error => [.decodeFailed error]
  | .ok (.response id _) => if client.pending.contains id then [] else [.orphaned id]
  | .ok (.notification _ _) | .ok (.request _ _ _) => []

/-- The handlers that acting on a unit calls, by their methods, with the params. -/
def called (client : Client) (unit : Bytes) : List (String × Value) :=
  match client.codec.decode unit with
  | .ok (.notification method params) =>
    if (client.notificationHandlers.lookup method).isSome then [(method, params)] else []
  | .ok (.request _ method params) =>
    if (client.requestHandlers.lookup method).isSome then [(method, params)] else []
  | .ok (.response _ _) | .error _ => []

variable {client after : Client} (events : EventBuffer)

private theorem response_veil (deaf : client.Deaf) (id : Id) (outcome : Outcome) :
    (client.veil events).acceptResponse id outcome =
        (client.acceptResponse id outcome).veil
          (if client.pending.contains id then events else events.push (.orphaned id)) ∧
      Trail.blind ((client.veil events).responseTrail id outcome) =
        Trail.blind (client.responseTrail id outcome) := by
  have left : (client.leaving id).Deaf := deaf.of_listeners rfl
  obtain ⟨ended, endedTrail⟩ := endHandshake_veil events left id outcome
  have leaving : (client.veil events).leaving id = (client.leaving id).veil events := rfl
  have waits : (client.veil events).pending = client.pending := rfl
  have handed (before : Client) (waited : Bool) :
      (before.veil events).handingOver id outcome waited =
        (before.handingOver id outcome waited).veil
          (if waited then events else events.push (.orphaned id)) := by
    cases waited <;> rfl
  rw [acceptResponse_eq, acceptResponse_eq, responseTrail_eq, responseTrail_eq, leaving, waits]
  by_cases outstanding : (client.leaving id).handshake? = some id
  · have still : ((client.leaving id).veil events).handshake? = some id := outstanding
    simp only [if_pos outstanding, if_pos still, ended, handed, true_and]
    simp only [Trail.blind, List.map_cons, List.map_append, veil_veil] at endedTrail ⊢
    rw [endedTrail]
  · have still : ((client.leaving id).veil events).handshake? ≠ some id := outstanding
    simp only [if_neg outstanding, if_neg still, handed, true_and]
    rfl

/-- What a deaf client makes of a unit is the same with any events in waiting. -/
theorem accept_veil (deaf : client.Deaf) (unit : Bytes) :
    (client.veil events).accept unit =
        (client.accept unit).veil ((client.reports unit).foldl EventBuffer.push events) ∧
      Trail.blind ((client.veil events).acceptTrail unit) =
        Trail.blind (client.acceptTrail unit) := by
  have same : (client.veil events).codec = client.codec := rfl
  unfold accept acceptTrail reports
  rw [same]
  cases client.codec.decode unit with
  | error error => exact ⟨rfl, rfl⟩
  | ok message =>
    cases message with
    | response id outcome =>
      obtain ⟨accepted, trail⟩ := response_veil events deaf id outcome
      refine ⟨accepted.trans ?_, trail⟩
      dsimp only
      split <;> rfl
    | notification method params =>
      have handlers : (client.veil events).notificationHandlers = client.notificationHandlers := rfl
      dsimp only
      unfold acceptNotification notificationTrail
      rw [handlers]
      cases registered : client.notificationHandlers.lookup method with
      | none => exact ⟨rfl, rfl⟩
      | some handler =>
        obtain ⟨ran, trail⟩ :=
          perform_veil events (Deaf.handler deaf.notifications registered params) client
        exact ⟨congrArg Prod.snd ran, trail⟩
    | request id method params =>
      have handlers : (client.veil events).requestHandlers = client.requestHandlers := rfl
      have replied (before : Client) (outcome : Outcome) :
          Trail.blind ((before.veil events).replyTrail id outcome) =
            Trail.blind (before.replyTrail id outcome) := by
        unfold replyTrail
        rw [send_veil]
        cases before.send (.response id outcome) <;> rfl
      dsimp only
      unfold acceptRequest answerTrail
      rw [handlers]
      cases registered : client.requestHandlers.lookup method with
      | none => exact ⟨sendIfOpen_veil events client _, replied client _⟩
      | some handler =>
        obtain ⟨ran, trail⟩ :=
          perform_veil events (Deaf.handler deaf.requests registered params) client
        dsimp only
        rw [ran, Trail.blind_append, Trail.blind_append, trail, replied]
        exact ⟨sendIfOpen_veil events _ _, rfl⟩

/-! ## Noise -/

/-- A unit that changes nothing where it comes in, after so many calls for a request. Once there
were so many that numbers come round again, the number of the outstanding handshake may be in flight
no more; a response to it is no noise then. -/
def Noise (client : Client) (calls : Nat) (unit : Bytes) : Prop :=
  match client.codec.decode unit with
  | .error _ => True
  | .ok (.response id _) =>
    id ∉ client.pending.ids ∧ (0x8000000000000000 ≤ calls → client.handshake? ≠ some id)
  | .ok (.notification method _) => client.notificationHandlers.lookup method = none
  | .ok (.request _ _ _) => False

/-- What is more than an event or a step of the loop. -/
def Occurrence.audible : Occurrence → Bool
  | .quiet | .orphaned _ | .arrived _ _ false => false
  | _ => true

/-- The audible part of a trail, with nothing said of event buffers. -/
def Trail.audible (trail : Trail) : Trail :=
  (Trail.blind trail).filter (·.1.audible)

private theorem leaving_absent {id : Id} (absent : id ∉ client.pending.ids) :
    client.leaving id = client := by
  have same : client.pending.ids.filter (· ≠ id) = client.pending.ids := by
    refine List.filter_eq_self.mpr fun other member => decide_eq_true ?_
    rintro rfl
    exact absent member
  rw [leaving, InFlight.remove, same]

/-- Noise is acted on with its event and nothing else. The outstanding handshake is in flight, so an
orphan is not the response to it. -/
theorem accept_noise {calls : Nat} (sound : Sound calls client) {unit : Bytes}
    (noise : client.Noise calls unit) :
    client.accept unit =
        client.veil ((client.reports unit).foldl EventBuffer.push client.events) ∧
      Trail.audible (client.acceptTrail unit) = [] ∧ client.called unit = [] := by
  unfold Noise at noise
  unfold accept acceptTrail reports called
  cases reads : client.codec.decode unit with
  | error error => exact ⟨rfl, rfl, rfl⟩
  | ok message =>
    rw [reads] at noise
    cases message with
    | request id method params => exact noise.elim
    | notification method params =>
      have unhandled : client.notificationHandlers.lookup method = none := noise
      simp [acceptNotification, notificationTrail, unhandled]
      rfl
    | response id outcome =>
      obtain ⟨absent, late⟩ := noise
      have other : client.handshake? ≠ some id := by
        by_cases few : calls < 0x8000000000000000
        · exact fun outstanding => absent (sound.outstanding few id outstanding)
        · exact late (Nat.not_lt.mp few)
      have unknown : client.pending.contains id = false := decide_eq_false absent
      dsimp only
      rw [acceptResponse_eq, responseTrail_eq, leaving_absent absent, if_neg other, if_neg other,
        unknown]
      exact ⟨rfl, rfl, rfl⟩

/-! ## Suspended calls -/

private theorem pollAwaited_veil (client : Client) (now : Duration) (awaited : Awaited) :
    (client.veil events).pollAwaited now awaited =
      ((client.pollAwaited now awaited).1, (client.pollAwaited now awaited).2.1,
        (client.pollAwaited now awaited).2.2.veil events) := by
  have decided : (client.veil events).result? awaited.id = client.result? awaited.id := rfl
  have limit : (client.veil events).timeout? = client.timeout? := rfl
  unfold pollAwaited
  rw [decided, limit]
  cases client.result? awaited.id with
  | some result => rfl
  | none =>
    cases client.timeout? with
    | none => rfl
    | some timeout =>
      dsimp only
      split
      · let left : Client := { client.leaving awaited.id with timeout? := some timeout }
        let late : Except Error Value := .error (.timeout awaited.id timeout)
        exact congrArg (fun last => (Poll.ready late, awaited, last))
          (abandonHandshake_veil events left awaited.id)
      · rfl

private theorem pollTrail_veil (client : Client) (now : Duration) (awaited : Awaited) :
    Trail.blind ((client.veil events).pollTrail now awaited) =
      Trail.blind (client.pollTrail now awaited) := by
  have decided : (client.veil events).result? awaited.id = client.result? awaited.id := rfl
  have limit : (client.veil events).timeout? = client.timeout? := rfl
  unfold pollTrail
  rw [pollAwaited_veil, decided, limit]
  rcases client.pollAwaited now awaited with ⟨result | _, later, after⟩
  · cases client.result? awaited.id <;> cases client.timeout? <;> rfl
  · rfl

private theorem finishShutdown_veil (client : Client) (answer : Except Error Value) :
    ((client.veil events).finishShutdown answer).2 =
        (client.finishShutdown answer).2.veil events ∧
      Trail.blind ((client.veil events).finishTrail answer) =
        Trail.blind (client.finishTrail answer) := by
  cases answer with
  | error error => exact ⟨close_veil events client, closeTrail_veil events client⟩
  | ok value =>
    simp only [finishShutdown, finishTrail, notifyIfOpen_veil, close_veil, Trail.blind_append,
      notifyTrail_veil, closeTrail_veil, and_self]

private theorem Deaf.step (deaf : client.Deaf) : client.step.2.Deaf := by
  have receivedDeaf : client.received.Deaf := deaf.of_listeners rfl
  rw [(step_eq client).2]
  rcases client.link.receive.1 with (error | _ | unit) | _
  · exact receivedDeaf.close
  · exact receivedDeaf.close
  · exact receivedDeaf.accept unit
  · exact receivedDeaf

/-- How a step of the loop ends is decided by what it reads. -/
theorem step_intake (client : Client) :
    client.step.1 =
      match client.link.receive.1 with
      | .waiting => .waiting
      | .ready (.ok (some _)) => .accepted
      | .ready (.ok none) => .ended (.ok ())
      | .ready (.error error) => .ended (.error error) := by
  unfold step
  rcases client.link.receive with ⟨(error | _ | unit) | _, link⟩ <;> rfl

private theorem step_veil (deaf : client.Deaf) :
    (client.veil events).step =
        (client.step.1, client.step.2.veil
          ((client.next?.toList.flatMap client.reports).foldl EventBuffer.push events)) ∧
      Trail.blind (client.veil events).stepTrail = Trail.blind client.stepTrail := by
  have receivedDeaf : client.received.Deaf := deaf.of_listeners rfl
  have receives : (client.veil events).received = client.received.veil events := rfl
  have polls : (client.veil events).link.receive.1 = client.link.receive.1 := rfl
  have ends : (client.veil events).step.1 = client.step.1 := by
    rw [step_intake, step_intake, polls]
  obtain ⟨veiledTrail, veiled⟩ := step_eq (client.veil events)
  obtain ⟨plainTrail, plain⟩ := step_eq client
  rw [← Prod.eta (client.veil events).step, ends, veiled, plain, veiledTrail, plainTrail, polls,
    receives]
  unfold next?
  rcases client.link.receive.1 with (error | _ | unit) | _
  · exact ⟨congrArg _ (close_veil events _), congrArg (_ :: ·) (closeTrail_veil events _)⟩
  · exact ⟨congrArg _ (close_veil events _), congrArg (_ :: ·) (closeTrail_veil events _)⟩
  · obtain ⟨accepted, trail⟩ := accept_veil events receivedDeaf unit
    refine ⟨congrArg _ (accepted.trans ?_), congrArg (_ :: ·) trail⟩
    rw [Option.toList_some, List.flatMap_singleton]
    rfl
  · exact ⟨rfl, rfl⟩

/-! ## Worlds -/

/-- The acts that do the same whatever events there are: an application may read them, and goes on
in one way. -/
def Act.Deaf : Act → Prop
  | .call (.takeEvents next) => ∃ rest : Program, rest.Deaf ∧ ∀ events, next events = rest
  | .call program => program.Deaf
  | _ => True

namespace World

def veil (world : World) (events : EventBuffer) : World :=
  { world with client := world.client.veil events }

/-- What happens to the event buffer in an act. -/
def notices (world : World) : Act → List Notice
  | .call (.takeEvents _) => [.read]
  | .intake =>
    if world.looping then
      (world.client.next?.toList.flatMap world.client.reports).map .told
    else []
  | _ => []

/-- The handlers that the loop calls in an act, by their methods, with the params. -/
def actCalled (world : World) : Act → List (String × Value)
  | .intake => if world.looping then world.client.next?.toList.flatMap world.client.called else []
  | _ => []

private theorem pollWaiter_veil (world : World) (now : Duration) (waiter : Waiter) :
    (world.veil events).pollWaiter now waiter = (world.pollWaiter now waiter).veil events ∧
      Trail.blind ((world.veil events).waiterTrail now waiter) =
        Trail.blind (world.waiterTrail now waiter) := by
  have polled := pollAwaited_veil events world.client now waiter.awaited
  have polledTrail := pollTrail_veil events world.client now waiter.awaited
  have same : (world.veil events).client = world.client.veil events := rfl
  unfold pollWaiter waiterTrail
  rw [same, polled, Trail.blind_append, Trail.blind_append, polledTrail]
  rcases world.client.pollAwaited now waiter.awaited with ⟨result | _, later, after⟩
  · obtain ⟨finished, finishedTrail⟩ := finishShutdown_veil events after result
    dsimp only
    rw [finished]
    cases waiter.ends with
    | true => exact ⟨rfl, congrArg _ finishedTrail⟩
    | false => exact ⟨rfl, rfl⟩
  · exact ⟨rfl, rfl⟩

private theorem deaf_pollWaiter {world : World} (deaf : world.client.Deaf) (now : Duration)
    (waiter : Waiter) : (world.pollWaiter now waiter).client.Deaf := by
  unfold pollWaiter
  rcases polled : world.client.pollAwaited now waiter.awaited with ⟨result | _, later, after⟩
  · have left : after.Deaf := by
      obtain ⟨-, rfl⟩ | ⟨timeout, -, -, -, rfl⟩ := pollAwaited_ready polled
      · exact deaf
      · exact deaf.of_listeners (listeners_abandonHandshake (world.client.leaving _) _)
    dsimp only
    unfold finishShutdown
    cases waiter.ends with
    | false => exact left
    | true =>
      cases result with
      | error error => exact left.close
      | ok value => exact (left.of_listeners (listeners_notifyIfOpen after .exit)).close
  · obtain ⟨rfl, -⟩ := pollAwaited_waiting polled
    exact deaf

private theorem call_veil {world : World} (deaf : world.client.Deaf) {program : Program}
    (quiet : program.Deaf) :
    (world.veil events).act (.call program) = (world.act (.call program)).veil events ∧
      Trail.blind ((world.veil events).actTrail (.call program)) =
        Trail.blind (world.actTrail (.call program)) ∧
      (world.act (.call program)).client.Deaf := by
  obtain ⟨ran, trail⟩ := perform_veil events quiet world.client
  exact ⟨congrArg (fun pair => { world with client := pair.2 }) ran, trail, deaf.perform quiet⟩

/-- The application reads the events and goes on in one way. -/
theorem read_veil {world : World} (deaf : world.client.Deaf) {next : List Event → Program}
    {rest : Program} (quiet : rest.Deaf) (one : ∀ events, next events = rest) :
    (world.veil events).act (.call (.takeEvents next)) =
        (world.act (.call (.takeEvents next))).veil events.takeAll.2 ∧
      Trail.blind ((world.veil events).actTrail (.call (.takeEvents next))) =
        Trail.blind (world.actTrail (.call (.takeEvents next))) ∧
      (world.act (.call (.takeEvents next))).client.Deaf := by
  obtain ⟨here, hereTrail⟩ := perform_veil world.client.events.takeAll.2 quiet world.client
  obtain ⟨there, thereTrail⟩ := perform_veil events.takeAll.2 quiet world.client
  have plain : perform (.takeEvents next) world.client =
      perform rest (world.client.veil world.client.events.takeAll.2) := by
    rw [← one world.client.events.takeAll.1]
    rfl
  have veiled : perform (.takeEvents next) (world.client.veil events) =
      perform rest (world.client.veil events.takeAll.2) := by
    rw [← one events.takeAll.1]
    rfl
  have taken : (world.client.veil world.client.events.takeAll.2).Deaf := deaf.of_listeners rfl
  refine ⟨?_, ?_, ?_⟩
  · have same := congrArg (fun pair : Outcome × Client =>
      (pair.1, pair.2.veil events.takeAll.2)) (plain.trans here)
    exact congrArg (fun pair => { world with client := pair.2 })
      (veiled.trans (there.trans same.symm))
  · show Trail.blind ((.quiet, _) :: performTrail (next events.takeAll.1) _) =
      Trail.blind ((.quiet, _) :: performTrail (next world.client.events.takeAll.1) _)
    rw [one, one]
    exact congrArg (_ :: ·) (thereTrail.trans hereTrail.symm)
  · show (perform (.takeEvents next) world.client).2.Deaf
    rw [plain]
    exact taken.perform quiet

theorem intake_veil {world : World} (deaf : world.client.Deaf) :
    (world.veil events).act .intake =
        (world.act .intake).veil ((world.notices .intake).foldl EventBuffer.after events) ∧
      Trail.blind ((world.veil events).actTrail .intake) = Trail.blind (world.actTrail .intake) ∧
      (world.act .intake).client.Deaf := by
  cases looping : world.looping with
  | false =>
    have idle : (world.veil events).looping = false := looping
    rw [(intake_idle looping).1, (intake_idle looping).2, (intake_idle idle).1,
      (intake_idle idle).2, notices, if_neg (by simp [looping])]
    exact ⟨rfl, rfl, deaf⟩
  | true =>
    have busy : (world.veil events).looping = true := looping
    obtain ⟨stepped, trail⟩ := step_veil events deaf
    have veiled : (world.veil events).client = world.client.veil events := rfl
    rw [(intake_looping looping).1, (intake_looping looping).2, (intake_looping busy).1, notices,
      if_pos looping, List.foldl_map]
    refine ⟨?_, trail, deaf.step⟩
    simp only [act, looping, busy, veiled, stepped, if_true]
    rcases world.client.step with ⟨_ | _ | _, after⟩ <;> rfl

/-- An act on a client that does not listen is the same with any events in waiting, and the client
goes on not listening. -/
theorem act_veil {world : World} (deaf : world.client.Deaf) {act : Act} (quiet : act.Deaf) :
    (world.veil events).act act =
        (world.act act).veil ((world.notices act).foldl EventBuffer.after events) ∧
      Trail.blind ((world.veil events).actTrail act) = Trail.blind (world.actTrail act) ∧
      (world.act act).client.Deaf := by
  cases act with
  | call program =>
    cases program with
    | takeEvents next =>
      obtain ⟨rest, quiet, one⟩ := quiet
      exact read_veil events deaf quiet one
    | _ => exact call_veil events deaf quiet
  | start =>
    have same : (world.veil events).client.running = world.client.running := rfl
    simp only [World.act, World.actTrail, manage, manageTrail, startDrain, same]
    cases world.client.running with
    | true => exact ⟨rfl, rfl, deaf⟩
    | false => exact ⟨rfl, rfl, deaf.of_listeners rfl⟩
  | intake => exact intake_veil events deaf
  | await id =>
    have same : (world.veil events).client.handles = world.client.handles := rfl
    simp only [World.act, World.actTrail, manage, manageTrail, same]
    split
    · exact ⟨rfl, rfl, deaf.of_listeners rfl⟩
    · exact ⟨rfl, rfl, deaf⟩
  | shutdown =>
    have asked := request_veil events world.client .shutdown
    have askedTrail := requestTrail_veil events world.client .shutdown
    have same := listeners_request world.client .shutdown
    have veiled : (world.veil events).client = world.client.veil events := rfl
    simp only [World.act, World.actTrail, manage, manageTrail, beginShutdown, veiled, asked,
      Trail.blind_append, askedTrail]
    rcases result : world.client.request .shutdown with ⟨error | id, after⟩
    · rw [result] at same
      exact ⟨congrArg (fun client => { world with client }) (close_veil events after),
        congrArg (_ ++ ·) (closeTrail_veil events after), (deaf.of_listeners same).close⟩
    · rw [result] at same
      exact ⟨rfl, rfl, deaf.of_listeners same⟩
  | poll id now =>
    have same : (world.veil events).waiter? id = world.waiter? id := rfl
    simp only [World.act, World.actTrail, manage, manageTrail, same]
    cases world.waiter? id with
    | none => exact ⟨rfl, rfl, deaf⟩
    | some waiter =>
      obtain ⟨polled, trail⟩ := pollWaiter_veil events world now waiter
      exact ⟨polled, trail, deaf_pollWaiter deaf now waiter⟩
  | cancel | forget | link => exact ⟨rfl, rfl, deaf.of_listeners rfl⟩

end World

end Client

end Airlock
