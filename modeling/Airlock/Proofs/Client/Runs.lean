import Airlock.Proofs.Client.Path

/-!
# Every trail is a path

The functions of a client are followed once, from sending a message up to a whole run: what each of
them lists is a path to where it ends. Whatever a function begins it also ends, so the frame of the
history is the same before and after it; only a poll and an act of a world change which handles are
awaited.
-/

set_option autoImplicit false

namespace Airlock.Client

variable {π : Type}

theorem send_eq (client : Client π) (message : Message) :
    client.send message =
      if client.link.queue.closed then .error .closed else .ok (client.enqueued message) := by
  unfold send Link.send Queue.enqueue
  split <;> rfl

theorem send_ok {client sent : Client π} {message : Message}
    (accepted : client.send message = .ok sent) : sent = client.enqueued message := by
  rw [send_eq] at accepted
  split at accepted
  · cases accepted
  · exact (Except.ok.inj accepted).symm

theorem notify_ok {client sent : Client π} {call : Call}
    (accepted : client.notify call = .ok sent) :
    client.phase ≠ .closed ∧ sent = client.enqueued call.toNotification := by
  unfold notify at accepted
  split at accepted
  · cases accepted
  · rename_i live
    exact ⟨live, send_ok accepted⟩

/-- A begun request is sent, or what is left is the client with the request taken back. -/
theorem submit_cases (client : Client π) (id : Id) (call : Call) :
    client.submit id call = (.ok id, (client.entering id).enqueued (call.toRequest id)) ∨
      ∃ error, client.submit id call = (.error error, client.withdraw id call) := by
  unfold submit
  cases entered : client.enter id call with
  | error error => exact .inr ⟨error, rfl⟩
  | ok sent =>
    refine .inl ?_
    unfold enter InFlight.add? at entered
    split at entered
    · cases entered
    · rename_i pending taken
      have same : sent = { client with pending }.enqueued (call.toRequest id) := send_ok entered
      split at taken
      · cases taken
      · cases taken
        rw [same]
        rfl

theorem begin_eq (client : Client π) (call : Call) :
    client.begin call =
      if client.phase = .closed then (.error .closed, client.numbered)
      else if call.method ≠ Methods.handshake then (.ok (.number client.nextId), client.numbered)
      else if client.phase = .uninitialized then (.ok (.number client.nextId), client.attempting)
      else (.error (.invalidState "initialize was already sent"), client.numbered) := rfl

/-- Asking a closed client, or for a second handshake, is refused at once. -/
theorem begin_refused {client refused : Client π} {call : Call} {error : Error}
    (begun : client.begin call = (.error error, refused)) :
    refused = client.numbered ∧ (client.phase = .closed ∨
      call.method = Methods.handshake ∧ client.phase ≠ .uninitialized) := by
  simp only [begin] at begun
  split at begun
  · rename_i closed
    cases begun
    exact ⟨rfl, .inl closed⟩
  · split at begun
    · cases begun
    · rename_i opening
      split at begun
      · cases begun
      · rename_i busy
        cases begun
        exact ⟨rfl, .inr ⟨Decidable.not_not.mp opening, busy⟩⟩

theorem begin_ok {client begun : Client π} {call : Call} {id : Id}
    (accepted : client.begin call = (.ok id, begun)) :
    id = .number client.nextId ∧ client.phase ≠ .closed ∧
      (call.method ≠ Methods.handshake ∧ begun = client.numbered ∨
        call.method = Methods.handshake ∧ client.phase = .uninitialized ∧
          begun = client.attempting) := by
  simp only [begin] at accepted
  split at accepted
  · cases accepted
  · rename_i live
    split at accepted
    · rename_i plain
      cases accepted
      exact ⟨rfl, live, .inl ⟨plain, rfl⟩⟩
    · rename_i opening
      split at accepted
      · rename_i idle
        cases accepted
        exact ⟨rfl, live, .inr ⟨Decidable.not_not.mp opening, idle, rfl⟩⟩
      · cases accepted

private theorem step_request (history : History π) (client : Client π) (call : Call) :
    Step history client (client.requestTrail call) (client.request call).2 := by
  unfold requestTrail submitted request
  cases result : client.begin call with
  | mk reply begun =>
  cases reply with
  | error error =>
    obtain ⟨rfl, barred⟩ := begin_refused result
    exact .refused barred
  | ok id =>
    obtain ⟨rfl, live, ⟨plain, rfl⟩ | ⟨opening, idle, rfl⟩⟩ := begin_ok result
    · dsimp only
      rw [if_neg plain]
      rcases submit_cases client.numbered (.number client.nextId) call with sent | ⟨error, undone⟩
      · rw [sent]
        exact .issued live plain rfl
      · rw [undone, withdraw, if_neg plain]
        exact .withdrawn live plain
    · dsimp only
      rw [if_pos opening]
      rcases submit_cases client.attempting (.number client.nextId) call with sent | ⟨error, undone⟩
      · rw [sent]
        exact .attemptIssued idle opening rfl
      · rw [undone, withdraw, if_pos opening]
        refine .attemptWithdrawn idle opening ?_
        simp [abandonHandshake, attempting, leaving, numbered, idle]

theorem request_ok {client sent : Client π} {call : Call} {id : Id} (history : History π)
    (accepted : client.request call = (.ok id, sent)) :
    (history.extend (client.requestTrail call)).head? = some (.issued id call) := by
  unfold request at accepted
  unfold requestTrail submitted
  cases result : client.begin call with
  | mk reply begun =>
  cases reply with
  | error error => simp [result] at accepted
  | ok number =>
    simp only [result] at accepted
    dsimp only
    rcases submit_cases begun number call with submitted | ⟨error, undone⟩
    · rw [submitted] at accepted ⊢
      cases accepted
      split <;> simp
    · rw [undone] at accepted
      cases accepted

private theorem frame_requestTrail (history : History π) (client : Client π) (call : Call) :
    (history.extend (client.requestTrail call)).frame = history.frame := by
  unfold requestTrail submitted
  split
  · rfl
  · dsimp only
    split <;> split <;> rfl

/-! ## Every trail is a path -/

/-- A path that ends everything that it begins. -/
structure Whole (history : History π) (client : Client π) (trail : Trail π) (last : Client π) :
    Prop where
  path : Path history client trail last
  frame : (history.extend trail).frame = history.frame

namespace Whole

variable {history : History π} {client middle last : Client π} {occurrence : Occurrence π}

private theorem done : Whole history client [] client :=
  ⟨.done, rfl⟩

theorem append {first second : Trail π} (before : Whole history client first middle)
    (after : Whole (history.extend first) middle second last) :
    Whole history client (first ++ second) last :=
  ⟨before.path.append after.path, by
    rw [History.extend_append]
    exact after.frame.trans before.frame⟩

/-- A step that begins and ends nothing, in front of a path that ends what it begins. -/
theorem cons {trail : Trail π} (step : Step history client [(occurrence, middle)] middle)
    (after : Whole (occurrence :: history) middle trail last)
    (plain : ∀ frame : Frame π, frame.next occurrence = frame := by exact fun _ => rfl) :
    Whole history client ((occurrence, middle) :: trail) last :=
  ⟨.cons step after.path, by
    rw [History.extend_cons]
    exact after.frame.trans (plain history.frame)⟩

theorem single (step : Step history client [(occurrence, last)] last)
    (plain : ∀ frame : Frame π, frame.next occurrence = frame := by exact fun _ => rfl) :
    Whole history client [(occurrence, last)] last :=
  .cons step .done plain

end Whole

theorem whole_request (history : History π) (client : Client π) (call : Call) :
    Whole history client (client.requestTrail call) (client.request call).2 :=
  ⟨(step_request history client call).path, frame_requestTrail history client call⟩

theorem whole_close (history : History π) (client : Client π) :
    Whole history client client.closeTrail client.close := by
  unfold closeTrail
  split
  · rename_i closed
    rw [close, if_pos closed]
    exact .done
  · rename_i live
    exact .single (.closed live)

private theorem whole_notify (history : History π) (client : Client π) (call : Call) :
    Whole history client (client.notifyTrail call) (client.notifyIfOpen call) := by
  unfold notifyTrail notifyIfOpen
  cases result : client.notify call with
  | ok sent =>
    obtain ⟨live, rfl⟩ := notify_ok result
    exact .single (.notified live)
  | error error => exact .done

/-- Clients that differ in what a quiet step may change. -/
theorem Alike.of_eq {first second : Client π} (link : second.link = first.link)
    (same : second = { first with
      running := second.running
      link := second.link
      notificationHandlers := second.notificationHandlers
      requestHandlers := second.requestHandlers
      events := second.events
      journal := second.journal }) : Alike first second :=
  ⟨same, by rw [link]; exact id, by rw [link]; exact id⟩

theorem perform_hook_early {body next : Program} {client : Client}
    (early : client.phase = .uninitialized ∨ client.phase = .awaiting) :
    perform (.hook body next) client = perform next (client.queueing body) := by
  rw [perform]
  split
  · rfl
  · rfl
  · rename_i phase
    simp [phase] at early
  · rename_i phase
    simp [phase] at early

theorem performTrail_hook_early {body next : Program} {client : Client}
    (early : client.phase = .uninitialized ∨ client.phase = .awaiting) :
    performTrail (.hook body next) client =
      (.registered body, client.queueing body) :: performTrail next (client.queueing body) := by
  rw [performTrail]
  split
  · rfl
  · rfl
  · rename_i phase
    simp [phase] at early
  · rename_i phase
    simp [phase] at early

/-- A program takes one path, and ends every hook that it begins. -/
theorem whole_perform (program : Program) (history : History) (client : Client) :
    Whole history client (performTrail program client) (perform program client).2 := by
  induction program generalizing history client with
  | finish outcome => exact .done
  | request call next ih =>
    have request := whole_request history client call
    rw [performTrail, perform]
    cases result : client.request call with
    | mk reply after =>
    rw [result] at request
    cases reply with
    | error error => exact request.append (ih (.error error) _ after)
    | ok id =>
      have fresh := request_ok history result
      exact request.append (.cons (.held fresh) (ih (.ok id) _ (after.hold id)))
  | notify call next ih =>
    have notify := whole_notify history client call
    rw [performTrail, perform]
    unfold notifyIfOpen at notify
    cases result : client.notify call with
    | ok sent =>
      rw [result] at notify
      exact notify.append (ih (.ok ()) _ sent)
    | error error =>
      rw [result] at notify
      exact notify.append (ih (.error error) _ client)
  | hook body next bodyIH nextIH =>
    cases phase : client.phase with
    | uninitialized =>
      rw [performTrail_hook_early (.inl phase), perform_hook_early (.inl phase)]
      exact .cons (.queued (.inl phase)) (nextIH _ _)
    | awaiting =>
      rw [performTrail_hook_early (.inr phase), perform_hook_early (.inr phase)]
      exact .cons (.queued (.inr phase)) (nextIH _ _)
    | initialized =>
      let started : History := .began body true :: .registered body :: history
      have inner := bodyIH started client
      have innermost : (started.extend (performTrail body client)).frame.active =
          body :: history.frame.active := by
        rw [inner.frame]
        rfl
      have stop : Step (started.extend (performTrail body client)) (perform body client).2
          [(.ended body, (perform body client).2)] (perform body client).2 := .ended innermost
      have rest := nextIH
        (.ended body :: started.extend (performTrail body client)) (perform body client).2
      rw [performTrail, perform, phase]
      refine ⟨?_, ?_⟩
      · rw [List.append_assoc]
        exact .step (.started phase) (inner.path.append (.cons stop rest.path))
      · simp only [List.cons_append, List.nil_append, History.extend_cons, History.extend_append]
        rw [rest.frame, History.frame_cons, inner.frame]
        rfl
    | closed =>
      rw [performTrail, perform, phase]
      exact .cons (.dropped phase) (nextIH _ client)
  | onNotification method handler next _ ih => exact .cons (.quiet (.of_eq rfl rfl)) (ih _ _)
  | onRequest method handler next _ ih => exact .cons (.quiet (.of_eq rfl rfl)) (ih _ _)
  | takeEvents next ih => exact .cons (.quiet (.of_eq rfl rfl)) (ih _ _ _)
  | close next ih => exact (whole_close history client).append (ih _ client.close)
  | phase next ih => exact ih client.phase history client
  | pending next ih => exact ih client.pending.ids history client
  | release id next ih => exact .cons .released (ih _ _ _)
  | holds id next ih => exact ih (client.handles.contains id) history client
  | note entry next ih => exact .cons (.quiet (.of_eq rfl rfl)) (ih _ _)

private theorem path_performAll {hooks : List Program} {history : History} (client : Client)
    (due : history.frame.due = hooks) :
    Path history client (performAllTrail hooks client) (performAll hooks client) ∧
      (history.extend (performAllTrail hooks client)).frame = { history.frame with due := [] } := by
  induction hooks generalizing history client with
  | nil =>
    refine ⟨.done, ?_⟩
    rw [performAllTrail, History.extend_nil, ← due]
  | cons hook rest ih =>
    let started : History := .began hook false :: history
    have inner := whole_perform hook started client
    have begun : started.frame =
        { history.frame with due := rest, active := hook :: history.frame.active } := by
      rw [History.frame_cons, Frame.next, due, List.tail_cons]
    let past : History := .ended hook :: started.extend (performTrail hook client)
    have overFrame : past.frame = { history.frame with due := rest } := by
      rw [History.frame_cons, inner.frame, begun]
      rfl
    have innermost : (started.extend (performTrail hook client)).frame.active =
        hook :: history.frame.active := by rw [inner.frame, begun]
    have stop : Step (started.extend (performTrail hook client)) (perform hook client).2
        [(.ended hook, (perform hook client).2)] (perform hook client).2 := .ended innermost
    have dueLater : past.frame.due = rest := by rw [overFrame]
    obtain ⟨path, same⟩ := ih (perform hook client).2 dueLater
    rw [performAllTrail]
    refine ⟨.cons (.began due) (inner.path.append (.cons stop path)), ?_⟩
    simp only [List.cons_append, History.extend_cons, History.extend_append]
    rw [same, overFrame]

/-- Draining takes one path, and leaves no handshake open. -/
theorem whole_drain {history : History} {client : Client} {id : Id} {outcome : Outcome}
    {waited : Bool} (draining : history.frame.mode = .answering id outcome waited true)
    (free : history.frame.due = []) :
    Whole history client client.drainTrail client.drainHooks ∧
      client.drainHooks.phase ≠ .awaiting := by
  fun_induction drainHooks client generalizing history with
  | case1 client none open? =>
    rw [drainTrail, if_pos none, if_pos open?]
    exact ⟨.single (.opened draining free none open? rfl), by simp⟩
  | case2 client none past =>
    rw [drainTrail, if_pos none, if_neg past]
    exact ⟨.done, past⟩
  | case3 client some ih =>
    rw [drainTrail, if_neg some]
    let taken : Client := { client with hooks := [] }
    let batched : History := .gathered client.hooks :: history
    have due : batched.frame.due = client.hooks := rfl
    obtain ⟨batch, batchFrame⟩ := path_performAll taken due
    let later := batched.extend (performAllTrail client.hooks taken)
    have calm : later.frame = history.frame := by
      rw [batchFrame, History.frame_cons, Frame.next, ← free]
    have drainingLater : later.frame.mode = .answering id outcome waited true := by
      rw [calm]
      exact draining
    have freeLater : later.frame.due = [] := by
      rw [calm]
      exact free
    obtain ⟨rest, past⟩ := ih drainingLater freeLater
    refine ⟨⟨.cons (.gathered draining free some rfl) (batch.append rest.path), ?_⟩, past⟩
    simp only [List.cons_append, History.extend_cons, History.extend_append]
    exact rest.frame.trans calm

/-- Telling the peer takes one path, which is empty unless the queue is open. -/
theorem whole_announce {history : History π} {client : Client π} {id : Id}
    (last : history.head? = some (.settled id)) :
    Whole history client client.announceTrail
      (if client.sendsInitialized then client.notifyIfOpen .handshakeDone else client) := by
  unfold announceTrail notifyIfOpen
  split
  · cases result : client.notify .handshakeDone with
    | ok sent =>
      obtain ⟨live, rfl⟩ := notify_ok result
      exact .single (.announced last live)
    | error error => exact .done
  · exact .done

/-- The end of the outstanding handshake takes one path. It is marked as settled after a success,
and the handshake is over either way. -/
theorem path_endHandshake {history : History} {client : Client} {id : Id} {outcome : Outcome}
    {waited : Bool} (last : history.head? = some (.arrived id outcome waited))
    (arrived : history.frame.mode = .answering id outcome waited false)
    (free : history.frame.due = []) (outstanding : client.handshake? = some id) :
    Path history client (client.endHandshakeTrail id outcome) (client.endHandshake id outcome) ∧
      ∃ settled,
        (history.extend (client.endHandshakeTrail id outcome)).frame =
            { history.frame with mode := .answering id outcome waited settled } ∧
          (settled = false → (client.endHandshake id outcome).handshake? ≠ some id) ∧
          (settled = true → (client.endHandshake id outcome).phase ≠ .awaiting) := by
  cases outcome with
  | error error =>
    refine ⟨(Step.abandoned last outstanding).path, false, ?_, ?_, ?_⟩
    · rw [← arrived]
      rfl
    · intro _
      simp [endHandshake, abandonHandshake, outstanding]
    · intro impossible
      cases impossible
  | ok value =>
    let past : Client := { client with handshake? := none }
    let told : Client :=
      if past.sendsInitialized then past.notifyIfOpen .handshakeDone else past
    let settled : History := .settled id :: history
    have start : Step history client [(.settled id, past)] past := .settled last outstanding rfl
    have success : settled.head? = some (.settled id) := rfl
    have tell : Whole settled past past.announceTrail told := whole_announce success
    have settledFrame : settled.frame =
        { history.frame with mode := .answering id (.ok value) waited true } := by
      rw [History.frame_cons, Frame.next, arrived]
      rfl
    have mode : (settled.extend past.announceTrail).frame.mode =
        .answering id (.ok value) waited true := by rw [tell.frame, settledFrame]
    have due : (settled.extend past.announceTrail).frame.due = [] := by
      rw [tell.frame]
      exact free
    obtain ⟨drain, notOpen⟩ : Whole _ told told.drainTrail told.drainHooks ∧ _ :=
      whole_drain mode due
    have both := tell.append drain
    have listed : history.extend (client.endHandshakeTrail id (.ok value)) =
        settled.extend (past.announceTrail ++ told.drainTrail) := History.extend_cons ..
    refine ⟨.cons start both.path, true, ?_, ?_, fun _ => notOpen⟩
    · rw [listed]
      exact both.frame.trans settledFrame
    · intro impossible
      cases impossible

/-- A history in which everything that was begun has ended. -/
structure Calm (history : History π) : Prop where
  mode : history.frame.mode = .resting
  due : history.frame.due = []
  active : history.frame.active = []

private theorem Calm.of_frame {first second : History π} (calm : Calm first)
    (same : second.frame = first.frame) : Calm second :=
  ⟨by rw [same]; exact calm.mode, by rw [same]; exact calm.due, by rw [same]; exact calm.active⟩

private theorem Calm.of_awaited {history : History π} (calm : Calm history) (id : Id) :
    Calm (.awaited id :: history) :=
  ⟨calm.mode, calm.due, calm.active⟩

/-- The last step of a response: the outcome is handed over, or nobody waited for it. -/
theorem step_handOver {history : History π} {client : Client π} {id : Id} {outcome : Outcome}
    {waited settled : Bool} (mode : history.frame.mode = .answering id outcome waited settled)
    (free : history.frame.due = []) (idle : history.frame.active = [])
    (past : settled = false → client.handshake? ≠ some id)
    (done : settled = true → client.phase ≠ .awaiting) :
    Step history client
        [(if waited then .delivered id outcome else .orphaned id,
          client.handingOver id outcome waited)]
        (client.handingOver id outcome waited) ∧
      ∀ frame : Frame π, frame.next (if waited then .delivered id outcome else .orphaned id) =
        { frame with mode := .resting } := by
  cases waited with
  | true => exact ⟨.delivered mode free idle past done rfl, fun _ => rfl⟩
  | false => exact ⟨.orphaned mode free idle past done rfl, fun _ => rfl⟩

/-- A response takes one path and leaves nothing that it began. -/
theorem whole_response {history : History} (calm : Calm history) (client : Client) (id : Id)
    (outcome : Outcome) :
    Whole history client (client.responseTrail id outcome) (client.acceptResponse id outcome) := by
  let waited := client.pending.contains id
  let taken := client.leaving id
  let arrived : History := .arrived id outcome waited :: history
  have start : Step history client [(.arrived id outcome waited, taken)] taken :=
    .arrived calm.mode
  have resting : { history.frame with mode := .resting } = history.frame := by rw [← calm.mode]
  have last : arrived.head? = some (.arrived id outcome waited) := rfl
  have mode : arrived.frame.mode = .answering id outcome waited false := rfl
  rw [acceptResponse_eq, responseTrail_eq]
  by_cases outstanding : taken.handshake? = some id
  · obtain ⟨path, settled, frame, past, done⟩ := path_endHandshake last mode calm.due outstanding
    rw [if_pos outstanding, if_pos outstanding]
    let ended := arrived.extend (taken.endHandshakeTrail id outcome)
    have endedMode : ended.frame.mode = .answering id outcome waited settled := by rw [frame]
    have due : ended.frame.due = [] := by rw [frame]; exact calm.due
    have active : ended.frame.active = [] := by rw [frame]; exact calm.active
    obtain ⟨last, ends⟩ := step_handOver endedMode due active past done
    refine ⟨.cons start (path.append last.path), ?_⟩
    rw [History.extend_cons, History.extend_append, History.extend_cons, History.extend_nil,
      History.frame_cons, ends, frame]
    exact resting
  · rw [if_neg outstanding, if_neg outstanding]
    have past : false = false → taken.handshake? ≠ some id := fun _ => outstanding
    obtain ⟨last, ends⟩ := step_handOver mode calm.due calm.active past nofun
    refine ⟨.cons start last.path, ?_⟩
    rw [History.extend_cons, List.nil_append, History.extend_cons, History.extend_nil,
      History.frame_cons, ends]
    exact resting

theorem whole_reply (history : History π) (client : Client π) (id : Id) (outcome : Outcome) :
    Whole history client (client.replyTrail id outcome)
      (client.sendIfOpen (.response id outcome)) := by
  unfold replyTrail sendIfOpen
  cases result : client.send (.response id outcome) with
  | ok sent =>
    obtain rfl := send_ok result
    exact .single .replied
  | error error => exact .done

private theorem whole_notification (history : History) (client : Client) (method : String)
    (params : Value) :
    Whole history client (client.notificationTrail method params)
      (client.acceptNotification method params) := by
  unfold notificationTrail acceptNotification
  cases client.notificationHandlers.lookup method with
  | some handler => exact whole_perform (handler params) history client
  | none => exact .done

private theorem whole_answer (history : History) (client : Client) (id : Id) (method : String)
    (params : Value) :
    Whole history client (client.answerTrail id method params)
      (client.acceptRequest id method params) := by
  unfold answerTrail acceptRequest
  cases client.requestHandlers.lookup method with
  | some handler =>
    exact (whole_perform (handler params) history client).append (whole_reply _ _ _ _)
  | none => exact whole_reply history client id _

private theorem whole_accept {history : History} (calm : Calm history) (client : Client)
    (unit : Bytes) :
    Whole history client (client.acceptTrail unit) (client.accept unit) := by
  unfold acceptTrail accept
  cases client.codec.decode unit with
  | error error => exact .single (.quiet (.of_eq rfl rfl))
  | ok message =>
    cases message with
    | response id outcome => exact whole_response calm client id outcome
    | notification method params => exact whole_notification history client method params
    | request id method params => exact whole_answer history client id method params

/-! ## The loop -/

/-- Receiving opens no channel again. -/
theorem alike_received (client : Client π) :
    Alike client { client with link := client.link.receive.2 } := by
  refine ⟨rfl, id, ?_⟩
  intro closed
  exact (Sink.closed_read client.link.sink).trans closed

private theorem whole_step {history : History} (calm : Calm history) (client : Client) :
    Whole history client client.stepTrail client.step.2 := by
  have receive := alike_received client
  have calm' : Calm (.quiet :: history) := calm.of_frame rfl
  unfold stepTrail step
  cases received : client.link.receive with
  | mk polled link =>
  rw [received] at receive
  cases polled with
  | waiting => exact .single (.quiet receive)
  | ready arrived =>
    cases arrived with
    | error error => exact .cons (.quiet receive) (whole_close _ _)
    | ok unit? =>
      cases unit? with
      | none => exact .cons (.quiet receive) (whole_close _ _)
      | some unit => exact .cons (.quiet receive) (whole_accept calm' _ unit)

/-! ## Awaited handles -/

private theorem pollAwaited_id (client : Client π) (now : Duration) (awaited : Awaited) :
    (client.pollAwaited now awaited).2.1.id = awaited.id := by
  unfold pollAwaited
  split
  · rfl
  · rfl
  · dsimp only
    split <;> rfl

/-- A poll that waits leaves the client as it is. -/
theorem pollAwaited_waiting {client after : Client π} {now : Duration} {awaited later : Awaited}
    (polled : client.pollAwaited now awaited = (.waiting, later, after)) :
    after = client ∧ later.id = awaited.id := by
  have same := pollAwaited_id client now awaited
  rw [polled] at same
  refine ⟨?_, same⟩
  unfold pollAwaited at polled
  split at polled
  · cases polled
  · cases polled
    rfl
  · dsimp only at polled
    split at polled
    · cases polled
    · cases polled
      rfl

/-- A poll is ready when the result is decided, or else when time has run out. -/
theorem pollAwaited_ready {client after : Client π} {now : Duration} {awaited later : Awaited}
    {result : Except Error Value}
    (polled : client.pollAwaited now awaited = (.ready result, later, after)) :
    client.result? awaited.id = some result ∧ after = client ∨
      ∃ timeout, client.result? awaited.id = none ∧ client.timeout? = some timeout ∧
        result = .error (.timeout awaited.id timeout) ∧
        after = (client.leaving awaited.id).abandonHandshake awaited.id := by
  unfold pollAwaited at polled
  split at polled
  · rename_i decided
    cases polled
    exact .inl ⟨decided, rfl⟩
  · cases polled
  · rename_i timeout undecided limited
    dsimp only at polled
    split at polled
    · cases polled
      exact .inr ⟨timeout, undecided, limited, rfl, rfl⟩
    · cases polled

/-- A poll that is ready takes one path, and the handle is awaited no more. -/
theorem path_poll {history : History π} (calm : Calm history) {client after : Client π}
    {now : Duration} {awaited later : Awaited} {result : Except Error Value}
    (waits : awaited.id ∈ history.frame.waiting)
    (polled : client.pollAwaited now awaited = (.ready result, later, after)) :
    Path history client (client.pollTrail now awaited) after ∧
      (history.extend (client.pollTrail now awaited)).frame =
        { history.frame with waiting := history.frame.waiting.filter (· ≠ awaited.id) } := by
  unfold pollTrail
  rw [polled]
  dsimp only
  rcases pollAwaited_ready polled with ⟨decided, rfl⟩ | ⟨timeout, undecided, limited, rfl, rfl⟩
  · rw [decided]
    exact ⟨(Step.resolved calm.mode waits decided).path, rfl⟩
  · rw [undecided, limited]
    exact ⟨(Step.expired calm.mode waits undecided rfl).path, rfl⟩

private theorem whole_finish (history : History π) (client : Client π)
    (answer : Except Error Value) :
    Whole history client (client.finishTrail answer) (client.finishShutdown answer).2 := by
  unfold finishTrail finishShutdown
  cases answer with
  | ok value => exact (whole_notify history client .exit).append (whole_close _ _)
  | error error => exact whole_close history client

/-! ## Worlds -/

/-- Nothing that is done to a link opens a channel again. -/
theorem queue_closed_after {link : Link} (move : LinkMove) (closed : link.queue.closed = true) :
    (link.after move).queue.closed = true := by
  cases move with
  | pull => exact (Queue.closed_pull link.queue).trans closed
  | dropPeer => exact Bool.or_eq_true_iff.mpr (.inl closed)
  | dropClient => exact Bool.or_eq_true_iff.mpr (.inl closed)
  | _ => exact closed

theorem sink_closed_after {link : Link} (move : LinkMove) (closed : link.sink.closed = true) :
    (link.after move).sink.closed = true := by
  cases move with
  | write unit => exact (Sink.closed_write link.sink unit).trans closed
  | closeSink => rfl
  | abort reason => rfl
  | dropPeer => exact Bool.or_eq_true_iff.mpr (.inl closed)
  | dropClient => exact Bool.or_eq_true_iff.mpr (.inl closed)
  | _ => exact closed

namespace World

/-- Between two acts nothing is going on, and the history knows the handles that are awaited. -/
structure Follows (world : World π) (history : History π) : Prop where
  calm : Calm history
  waiting : history.frame.waiting = world.waiters.map (·.awaited.id)

variable {world : World π} {history : History π}

private theorem Follows.of_whole {next : World π} {trail : Trail π}
    (follows : world.Follows history)
    (whole : Whole history world.client trail next.client) (same : next.waiters = world.waiters) :
    Path history world.client trail next.client ∧ next.Follows (history.extend trail) :=
  ⟨whole.path, follows.calm.of_frame whole.frame, by rw [whole.frame, follows.waiting, same]⟩

private theorem map_id_filter (waiters : List Waiter) (id : Id) :
    (waiters.map (·.awaited.id)).filter (· ≠ id) =
      (waiters.filter (·.awaited.id ≠ id)).map (·.awaited.id) := by
  rw [List.filter_map]
  rfl

private theorem map_id_later {waiters : List Waiter} {id : Id} {later : Awaited}
    (same : later.id = id) :
    (waiters.map fun other =>
        if other.awaited.id = id then { other with awaited := later } else other).map
        (·.awaited.id) = waiters.map (·.awaited.id) := by
  rw [List.map_map]
  refine List.map_congr_left fun other _ => ?_
  simp only [Function.comp_apply]
  split
  · rename_i here
    rw [here]
    exact same
  · rfl

private theorem path_waiter (follows : world.Follows history) {waiter : Waiter}
    (member : waiter ∈ world.waiters) (now : Duration) :
    Path history world.client (world.waiterTrail now waiter) (world.pollWaiter now waiter).client ∧
      (world.pollWaiter now waiter).Follows (history.extend (world.waiterTrail now waiter)) := by
  have waits : waiter.awaited.id ∈ history.frame.waiting := by
    rw [follows.waiting]
    exact List.mem_map_of_mem member
  unfold waiterTrail pollWaiter
  rcases polled : world.client.pollAwaited now waiter.awaited with ⟨result, later, after⟩
  cases result with
  | waiting =>
    obtain ⟨rfl, same⟩ := pollAwaited_waiting polled
    have nothing : world.client.pollTrail now waiter.awaited = [] := by
      unfold pollTrail
      rw [polled]
    rw [nothing]
    exact ⟨.done, follows.calm, by rw [map_id_later same]; exact follows.waiting⟩
  | ready result =>
    obtain ⟨path, frame⟩ := path_poll follows.calm waits polled
    let polledHistory := history.extend (world.client.pollTrail now waiter.awaited)
    have last : Whole polledHistory after
        (if waiter.ends then after.finishTrail result else [])
        (if waiter.ends then (after.finishShutdown result).2 else after) := by
      split
      · exact whole_finish polledHistory after result
      · exact .done
    refine ⟨path.append last.path, ?_, ?_⟩
    · have calm : Calm polledHistory := ⟨by rw [frame]; exact follows.calm.mode,
        by rw [frame]; exact follows.calm.due, by rw [frame]; exact follows.calm.active⟩
      rw [History.extend_append]
      exact calm.of_frame last.frame
    · rw [History.extend_append, last.frame, frame]
      have rest : history.frame.waiting.filter (· ≠ waiter.awaited.id) = _ :=
        (congrArg (List.filter _) follows.waiting).trans (map_id_filter world.waiters _)
      exact rest

theorem path_manage (follows : world.Follows history) (next : Act π) :
    Path history world.client (world.manageTrail next) (world.manage next).client ∧
      (world.manage next).Follows (history.extend (world.manageTrail next)) := by
  cases next with
  | call program => exact follows.of_whole .done rfl
  | intake => exact follows.of_whole .done rfl
  | start =>
    unfold manageTrail manage startDrain
    by_cases running : world.client.running = true
    · rw [if_pos running]
      exact follows.of_whole .done rfl
    · rw [if_neg running]
      exact follows.of_whole (.single (.quiet (.of_eq rfl rfl))) rfl
  | cancel => exact follows.of_whole .done rfl
  | await id =>
    by_cases held : world.client.handles.contains id = true
    · simp only [manageTrail, manage, if_pos held]
      have member : id ∈ world.client.handles := by simpa using held
      refine ⟨(Step.awaitedHeld member).path, follows.calm.of_awaited id, ?_⟩
      show history.frame.waiting ++ [id] = _
      rw [follows.waiting, List.map_append]
      rfl
    · simp only [manageTrail, manage, if_neg held]
      exact follows.of_whole .done rfl
  | shutdown =>
    have request := whole_request history world.client .shutdown
    unfold manageTrail manage beginShutdown
    rcases result : world.client.request .shutdown with ⟨reply, after⟩
    rw [result] at request
    cases reply with
    | error error =>
      exact follows.of_whole (request.append (whole_close _ after)) rfl
    | ok id =>
      have awaits : Step (history.extend (world.client.requestTrail .shutdown)) after
        [(.awaited id, after)] after := .awaitedFresh (request_ok history result)
      refine ⟨request.path.append awaits.path, ?_, ?_⟩
      · rw [History.extend_append]
        exact (follows.calm.of_frame request.frame).of_awaited id
      · rw [History.extend_append]
        show (history.extend _).frame.waiting ++ [id] = _
        rw [request.frame, follows.waiting, List.map_append]
        rfl
  | poll id now =>
    simp only [manageTrail, manage]
    cases found : world.waiter? id with
    | none => exact follows.of_whole .done rfl
    | some waiter => exact path_waiter follows (List.mem_of_find?_eq_some found) now
  | forget id =>
    refine ⟨Step.forgotten.path, ⟨follows.calm.mode, follows.calm.due, follows.calm.active⟩, ?_⟩
    show history.frame.waiting.filter _ = _
    rw [follows.waiting, map_id_filter]
    rfl
  | link move =>
    exact follows.of_whole
      (.single (.quiet ⟨rfl, queue_closed_after move, sink_closed_after move⟩)) rfl

private theorem path_act {world : World} {history : History} (follows : world.Follows history)
    (next : Act) :
    Path history world.client (world.actTrail next) (world.act next).client ∧
      (world.act next).Follows (history.extend (world.actTrail next)) := by
  cases next with
  | call program => exact follows.of_whole (whole_perform program history world.client) rfl
  | intake =>
    have whole := whole_step follows.calm world.client
    unfold actTrail act
    by_cases looping : world.looping = true
    · rw [if_pos looping, if_pos looping]
      rcases stepped : world.client.step with ⟨intake, after⟩
      rw [stepped] at whole
      cases intake <;> exact follows.of_whole whole rfl
    · rw [if_neg looping, if_neg looping]
      exact follows.of_whole .done rfl
  | start => exact path_manage follows .start
  | cancel => exact path_manage follows .cancel
  | await id => exact path_manage follows (.await id)
  | shutdown => exact path_manage follows .shutdown
  | poll id now => exact path_manage follows (.poll id now)
  | forget id => exact path_manage follows (.forget id)
  | link move => exact path_manage follows (.link move)

theorem path_trail {world : World} {history : History} (follows : world.Follows history)
    (acts : List Act) :
    Path history world.client (world.trail acts) (world.run acts).client ∧
      (world.run acts).Follows (history.extend (world.trail acts)) := by
  induction acts generalizing world history with
  | nil => exact ⟨.done, follows⟩
  | cons next rest ih =>
    obtain ⟨first, after⟩ := path_act follows next
    obtain ⟨path, last⟩ := ih after
    exact ⟨first.append path, by rw [trail, History.extend_append]; exact last⟩

theorem follows_create (config : Config) : (create config : World π).Follows [] :=
  ⟨⟨rfl, rfl, rfl⟩, rfl⟩

end World

end Airlock.Client
