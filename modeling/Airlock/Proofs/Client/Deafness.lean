import Airlock.Proofs.Client.Dispatch

/-!
# Clients that do not listen to their events

A program is deaf when it never takes events, and neither do the hooks and handlers that it
registers. What a deaf program does is the same whatever waits in the event buffer, and it leaves
the buffer alone. So a client whose hooks and handlers are deaf does the same with any buffer: it
commutes with putting another buffer in its place, and so do the trails of what it does.
-/

set_option autoImplicit false

namespace Airlock

/-- The program takes no events, nor do the hooks and handlers that it registers. -/
def Program.Deaf : Program → Prop
  | .finish _ => True
  | .request _ next => ∀ reply, (next reply).Deaf
  | .notify _ next => ∀ reply, (next reply).Deaf
  | .hook body next => body.Deaf ∧ next.Deaf
  | .onNotification _ handler next => (∀ params, (handler params).Deaf) ∧ next.Deaf
  | .onRequest _ handler next => (∀ params, (handler params).Deaf) ∧ next.Deaf
  | .takeEvents _ => False
  | .close next => next.Deaf
  | .phase next => ∀ current, (next current).Deaf
  | .pending next => ∀ ids, (next ids).Deaf
  | .release _ next => ∀ held, (next held).Deaf
  | .holds _ next => ∀ held, (next held).Deaf
  | .note _ next => next.Deaf

namespace Client

/-- The hooks that wait and the handlers that are registered are deaf. -/
structure Deaf (client : Client) : Prop where
  hooks : ∀ hook ∈ client.hooks, hook.Deaf
  notifications : ∀ entry ∈ client.notificationHandlers, ∀ params, (entry.2 params).Deaf
  requests : ∀ entry ∈ client.requestHandlers, ∀ params, (entry.2 params).Deaf

/-- The client with another event buffer. -/
def veil (client : Client) (events : EventBuffer) : Client :=
  { client with events }

@[simp] theorem veil_veil (client : Client) (first second : EventBuffer) :
    (client.veil first).veil second = client.veil second := rfl

@[simp] theorem veil_events (client : Client) : client.veil client.events = client := rfl

/-- The trail with nothing said of event buffers. -/
def Trail.blind (trail : Trail) : Trail :=
  trail.map fun entry => (entry.1, entry.2.veil ⟨0, []⟩)

theorem Trail.blind_append (first second : Trail) :
    Trail.blind (first ++ second) = Trail.blind first ++ Trail.blind second :=
  List.map_append

variable {client after : Client} (events : EventBuffer)

/-! ## Calls -/

theorem send_veil (client : Client) (message : Message) :
    (client.veil events).send message = (client.send message).map (·.veil events) := by
  rw [send_eq, send_eq]
  cases closed : client.link.queue.closed <;> simp [veil, closed, enqueued, Except.map]

theorem sendIfOpen_veil (client : Client) (message : Message) :
    (client.veil events).sendIfOpen message = (client.sendIfOpen message).veil events := by
  unfold sendIfOpen
  rw [send_veil]
  cases client.send message <;> rfl

private theorem notify_veil (client : Client) (call : Call) :
    (client.veil events).notify call = (client.notify call).map (·.veil events) := by
  by_cases closed : client.phase = .closed
  · have still : (client.veil events).phase = .closed := closed
    rw [notify, notify, if_pos closed, if_pos still]
    rfl
  · have still : (client.veil events).phase ≠ .closed := closed
    rw [notify, notify, if_neg closed, if_neg still]
    exact send_veil events client call.toNotification

theorem notifyIfOpen_veil (client : Client) (call : Call) :
    (client.veil events).notifyIfOpen call = (client.notifyIfOpen call).veil events := by
  unfold notifyIfOpen
  rw [notify_veil]
  cases client.notify call <;> rfl

private theorem begin_veil (client : Client) (call : Call) :
    (client.veil events).begin call =
      ((client.begin call).1, (client.begin call).2.veil events) := by
  have same : (client.veil events).phase = client.phase := rfl
  rw [begin_eq, begin_eq]
  by_cases closed : client.phase = .closed
  · rw [if_pos closed, if_pos (same.trans closed)]
    rfl
  rw [if_neg closed, if_neg (same ▸ closed)]
  by_cases plain : call.method ≠ Methods.handshake
  · rw [if_pos plain, if_pos plain]
    rfl
  rw [if_neg plain, if_neg plain]
  by_cases idle : client.phase = .uninitialized
  · rw [if_pos idle, if_pos (same.trans idle)]
    rfl
  · rw [if_neg idle, if_neg (same ▸ idle)]
    rfl

theorem abandonHandshake_veil (client : Client) (id : Id) :
    (client.veil events).abandonHandshake id = (client.abandonHandshake id).veil events := by
  by_cases other : client.handshake? ≠ some id
  · have still : (client.veil events).handshake? ≠ some id := other
    rw [abandonHandshake, abandonHandshake, if_pos other, if_pos still]
  · have still : ¬ (client.veil events).handshake? ≠ some id := other
    rw [abandonHandshake, abandonHandshake, if_neg other, if_neg still]
    rfl

private theorem withdraw_veil (client : Client) (id : Id) (call : Call) :
    (client.veil events).withdraw id call = (client.withdraw id call).veil events := by
  unfold withdraw
  by_cases opening : call.method = Methods.handshake
  · simp only [if_pos opening]
    exact abandonHandshake_veil events (client.leaving id) id
  · simp only [if_neg opening]
    rfl

private theorem submit_veil (client : Client) (id : Id) (call : Call) :
    (client.veil events).submit id call =
      ((client.submit id call).1, (client.submit id call).2.veil events) := by
  have entered : (client.veil events).enter id call =
      (client.enter id call).map (·.veil events) := by
    simp only [enter, veil]
    cases client.pending.add? id with
    | none => rfl
    | some pending => exact send_veil events { client with pending } (call.toRequest id)
  unfold submit
  rw [entered]
  cases client.enter id call with
  | ok sent => rfl
  | error error => exact congrArg (Prod.mk _) (withdraw_veil events client id call)

theorem request_veil (client : Client) (call : Call) :
    (client.veil events).request call =
      ((client.request call).1, (client.request call).2.veil events) := by
  unfold request
  rw [begin_veil]
  obtain ⟨reply, begun⟩ := client.begin call
  cases reply with
  | error error => rfl
  | ok id => exact submit_veil events begun id call

theorem requestTrail_veil (client : Client) (call : Call) :
    Trail.blind ((client.veil events).requestTrail call) =
      Trail.blind (client.requestTrail call) := by
  unfold requestTrail submitted
  rw [begin_veil]
  obtain ⟨reply, begun⟩ := client.begin call
  cases reply with
  | error error => rfl
  | ok id =>
    simp only [submit_veil]
    obtain ⟨submitted, last⟩ := begun.submit id call
    cases submitted <;> split <;> rfl

theorem close_veil (client : Client) :
    (client.veil events).close = client.close.veil events := by
  by_cases closed : client.phase = .closed
  · have still : (client.veil events).phase = .closed := closed
    rw [close, close, if_pos closed, if_pos still]
  · have still : (client.veil events).phase ≠ .closed := closed
    rw [close, close, if_neg closed, if_neg still]
    rfl

theorem closeTrail_veil (client : Client) :
    Trail.blind (client.veil events).closeTrail = Trail.blind client.closeTrail := by
  by_cases closed : client.phase = .closed
  · have still : (client.veil events).phase = .closed := closed
    rw [closeTrail, closeTrail, if_pos closed, if_pos still]
  · have still : (client.veil events).phase ≠ .closed := closed
    rw [closeTrail, closeTrail, if_neg closed, if_neg still, close_veil]
    rfl

theorem notifyTrail_veil (client : Client) (call : Call) :
    Trail.blind ((client.veil events).notifyTrail call) =
      Trail.blind (client.notifyTrail call) := by
  unfold notifyTrail
  rw [notify_veil]
  cases client.notify call <;> rfl

/-! ## Programs -/

theorem perform_veil {program : Program} (deaf : program.Deaf) (client : Client) :
    perform program (client.veil events) =
        ((perform program client).1, (perform program client).2.veil events) ∧
      Trail.blind (performTrail program (client.veil events)) =
        Trail.blind (performTrail program client) := by
  induction program generalizing client with
  | finish outcome => exact ⟨rfl, rfl⟩
  | request call next ih =>
    have asked := requestTrail_veil events client call
    simp only [perform, performTrail, request_veil, Trail.blind_append, asked]
    obtain ⟨reply, sent⟩ := client.request call
    cases reply with
    | error error =>
      obtain ⟨same, trail⟩ := ih (.error error) (deaf _) sent
      exact ⟨same, congrArg (_ ++ ·) trail⟩
    | ok id =>
      obtain ⟨same, trail⟩ := ih (.ok id) (deaf _) (sent.hold id)
      exact ⟨same, congrArg (fun rest => _ ++ _ :: rest) trail⟩
  | notify call next ih =>
    have told := notifyTrail_veil events client call
    simp only [perform, performTrail, notify_veil, Trail.blind_append, told]
    cases client.notify call with
    | error error =>
      obtain ⟨same, trail⟩ := ih (.error error) (deaf _) client
      exact ⟨same, congrArg (_ ++ ·) trail⟩
    | ok sent =>
      obtain ⟨same, trail⟩ := ih (.ok ()) (deaf _) sent
      exact ⟨same, congrArg (_ ++ ·) trail⟩
  | hook body next bodyIH nextIH =>
    obtain ⟨bodyDeaf, nextDeaf⟩ := deaf
    have still : (client.veil events).phase = client.phase := rfl
    cases phase : client.phase with
    | uninitialized =>
      obtain ⟨same, trail⟩ := nextIH nextDeaf (client.queueing body)
      rw [perform_hook_early (.inl phase), performTrail_hook_early (.inl phase),
        perform_hook_early (.inl (still.trans phase)),
        performTrail_hook_early (.inl (still.trans phase))]
      exact ⟨same, congrArg (_ :: ·) trail⟩
    | awaiting =>
      obtain ⟨same, trail⟩ := nextIH nextDeaf (client.queueing body)
      rw [perform_hook_early (.inr phase), performTrail_hook_early (.inr phase),
        perform_hook_early (.inr (still.trans phase)),
        performTrail_hook_early (.inr (still.trans phase))]
      exact ⟨same, congrArg (_ :: ·) trail⟩
    | initialized =>
      obtain ⟨inner, innerTrail⟩ := bodyIH bodyDeaf client
      obtain ⟨same, trail⟩ := nextIH nextDeaf (perform body client).2
      simp only [perform, performTrail, still, phase, inner, Trail.blind_append, innerTrail]
      exact ⟨same, congrArg (fun rest => _ ++ _ ++ _ :: rest) trail⟩
    | closed =>
      obtain ⟨same, trail⟩ := nextIH nextDeaf client
      simp only [perform, performTrail, still, phase]
      exact ⟨same, congrArg (_ :: ·) trail⟩
  | onNotification method handler next _ ih =>
    obtain ⟨same, trail⟩ := ih deaf.2
      { client with notificationHandlers := (method, handler) :: client.notificationHandlers }
    exact ⟨same, congrArg (_ :: ·) trail⟩
  | onRequest method handler next _ ih =>
    obtain ⟨same, trail⟩ := ih deaf.2
      { client with requestHandlers := (method, handler) :: client.requestHandlers }
    exact ⟨same, congrArg (_ :: ·) trail⟩
  | takeEvents next => exact deaf.elim
  | close next ih =>
    obtain ⟨same, trail⟩ := ih deaf client.close
    simp only [perform, performTrail, close_veil, Trail.blind_append, closeTrail_veil]
    exact ⟨same, congrArg (_ ++ ·) trail⟩
  | phase next ih => exact ih client.phase (deaf _) client
  | pending next ih => exact ih client.pending.ids (deaf _) client
  | release id next ih =>
    obtain ⟨same, trail⟩ := ih (client.release id).1 (deaf _) (client.release id).2
    exact ⟨same, congrArg (_ :: ·) trail⟩
  | holds id next ih => exact ih (client.handles.contains id) (deaf _) client
  | note entry next ih =>
    obtain ⟨same, trail⟩ := ih deaf (client.note entry)
    exact ⟨same, congrArg (_ :: ·) trail⟩

private theorem performAll_veil {hooks : List Program} (deaf : ∀ hook ∈ hooks, hook.Deaf)
    (client : Client) :
    performAll hooks (client.veil events) = (performAll hooks client).veil events ∧
      Trail.blind (performAllTrail hooks (client.veil events)) =
        Trail.blind (performAllTrail hooks client) := by
  induction hooks generalizing client with
  | nil => exact ⟨rfl, rfl⟩
  | cons hook rest ih =>
    obtain ⟨first, others⟩ := List.forall_mem_cons.mp deaf
    obtain ⟨here, hereTrail⟩ := perform_veil events first client
    obtain ⟨same, trail⟩ := ih others (perform hook client).2
    have opened : performAllTrail (hook :: rest) client =
        (.began hook false, client) :: performTrail hook client ++
          (.ended hook, (perform hook client).2) ::
            performAllTrail rest (perform hook client).2 := rfl
    have veiled : performAllTrail (hook :: rest) (client.veil events) =
        (.began hook false, client.veil events) :: performTrail hook (client.veil events) ++
          (.ended hook, (perform hook client).2.veil events) ::
            performAllTrail rest ((perform hook client).2.veil events) := by
      rw [performAllTrail, here]
    refine ⟨?_, ?_⟩
    · rw [performAll, List.foldl_cons, here]
      exact same
    · rw [opened, veiled]
      simp only [Trail.blind, List.map_cons, List.map_append, veil_veil] at hereTrail trail ⊢
      rw [hereTrail, trail]

/-! ## Staying deaf -/

/-- The hooks and handlers of a client. -/
def listeners (client : Client) :
    List Program × List (String × (Value → Program)) × List (String × (Value → Program)) :=
  (client.hooks, client.notificationHandlers, client.requestHandlers)

theorem Deaf.of_listeners (deaf : client.Deaf) (same : after.listeners = client.listeners) :
    after.Deaf := by
  simp only [listeners, Prod.mk.injEq] at same
  obtain ⟨hooks, notifications, requests⟩ := same
  exact ⟨hooks ▸ deaf.hooks, notifications ▸ deaf.notifications, requests ▸ deaf.requests⟩

theorem listeners_abandonHandshake (client : Client) (id : Id) :
    (client.abandonHandshake id).listeners = client.listeners := by
  unfold abandonHandshake
  split <;> rfl

private theorem listeners_withdraw (client : Client) (id : Id) (call : Call) :
    (client.withdraw id call).listeners = client.listeners := by
  unfold withdraw
  dsimp only
  split
  · exact listeners_abandonHandshake (client.leaving id) id
  · rfl

private theorem listeners_submit (client : Client) (id : Id) (call : Call) :
    (client.submit id call).2.listeners = client.listeners := by
  obtain sent | ⟨error, undone⟩ := submit_cases client id call
  · rw [sent]
    rfl
  · rw [undone]
    exact listeners_withdraw client id call

theorem listeners_request (client : Client) (call : Call) :
    (client.request call).2.listeners = client.listeners := by
  unfold request
  rcases result : client.begin call with ⟨reply, begun⟩
  cases reply with
  | error error =>
    obtain ⟨rfl, -⟩ := begin_refused result
    rfl
  | ok id =>
    obtain ⟨-, -, ⟨-, rfl⟩ | ⟨-, -, rfl⟩⟩ := begin_ok result
    · exact listeners_submit client.numbered id call
    · exact listeners_submit client.attempting id call

theorem listeners_notifyIfOpen (client : Client) (call : Call) :
    (client.notifyIfOpen call).listeners = client.listeners := by
  unfold notifyIfOpen
  cases result : client.notify call with
  | error error => rfl
  | ok sent =>
    obtain ⟨-, rfl⟩ := notify_ok result
    rfl

private theorem listeners_sendIfOpen (client : Client) (message : Message) :
    (client.sendIfOpen message).listeners = client.listeners := by
  unfold sendIfOpen
  cases result : client.send message with
  | error error => rfl
  | ok sent =>
    obtain rfl := send_ok result
    rfl

theorem Deaf.close (deaf : client.Deaf) : client.close.Deaf := by
  unfold Client.close
  split
  · exact deaf
  · exact ⟨List.forall_mem_nil _, deaf.notifications, deaf.requests⟩

theorem Deaf.perform {program : Program} (quiet : program.Deaf) (deaf : client.Deaf) :
    (perform program client).2.Deaf := by
  induction program generalizing client with
  | finish outcome => exact deaf
  | request call next ih =>
    have same := listeners_request client call
    rw [Client.perform]
    rcases result : client.request call with ⟨reply, sent⟩
    rw [result] at same
    have deafSent := deaf.of_listeners same
    cases reply with
    | error error => exact ih (.error error) (quiet _) deafSent
    | ok id =>
      have deafHeld : (sent.hold id).Deaf := deafSent.of_listeners rfl
      exact ih (.ok id) (quiet _) deafHeld
  | notify call next ih =>
    rw [Client.perform]
    cases result : client.notify call with
    | error error => exact ih (.error error) (quiet _) deaf
    | ok sent =>
      obtain ⟨-, rfl⟩ := notify_ok result
      exact ih (.ok ()) (quiet _) (deaf.of_listeners rfl)
  | hook body next bodyIH nextIH =>
    have queued : (client.queueing body).Deaf := by
      refine ⟨fun hook waits => ?_, deaf.notifications, deaf.requests⟩
      obtain before | last := List.mem_append.mp waits
      · exact deaf.hooks hook before
      · exact List.mem_singleton.mp last ▸ quiet.1
    cases phase : client.phase with
    | uninitialized =>
      rw [perform_hook_early (.inl phase)]
      exact nextIH quiet.2 queued
    | awaiting =>
      rw [perform_hook_early (.inr phase)]
      exact nextIH quiet.2 queued
    | initialized =>
      rw [Client.perform, phase]
      exact nextIH quiet.2 (bodyIH quiet.1 deaf)
    | closed =>
      rw [Client.perform, phase]
      exact nextIH quiet.2 deaf
  | onNotification method handler next _ ih =>
    refine ih quiet.2 ⟨deaf.hooks, ?_, deaf.requests⟩
    exact List.forall_mem_cons.mpr ⟨quiet.1, deaf.notifications⟩
  | onRequest method handler next _ ih =>
    refine ih quiet.2 ⟨deaf.hooks, deaf.notifications, ?_⟩
    exact List.forall_mem_cons.mpr ⟨quiet.1, deaf.requests⟩
  | takeEvents next => exact quiet.elim
  | close next ih => exact ih quiet deaf.close
  | phase next ih => exact ih _ (quiet _) deaf
  | pending next ih => exact ih _ (quiet _) deaf
  | release id next ih => exact ih _ (quiet _) (deaf.of_listeners rfl)
  | holds id next ih => exact ih _ (quiet _) deaf
  | note entry next ih => exact ih quiet (deaf.of_listeners rfl)

private theorem Deaf.performAll {hooks : List Program} (quiet : ∀ hook ∈ hooks, hook.Deaf)
    (deaf : client.Deaf) : (performAll hooks client).Deaf := by
  induction hooks generalizing client with
  | nil => exact deaf
  | cons hook rest ih =>
    obtain ⟨first, others⟩ := List.forall_mem_cons.mp quiet
    exact ih others (deaf.perform first)

private theorem Deaf.drain (deaf : client.Deaf) : client.drainHooks.Deaf := by
  fun_induction drainHooks client with
  | case1 client none open? => exact deaf.of_listeners rfl
  | case2 client none past => exact deaf
  | case3 client some ih =>
    have taken : ({ client with hooks := [] } : Client).Deaf :=
      ⟨List.forall_mem_nil _, deaf.notifications, deaf.requests⟩
    exact ih (taken.performAll deaf.hooks)

private theorem Deaf.endHandshake (deaf : client.Deaf) (id : Id) (outcome : Outcome) :
    (client.endHandshake id outcome).Deaf := by
  cases outcome with
  | error error => exact deaf.of_listeners (listeners_abandonHandshake client id)
  | ok value =>
    unfold Client.endHandshake
    apply Deaf.drain
    split
    · exact deaf.of_listeners (listeners_notifyIfOpen { client with handshake? := none } _)
    · exact deaf.of_listeners rfl

theorem Deaf.handler {handlers : List (String × (Value → Program))} {method : String}
    {handler : Value → Program} (quiet : ∀ entry ∈ handlers, ∀ params, (entry.2 params).Deaf)
    (registered : handlers.lookup method = some handler) (params : Value) :
    (handler params).Deaf := by
  obtain ⟨before, behind, split, -⟩ := List.lookup_eq_some_iff.mp registered
  exact quiet (method, handler) (split ▸ List.mem_append_right before List.mem_cons_self) params

theorem Deaf.accept (deaf : client.Deaf) (unit : Bytes) : (client.accept unit).Deaf := by
  unfold Client.accept
  cases client.codec.decode unit with
  | error error => exact deaf.of_listeners rfl
  | ok message =>
    cases message with
    | response id outcome =>
      have left : (client.leaving id).Deaf := deaf.of_listeners rfl
      have handed {before : Client} (deaf : before.Deaf) (waited : Bool) :
          (before.handingOver id outcome waited).Deaf := by
        cases waited <;> exact deaf.of_listeners rfl
      dsimp only
      rw [acceptResponse_eq]
      apply handed
      split
      · exact left.endHandshake id outcome
      · exact left
    | notification method params =>
      dsimp only
      unfold acceptNotification
      cases registered : client.notificationHandlers.lookup method with
      | some handler => exact deaf.perform (Deaf.handler deaf.notifications registered params)
      | none => exact deaf
    | request id method params =>
      dsimp only
      unfold acceptRequest
      cases registered : client.requestHandlers.lookup method with
      | some handler =>
        have ran := deaf.perform (Deaf.handler deaf.requests registered params)
        exact ran.of_listeners (listeners_sendIfOpen _ _)
      | none => exact deaf.of_listeners (listeners_sendIfOpen _ _)

/-! ## Messages from the peer -/

private theorem drain_veil (deaf : client.Deaf) :
    (client.veil events).drainHooks = client.drainHooks.veil events ∧
      Trail.blind (client.veil events).drainTrail = Trail.blind client.drainTrail := by
  fun_induction drainHooks client with
  | case1 client none open? =>
    have noneStill : (client.veil events).hooks = [] := none
    have openStill : (client.veil events).phase = .awaiting := open?
    rw [drainHooks, drainTrail, drainTrail, if_pos none, if_pos noneStill, if_pos noneStill,
      if_pos open?, if_pos openStill, if_pos openStill]
    exact ⟨rfl, rfl⟩
  | case2 client none past =>
    have noneStill : (client.veil events).hooks = [] := none
    have pastStill : (client.veil events).phase ≠ .awaiting := past
    rw [drainHooks, drainTrail, drainTrail, if_pos none, if_pos noneStill, if_pos noneStill,
      if_neg past, if_neg pastStill, if_neg pastStill]
    exact ⟨rfl, rfl⟩
  | case3 client some ih =>
    have someStill : (client.veil events).hooks ≠ [] := some
    let taken : Client := { client with hooks := [] }
    have takenDeaf : taken.Deaf := ⟨List.forall_mem_nil _, deaf.notifications, deaf.requests⟩
    obtain ⟨batch, batchTrail⟩ := performAll_veil events deaf.hooks taken
    obtain ⟨same, trail⟩ := ih (takenDeaf.performAll deaf.hooks)
    have opened : client.drainTrail =
        (.gathered client.hooks, taken) :: performAllTrail client.hooks taken ++
          (performAll client.hooks taken).drainTrail := by
      rw [drainTrail, if_neg some]
    have veiled : (client.veil events).drainTrail =
        (.gathered client.hooks, taken.veil events) ::
          performAllTrail client.hooks (taken.veil events) ++
            ((performAll client.hooks taken).veil events).drainTrail := by
      rw [drainTrail, if_neg someStill, ← batch]
      rfl
    refine ⟨?_, ?_⟩
    · rw [drainHooks, if_neg someStill]
      exact (congrArg drainHooks batch).trans same
    · rw [opened, veiled]
      simp only [Trail.blind, List.map_cons, List.map_append, veil_veil] at batchTrail trail ⊢
      rw [batchTrail, trail]

private theorem announceTrail_veil (client : Client) :
    Trail.blind (client.veil events).announceTrail = Trail.blind client.announceTrail := by
  have same : (client.veil events).sendsInitialized = client.sendsInitialized := rfl
  unfold announceTrail
  rw [same, notify_veil]
  split
  · cases client.notify .handshakeDone <;> rfl
  · rfl

theorem endHandshake_veil (deaf : client.Deaf) (id : Id) (outcome : Outcome) :
    (client.veil events).endHandshake id outcome =
        (client.endHandshake id outcome).veil events ∧
      Trail.blind ((client.veil events).endHandshakeTrail id outcome) =
        Trail.blind (client.endHandshakeTrail id outcome) := by
  cases outcome with
  | error error =>
    have same := abandonHandshake_veil events client id
    refine ⟨same, ?_⟩
    rw [endHandshakeTrail, endHandshakeTrail, same]
    rfl
  | ok value =>
    let settled : Client := { client with handshake? := none }
    let told : Client :=
      if settled.sendsInitialized then settled.notifyIfOpen .handshakeDone else settled
    have toldDeaf : told.Deaf := by
      dsimp only [told]
      split
      · exact deaf.of_listeners (listeners_notifyIfOpen settled _)
      · exact deaf.of_listeners rfl
    have toldVeil :
        (if (settled.veil events).sendsInitialized then
            (settled.veil events).notifyIfOpen .handshakeDone else settled.veil events) =
          told.veil events := by
      dsimp only [told]
      rw [notifyIfOpen_veil]
      exact (apply_ite (Client.veil · events) _ _ _).symm
    obtain ⟨same, trail⟩ := drain_veil events toldDeaf
    have announced := announceTrail_veil events settled
    refine ⟨(congrArg drainHooks toldVeil).trans same, ?_⟩
    have opened : client.endHandshakeTrail id (.ok value) =
        (.settled id, settled) :: (settled.announceTrail ++ told.drainTrail) := rfl
    have veiled : (client.veil events).endHandshakeTrail id (.ok value) =
        (.settled id, settled.veil events) ::
          ((settled.veil events).announceTrail ++ (told.veil events).drainTrail) := by
      rw [← toldVeil]
      rfl
    rw [opened, veiled]
    simp only [Trail.blind, List.map_cons, List.map_append, veil_veil] at announced trail ⊢
    rw [announced, trail]

end Client

end Airlock
