import Airlock.Client.Basic

/-!
# Running programs

A program runs at once and without waiting. While the handshake is open a hook is queued; after it,
the hook runs where it is registered; on a closed client it is dropped. Draining runs the queued
hooks batch by batch: the hooks that a batch queues make up the next one, until none is left.
-/

set_option autoImplicit false

namespace Airlock.Client

variable {π : Type}

def perform : Program → Client → Outcome × Client
  | .finish outcome, client => (outcome, client)
  | .request call next, client =>
    match client.request call with
    | (.ok id, client) => perform (next (.ok id)) (client.hold id)
    | (.error error, client) => perform (next (.error error)) client
  | .notify call next, client =>
    match client.notify call with
    | .ok client => perform (next (.ok ())) client
    | .error error => perform (next (.error error)) client
  | .hook body next, client =>
    match client.phase with
    | .uninitialized | .awaiting => perform next { client with hooks := client.hooks ++ [body] }
    | .initialized => perform next (perform body client).2
    | .closed => perform next client
  | .onNotification method handler next, client =>
    perform next
      { client with notificationHandlers := (method, handler) :: client.notificationHandlers }
  | .onRequest method handler next, client =>
    perform next { client with requestHandlers := (method, handler) :: client.requestHandlers }
  | .takeEvents next, client =>
    let (events, buffer) := client.events.takeAll
    perform (next events) { client with events := buffer }
  | .close next, client => perform next client.close
  | .phase next, client => perform (next client.phase) client
  | .pending next, client => perform (next client.pending.ids) client
  | .release id next, client =>
    let (held, client) := client.release id
    perform (next held) client
  | .holds id next, client => perform (next (client.handles.contains id)) client
  | .note entry next, client => perform next (client.note entry)

def performAll (hooks : List Program) (client : Client) : Client :=
  hooks.foldl (fun client hook => (perform hook client).2) client

/-! ## Which hooks wait afterwards -/

private theorem mem_hooks_close {client : Client π} {hook : π} (waits : hook ∈ client.close.hooks) :
    hook ∈ client.hooks := by
  unfold close at waits
  split at waits
  · exact waits
  · cases waits

private theorem hooks_send {client sent : Client π} {message : Message}
    (accepted : client.send message = .ok sent) : sent.hooks = client.hooks := by
  unfold send at accepted
  cases result : client.link.send (client.codec.encode message) with
  | error error => simp [result, Except.map] at accepted
  | ok link => simp only [result, Except.map, Except.ok.injEq] at accepted; rw [← accepted]

private theorem hooks_notify {client sent : Client π} {call : Call}
    (accepted : client.notify call = .ok sent) : sent.hooks = client.hooks := by
  unfold notify at accepted
  split at accepted
  · cases accepted
  · exact hooks_send accepted

private theorem hooks_enter {client sent : Client π} {id : Id} {call : Call}
    (accepted : client.enter id call = .ok sent) : sent.hooks = client.hooks := by
  unfold enter at accepted
  split at accepted
  · cases accepted
  · simpa using hooks_send accepted

@[simp] theorem hooks_abandonHandshake (client : Client π) (id : Id) :
    (client.abandonHandshake id).hooks = client.hooks := by
  unfold abandonHandshake
  split <;> rfl

private theorem hooks_begin (client : Client π) (call : Call) :
    (client.begin call).2.hooks = client.hooks := by
  simp only [begin]
  split
  · rfl
  · split
    · rfl
    · split <;> rfl

private theorem hooks_submit (client : Client π) (id : Id) (call : Call) :
    (client.submit id call).2.hooks = client.hooks := by
  unfold submit
  split
  · rename_i sent accepted
    exact hooks_enter accepted
  · unfold withdraw
    dsimp only
    split
    · rw [hooks_abandonHandshake]
    · rfl

private theorem hooks_request (client : Client π) (call : Call) :
    (client.request call).2.hooks = client.hooks := by
  have begun := hooks_begin client call
  unfold request
  split
  · rename_i id next result
    rw [result] at begun
    rw [hooks_submit, begun]
  · rename_i error next result
    rw [result] at begun
    exact begun

/-- Whatever waits after a program ran was waiting before or may be queued by the program. -/
theorem mem_hooks_perform {program : Program} {client : Client} {hook : Program}
    (waits : hook ∈ (perform program client).2.hooks) :
    hook ∈ client.hooks ∨ hook.QueuedBy program := by
  induction program generalizing client with
  | finish => exact .inl waits
  | request call next ih =>
    rw [perform] at waits
    split at waits
    all_goals
      rename_i result
      have same := hooks_request client call
      rw [result] at same
      rcases ih _ waits with before | queued
      · exact .inl (same ▸ before)
      · exact .inr ⟨_, queued⟩
  | notify call next ih =>
    rw [perform] at waits
    split at waits
    · rename_i sent accepted
      rcases ih _ waits with before | queued
      · exact .inl (hooks_notify accepted ▸ before)
      · exact .inr ⟨_, queued⟩
    · exact (ih _ waits).imp_right fun queued => ⟨_, queued⟩
  | hook body next bodyIH nextIH =>
    rw [perform] at waits
    split at waits
    · rcases nextIH waits with before | queued
      · rcases List.mem_append.mp before with before | here
        · exact .inl before
        · exact .inr (.inl (List.mem_singleton.mp here))
      · exact .inr (.inr (.inr queued))
    · rcases nextIH waits with before | queued
      · rcases List.mem_append.mp before with before | here
        · exact .inl before
        · exact .inr (.inl (List.mem_singleton.mp here))
      · exact .inr (.inr (.inr queued))
    · rcases nextIH waits with before | queued
      · exact (bodyIH before).imp_right fun queued => .inr (.inl queued)
      · exact .inr (.inr (.inr queued))
    · exact (nextIH waits).imp_right fun queued => .inr (.inr queued)
  | onNotification method handler next _ ih =>
    rw [perform] at waits
    exact (ih waits :)
  | onRequest method handler next _ ih =>
    rw [perform] at waits
    exact (ih waits :)
  | takeEvents next ih => exact (ih _ waits).imp_right fun queued => ⟨_, queued⟩
  | close next ih => exact (ih waits).imp_left mem_hooks_close
  | phase next ih => exact (ih _ waits).imp_right fun queued => ⟨_, queued⟩
  | pending next ih => exact (ih _ waits).imp_right fun queued => ⟨_, queued⟩
  | release id next ih => exact (ih _ waits).imp_right fun queued => ⟨_, queued⟩
  | holds id next ih => exact (ih _ waits).imp_right fun queued => ⟨_, queued⟩
  | note entry next ih =>
    rw [perform] at waits
    exact (ih waits :)

/-- Whatever waits after some hooks ran was waiting before or may be queued by one of them. -/
theorem mem_hooks_performAll {hooks : List Program} {client : Client} {hook : Program}
    (waits : hook ∈ (performAll hooks client).hooks) :
    hook ∈ client.hooks ∨ ∃ program ∈ hooks, hook.QueuedBy program := by
  induction hooks generalizing client with
  | nil => exact .inl waits
  | cons first rest ih =>
    rcases ih waits with before | ⟨program, there, queued⟩
    · exact (mem_hooks_perform before).imp_right fun queued => ⟨first, by simp, queued⟩
    · exact .inr ⟨program, by simp [there], queued⟩

/-! ## Draining -/

/-- Runs the hooks that wait, and those that these queue. Once none is left an open handshake is
done. -/
def drainHooks (client : Client) : Client :=
  if client.hooks = [] then
    if client.phase = .awaiting then { client with phase := .initialized } else client
  else drainHooks (performAll client.hooks { client with hooks := [] })
termination_by Batch.mk client.hooks
decreasing_by
  rename_i some
  exact ⟨some, fun _ waits => (mem_hooks_performAll waits).resolve_left (by simp)⟩

end Airlock.Client
