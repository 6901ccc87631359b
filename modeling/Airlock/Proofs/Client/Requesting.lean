import Airlock.Proofs.Client.Soundness

/-!
# Requests are all or nothing

A call for a request is entered and sent, or it leaves the client as it was but for the number that
it used up. That the three parts of a call never come apart is true at every point of a run, also
inside hooks and handlers: the table is closed with the client, and an untried handshake is not
outstanding. The number of a call is free because it was never taken before; there are `2 ^ 64`
numbers until they come round again.
-/

set_option autoImplicit false

namespace Airlock.Client

variable {history : History} {client after : Client}

/-! ## Points of a run -/

/-- What holds after every occurrence of a trail holds after every part of the trail. -/
theorem Trail.along_point {invariant : History → Client → Prop} {trail part : Trail}
    (along : Trail.Along (fun history _ occurrence after => invariant (occurrence :: history) after)
      history client trail)
    (start : invariant history client) (begins : part <+: trail) :
    invariant (history.extend part) (Trail.last client part) := by
  induction part generalizing history client trail with
  | nil => exact start
  | cons entry part ih =>
    obtain ⟨rest, rfl⟩ := begins
    rw [History.extend_cons]
    exact ih along.2 along.1 (List.prefix_append part rest)

/-- The parts of a client that a call for a request goes by agree. Unlike what is kept from one
operation to the next, this holds in the middle of a call, too. -/
structure Ready (history : History) (client : Client) : Prop where
  closed : client.phase = .closed ↔ client.pending.closed = true
  idle : client.phase = .uninitialized → client.handshake? = none
  numbered : Numbered history.calls client

private theorem Kept.ready (kept : Kept history client) : Ready history client where
  closed := kept.closed
  idle idle := by
    have unsettled := kept.unsettled idle
    cases outstanding : client.handshake? with
    | none => rfl
    | some id => cases idle.symm.trans ((kept.awaiting unsettled).mpr ⟨id, outstanding⟩)
  numbered := kept.numbered

private theorem Kept.ready_attempted (kept : Kept history client)
    (idle : client.phase = .uninitialized)
    (id : Id) : Ready (.attempted id :: history) client.attempting where
  closed := by
    have live : client.pending.closed ≠ true := fun closed =>
      nomatch idle.symm.trans (kept.closed.mpr closed)
    exact ⟨nofun, fun closed => absurd closed live⟩
  idle := nofun
  numbered := kept.numbered.more rfl fun _ member => .inr member

private theorem ready_step {chunk : Trail} (kept : Kept history client)
    (step : Step history client chunk after) :
    Trail.Along (fun history _ occurrence after => Ready (occurrence :: history) after)
      history client chunk := by
  have last : Ready (history.extend chunk) after := (kept_step kept step).2.ready
  cases step with
  | attemptWithdrawn idle | attemptIssued idle =>
    exact ⟨kept.ready_attempted idle _, last, trivial⟩
  | started => exact ⟨(kept.same rfl {}).ready, last, trivial⟩
  | expired rest waits open? forgotten =>
    subst forgotten
    exact ⟨(kept.expired _ rest).1.ready, last, trivial⟩
  | _ => exact ⟨last, trivial⟩

private theorem World.ready (config : Config) (acts : List Act) {part : Trail}
    (begins : part <+: (create config).trail acts) :
    Ready part.history (Trail.last (create config).client part) := by
  obtain ⟨path, -⟩ := path_trail (follows_create config) acts
  have start : Kept ([] : History) (create config).client := kept_create config _
  have along := (path.along (fun kept step => ⟨ready_step kept step, (kept_step kept step).2⟩)
    start).1
  exact Trail.along_point along start.ready begins

/-! ## Numbers -/

private theorem ofNat_ne_ofNat {first second : Nat} (below : first < second)
    (near : second < first + 0x10000000000000000) : Int64.ofNat first ≠ Int64.ofNat second := by
  intro same
  have words := congrArg (fun n => n.toBitVec.toNat) same
  simp only [Int64.toBitVec_ofNat', BitVec.toNat_ofNat] at words
  omega

private theorem Numbered.free {calls : Nat} (numbered : Numbered calls client)
    (few : calls < 0x10000000000000000) : .number client.nextId ∉ client.pending.ids := by
  intro member
  obtain ⟨count, positive, small, same⟩ := numbered.pending _ member
  rw [numbered.next] at same
  exact ofNat_ne_ofNat (Nat.lt_succ_of_le small) (by omega) (Id.number.inj same).symm

private theorem leaving_of_not_mem {id : Id} (free : id ∉ client.pending.ids) :
    client.leaving id = client := by
  have same : client.pending.ids.filter (· ≠ id) = client.pending.ids := by
    rw [List.filter_eq_self]
    intro other member
    exact decide_eq_true fun here => free (here ▸ member)
  rw [leaving, InFlight.remove, same]

private theorem insertOrdered_perm {id : Id} {ids : List Id} (free : id ∉ ids) :
    (id.insertOrdered ids).Perm (id :: ids) := by
  induction ids with
  | nil => exact .refl _
  | cons head rest ih =>
    rw [List.mem_cons, not_or] at free
    rw [Id.insertOrdered, if_neg free.1]
    split
    · exact .refl _
    · exact ((ih free.2).cons head).trans (.swap id head rest)

/-! ## What a call comes to -/

/-- The call is for a handshake that comes too late: one is open, or was successful. -/
structure Bars (client : Client) (call : Call) : Prop where
  live : client.phase ≠ .closed
  opening : call.method = Methods.handshake
  tried : client.phase ≠ .uninitialized

private theorem idle_of_not_bars {call : Call} (live : client.phase ≠ .closed)
    (free : ¬ client.Bars call)
    (opening : call.method = Methods.handshake) : client.phase = .uninitialized :=
  Decidable.byContradiction fun tried => free ⟨live, opening, tried⟩

/-- The client with a call begun that is not refused at once. -/
def begun (client : Client) (call : Call) : Client :=
  if call.method = Methods.handshake then client.attempting else client.numbered

/-- The reply to a call, and the client after it. -/
inductive Comes (client : Client) (call : Call) : Except Error Id × Client → Prop where
  | closed (ended : client.phase = .closed) :
      Comes client call (.error .closed, client.numbered)
  | barred (late : client.Bars call) :
      Comes client call (.error (.invalidState "initialize was already sent"), client.numbered)
  | withdrawn (live : client.phase ≠ .closed) (free : ¬ client.Bars call)
      (shut : client.link.queue.closed = true) :
      Comes client call
        (.error .closed, (client.begun call).withdraw (.number client.nextId) call)
  | sent (live : client.phase ≠ .closed) (free : ¬ client.Bars call)
      (open? : client.link.queue.closed = false) :
      Comes client call
        (.ok (.number client.nextId),
          ((client.begun call).entering (.number client.nextId)).enqueued
            (call.toRequest (.number client.nextId)))

private theorem begin_begun {call : Call} (live : client.phase ≠ .closed)
    (free : ¬ client.Bars call) :
    client.begin call = (.ok (.number client.nextId), client.begun call) := by
  rw [begin_eq, if_neg live, begun]
  by_cases opening : call.method = Methods.handshake
  · have idle := idle_of_not_bars live free opening
    simp [opening, idle]
  · simp [opening]

private theorem submit_eq {id : Id} {call : Call} (open? : client.pending.closed = false) :
    client.submit id call =
      if client.link.queue.closed then (.error .closed, client.withdraw id call)
      else (.ok id, (client.entering id).enqueued (call.toRequest id)) := by
  have entered : client.enter id call = (client.entering id).send (call.toRequest id) := by
    simp [enter, InFlight.add?, open?, entering]
  have same : (client.entering id).link.queue.closed = client.link.queue.closed := rfl
  rw [submit, entered, send_eq, same]
  cases client.link.queue.closed <;> rfl

private theorem Ready.comes (ready : Ready history client) (call : Call) :
    Comes client call (client.request call) := by
  by_cases ended : client.phase = .closed
  · rw [request, begin_eq, if_pos ended]
    exact .closed ended
  by_cases late : client.Bars call
  · rw [request, begin_eq, if_neg ended, if_neg (not_not_intro late.opening), if_neg late.tried]
    exact .barred late
  -- From here on only the queue can refuse the request.
  have open? : (client.begun call).pending.closed = false := by
    have same : (client.begun call).pending = client.pending := by
      unfold begun
      split <;> rfl
    rw [same, Bool.eq_false_iff]
    exact fun closed => ended (ready.closed.mpr closed)
  have same : (client.begun call).link = client.link := by
    unfold begun
    split <;> rfl
  simp only [request, begin_begun ended late, submit_eq open?, same]
  cases shut : client.link.queue.closed with
  | true => exact .withdrawn ended late shut
  | false => exact .sent ended late shut

/-- What was begun is taken back to the last trace, the number aside. -/
theorem Ready.withdraw_begun {call : Call} (ready : Ready history client)
    (live : client.phase ≠ .closed) (free : ¬ client.Bars call)
    (few : history.calls < 0x10000000000000000) :
    (client.begun call).withdraw (.number client.nextId) call = client.numbered := by
  have unused := ready.numbered.free few
  by_cases opening : call.method = Methods.handshake
  · have idle := idle_of_not_bars live free opening
    have none : client.handshake? = none := ready.idle idle
    have left : client.attempting.leaving (.number client.nextId) = client.attempting :=
      leaving_of_not_mem unused
    calc (client.begun call).withdraw (.number client.nextId) call
        = (client.attempting.leaving (.number client.nextId)).abandonHandshake
            (.number client.nextId) := by rw [begun, if_pos opening, withdraw, if_pos opening]; rfl
      _ = client.attempting.abandonHandshake (.number client.nextId) := by rw [left]
      _ = { client.attempting with handshake? := .none, phase := .uninitialized } :=
        abandonHandshake_open rfl rfl
      _ = client.numbered := by rw [attempting, Client.numbered, none, idle]
  · have left : client.numbered.leaving (.number client.nextId) = client.numbered :=
      leaving_of_not_mem unused
    rw [begun, if_neg opening, withdraw, if_neg opening]
    exact left

/-! ## All or nothing -/

/-- The client after a request that was sent. -/
structure Sent (client : Client) (call : Call) (id : Id) (after : Client) : Prop where
  number : id = .number client.nextId
  entered : after.pending =
    { client.pending with ids := id.insertOrdered client.pending.ids }
  queued : after.link.queue.units =
    client.link.queue.units ++ [client.codec.encode (call.toRequest id)]
  phase : after.phase = if call.method = Methods.handshake then .awaiting else client.phase
  handshake : after.handshake? =
    if call.method = Methods.handshake then some id else client.handshake?
  rest : after = { client with
    nextId := client.nextId + 1
    pending := after.pending
    phase := after.phase
    handshake? := after.handshake?
    link := { client.link with
      queue := { client.link.queue with units := after.link.queue.units } } }

/-- When a call for a request fails, and what it leaves of the client either way. The numbers count
up and are of 64 bits: the one of a call is free for as long as they do not come round again. -/
structure AllOrNothing (history : History) (client : Client) (call : Call) : Prop where
  closed : (client.request call).1 = .error .closed ↔
    client.phase = .closed ∨ ¬ client.Bars call ∧ client.link.queue.closed = true
  barred : (client.request call).1 = .error (.invalidState "initialize was already sent") ↔
    client.Bars call
  nothing : ∀ error after, client.request call = (.error error, after) →
    (error = .closed ∨ error = .invalidState "initialize was already sent") ∧
      (history.calls < 0x10000000000000000 → after = { client with nextId := client.nextId + 1 })
  all : ∀ id after, client.request call = (.ok id, after) → Sent client call id after ∧
    (history.calls < 0x10000000000000000 →
      id ∉ client.pending.ids ∧ after.pending.ids.Perm (id :: client.pending.ids))
  counted : (history.extend (client.requestTrail call)).calls = history.calls + 1

private theorem sent_begun (client : Client) (call : Call) :
    Sent client call (.number client.nextId)
      (((client.begun call).entering (.number client.nextId)).enqueued
        (call.toRequest (.number client.nextId))) := by
  unfold begun
  split
  · rename_i opening
    exact ⟨rfl, rfl, rfl, (if_pos opening).symm, (if_pos opening).symm, rfl⟩
  · rename_i plain
    exact ⟨rfl, rfl, rfl, (if_neg plain).symm, (if_neg plain).symm, rfl⟩

private theorem Ready.allOrNothing (ready : Ready history client) (call : Call) :
    AllOrNothing history client call := by
  have comes := ready.comes call
  have counted := calls_requestTrail history client call
  generalize reply : client.request call = outcome at comes
  cases comes with
  | closed ended =>
    refine ⟨?_, ?_, ?_, ?_, counted⟩
    · simp [reply, ended]
    · rw [reply]
      exact ⟨nofun, fun late => absurd ended late.live⟩
    · intro error after same
      cases reply.symm.trans same
      exact ⟨.inl rfl, fun _ => rfl⟩
    · intro id after same
      cases reply.symm.trans same
  | barred late =>
    refine ⟨?_, ?_, ?_, ?_, counted⟩
    · simp [reply, late, late.live]
    · simp [reply, late]
    · intro error after same
      cases reply.symm.trans same
      exact ⟨.inr rfl, fun _ => rfl⟩
    · intro id after same
      cases reply.symm.trans same
  | withdrawn live free shut =>
    refine ⟨?_, ?_, ?_, ?_, counted⟩
    · simp [reply, free, shut]
    · simp [reply, free]
    · intro error after same
      cases reply.symm.trans same
      exact ⟨.inl rfl, ready.withdraw_begun live free⟩
    · intro id after same
      cases reply.symm.trans same
  | sent live free open? =>
    refine ⟨?_, ?_, ?_, ?_, counted⟩
    · simp [reply, live, open?]
    · simp [reply, free]
    · intro error after same
      cases reply.symm.trans same
    · intro id after same
      cases reply.symm.trans same
      have sent := sent_begun client call
      refine ⟨sent, fun few => ?_⟩
      have unused := ready.numbered.free few
      rw [sent.entered]
      exact ⟨unused, insertOrdered_perm unused⟩

namespace World

/-- At every point of a run, whoever closed the queue, a call for a request is all or nothing. It is
refused by a closed client, as a second handshake, or by a closed queue, and then leaves the client
as it was, apart from its number; otherwise it is entered and sent last. No number comes twice. -/
theorem request_all_or_nothing (config : Config) (acts : List Act) (part : Trail)
    (begins : part <+: (create config).trail acts) :
    let client := Trail.last (create config).client
    (∀ call, AllOrNothing part.history (client part) call) ∧
      ∀ earlier : Trail, earlier <+: part → earlier.history.calls < part.history.calls →
        part.history.calls < 0x10000000000000000 →
        (client earlier).nextId ≠ (client part).nextId := by
  intro client
  have ready := World.ready config acts begins
  refine ⟨ready.allOrNothing, ?_⟩
  intro earlier before fewer few
  rw [(World.ready config acts (before.trans begins)).numbered.next, ready.numbered.next]
  exact ofNat_ne_ofNat (Nat.succ_lt_succ fewer) (by omega)

/-- The far end is gone and the client not closed: a handshake is refused, and can be tried again
under the next number. -/
theorem request_all_or_nothing_deserted :
    let world := create Config.default
    let part := world.trail [.link .dropPeer]
    let client := Trail.last world.client part
    part <+: world.trail [.link .dropPeer] ∧ client.phase = .uninitialized ∧
      client.request (.handshake .null) = (.error .closed, { client with nextId := 2 }) := by
  intro world part client
  have begins : part <+: world.trail [.link .dropPeer] := List.prefix_refl part
  obtain ⟨each, -⟩ := request_all_or_nothing Config.default [.link .dropPeer] part begins
  have law := each (.handshake .null)
  refine ⟨begins, rfl, ?_⟩
  have shut : (client.request (.handshake .null)).1 = .error .closed :=
    law.closed.mpr (.inr ⟨fun bars => bars.tried rfl, rfl⟩)
  cases reply : client.request (.handshake .null) with
  | mk result after =>
    rw [reply] at shut
    obtain rfl : result = .error .closed := shut
    obtain ⟨-, kept⟩ := law.nothing .closed after reply
    rw [kept (by decide +kernel)]
    rfl

end World

end Airlock.Client
