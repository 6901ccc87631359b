import Airlock.Cli.Call
import Airlock.Cli.Replay
import Airlock.Probe
import Airlock.Proofs.Session.Responding

/-!
# Conversations come to an end

Whatever is done in a conversation is done with its client: calls that the client answers at once,
and handles that are awaited while the session goes on beside. Nothing of this aborts the sink. So
at the end, when the client is closed, the session ends well, and what the conversation came to is
what comes out.
-/

set_option autoImplicit false

namespace Airlock.Cli

open Client (Trail Chain)

namespace Talk

/-! ## What is done in a conversation -/

/-- Conversations are put together from these parts. -/
inductive Composed : {α : Type} → Talk α → Prop where
  | pure {α : Type} (a : α) : Composed (Talk.pure a)
  | bind {α β : Type} {first : Talk α} {next : α → Talk β} (composed : Composed first)
      (further : ∀ a, Composed (next a)) : Composed (Talk.bind first next)
  | fail {α : Type} (error : Error) : Composed (fail error : Talk α)
  | within {α : Type} (context : String) {part : Talk α} (composed : Composed part) :
      Composed (within context part)
  /-- any call that a client with a running loop answers by itself -/
  | onClient {α : Type} {call : Client → Except Error α × Client}
      (byItself : ∀ client : Client, client.running = true →
        ∃ trail, Chain client trail (call client).2) :
      Composed (onClient call)
  | settle : Composed settle
  | poll (awaited : Awaited) : Composed (poll awaited)
  | advanceTo (moment : Duration) : Composed (advanceTo moment)
  | stuck {α : Type} : Composed (stuck : Talk α)

/-! ## The session behind a conversation -/

/-- A conversation has a host at work behind it, with a sink that nobody aborted. -/
structure Behind (config : Config) (conversation : Conversation)
    (hosting : Hosting (Responding Document.Store)) : Prop where
  sound : hosting.Sound
  serves : hosting.Serves Document.handlers
  begun : hosting.progress? = some conversation.progress
  session : conversation.session = hosting.session config
  whole : hosting.client.link.sink.abortReason? = none

variable {α β : Type} {config : Config} {conversation : Conversation}
  {hosting : Hosting (Responding Document.Store)}

/-- A call to the client is answered at once. -/
theorem onClient_behind (runs : conversation.session = hosting.session config)
    (call : Client → Except Error α × Client) :
    onClient call conversation =
      ((call hosting.client).1.mapError fun error => .failed ⟨[], .session error⟩,
        { conversation with
          session := (hosting.withClient (call hosting.client).2).session config }) := by
  have here : conversation.session.host? = some hosting.host := by
    rw [runs]
    rfl
  rw [onClient, here, runs]
  have same : hosting.host.client = hosting.client := rfl
  dsimp only
  rw [same]
  rcases call hosting.client with ⟨result | result, client⟩ <;> rfl

private theorem settle_behind (runs : conversation.session = hosting.session config) :
    settle conversation = (.ok (),
      { conversation with
        progress := (hosting.host.run conversation.progress).2.1
        session := ⟨config, .running (hosting.host.run conversation.progress).2.2⟩ }) := by
  rw [settle, runs, hosting.goOn_session]

/-- The host goes on being at work when its client does something by itself. -/
theorem Behind.withClient (behind : Behind config conversation hosting) {trail : Trail}
    {after : Client} (chain : Chain hosting.client trail after) :
    Behind config { conversation with session := (hosting.withClient after).session config }
      (hosting.withClient after) where
  sound := behind.sound.goOn behind.begun chain.keeps.1 (chain.shut behind.sound.shut)
  serves := ⟨behind.serves.peer, behind.serves.ended⟩
  begun := behind.begun
  session := rfl
  whole := chain.reason.trans behind.whole

private theorem chain_pollAwaited (client : Client) (now : Duration) (awaited : Awaited) :
    ∃ trail, Chain client trail (client.pollAwaited now awaited).2.2 := by
  rcases polled : client.pollAwaited now awaited with ⟨result | _, later, after⟩
  · exact ⟨_, Client.chain_poll polled⟩
  · obtain ⟨rfl, -⟩ := Client.pollAwaited_waiting polled
    exact ⟨[], .nil⟩

/-- The host goes on being at work when it is polled. -/
theorem Behind.reached (behind : Behind config conversation hosting)
    {polled : Progress × Host (Responding Document.Store)} (reaches : hosting.Reaches polled) :
    ∃ later, Behind config
      { conversation with progress := polled.1, session := ⟨config, .running polled.2⟩ } later := by
  obtain ⟨acts, own, host, begun⟩ := reaches
  refine ⟨hosting.run acts, behind.sound.run acts, behind.serves.run acts, begun, ?_, ?_⟩
  · rw [Hosting.session, host]
  · rw [behind.serves.reason_run own, behind.whole]

/-- Whatever is done in a conversation, there is a host at work behind it. -/
theorem Composed.behind {talk : Talk α} (composed : Composed talk)
    (behind : Behind config conversation hosting) :
    ∃ later, Behind config (talk conversation).2 later := by
  induction composed generalizing conversation hosting with
  | pure | fail | stuck => exact ⟨hosting, behind⟩
  | advanceTo moment => exact ⟨hosting, { behind with }⟩
  | @bind _ _ first next _ _ firstIH nextIH =>
    obtain ⟨between, there⟩ := firstIH behind
    unfold Talk.bind
    generalize first conversation = talked at there ⊢
    obtain ⟨broken | result, reached⟩ := talked
    · exact ⟨between, there⟩
    · exact nextIH result there
  | @within _ context part _ ih =>
    obtain ⟨later, there⟩ := ih behind
    unfold Talk.within
    generalize part conversation = talked at there ⊢
    obtain ⟨(failure | _) | result, reached⟩ := talked <;> exact ⟨later, there⟩
  | @onClient _ call byItself =>
    have running := behind.sound.running (by rw [behind.begun]; nofun)
    obtain ⟨trail, chain⟩ := byItself hosting.client running
    rw [onClient_behind behind.session]
    exact ⟨_, behind.withClient chain⟩
  | poll awaited =>
    obtain ⟨trail, chain⟩ := chain_pollAwaited hosting.client conversation.now awaited
    rw [Talk.poll, onClient_behind behind.session]
    exact ⟨_, behind.withClient chain⟩
  | settle =>
    rw [settle_behind behind.session]
    exact behind.reached (Hosting.reaches_run behind.begun)

/-- A conversation that ends by closing the client and settling ends its session well. -/
theorem Behind.close_settle (behind : Behind config conversation hosting) :
    Host.result? ((do close; settle : Talk Unit) conversation).2.progress = some (.ok ()) := by
  have closed := behind.withClient (Client.chain_close hosting.client)
  have link : (hosting.withClient hosting.client.close).client.link.Closed :=
    closed.sound.shut (Client.phase_close hosting.client)
  obtain ⟨drained, after, ran, why⟩ := closed.serves.run_closed closed.sound closed.begun link
  have well : drained = .ok () := by
    rcases why with well | ⟨reason, -, aborted⟩
    · exact well
    · cases closed.whole.symm.trans aborted
  have first : close conversation = (.ok (), { conversation with
      session := (hosting.withClient hosting.client.close).session config }) :=
    onClient_behind behind.session _
  change Host.result? (Talk.bind close (fun _ => settle) conversation).2.progress = _
  rw [Talk.bind, first]
  change Host.result? (settle _).2.progress = _
  rw [settle_behind closed.session, ran, well]
  rfl

/-! ## Whole conversations -/

/-- A conversation at its beginning: a fresh core, and a run that was begun. -/
def opening (config : Config) : Conversation :=
  { session := ((Hosting.create Document.handlers.peer { core := {} } config).act
      .start).session config
    progress := {} }

private theorem behind_opening (config : Config) :
    Behind config (opening config)
      ((Hosting.create Document.handlers.peer { core := {} } config).act .start) where
  sound := (Hosting.sound_create _ _ _).act .start
  serves := (Hosting.serves_create _ _ _).act .start
  begun := rfl
  session := rfl
  whole := rfl

private theorem composed_close : Composed close :=
  .onClient fun client _ => ⟨_, Client.chain_close client⟩

/-- A conversation after its whole course: what was done in it, the client closed, and the session
settled. -/
def ending (config : Config) (talk : Talk α) : Conversation :=
  ((do close; settle : Talk Unit) (talk (opening config)).2).2

/-- The session of the conversation ended well, and nothing of it is open. -/
structure Over (config : Config) (conversation : Conversation) : Prop where
  well : Host.result? conversation.progress = some (.ok ())
  closed : ∃ host, conversation.session = ⟨config, .running host⟩ ∧ host.client.phase = .closed ∧
    host.client.link.Closed
  terminated : (conversation.session.finish (.ok ())).stateName = "Terminated"

/-- Whatever is done in a conversation, its session is over in the end. -/
theorem over_ending (config : Config) {talk : Talk α} (composed : Composed talk) :
    Over config (ending config talk) := by
  obtain ⟨hosting, behind⟩ := composed.behind (behind_opening config)
  have well := behind.close_settle
  have closing : Composed (do close; settle : Talk Unit) :=
    .bind composed_close fun _ => .settle
  obtain ⟨later, ended⟩ := closing.behind behind
  obtain ⟨served, drained, complete, -⟩ := Hosting.result_some well
  have phase : later.client.phase = .closed :=
    (ended.sound.drained _ drained ended.begun (by rw [complete])).1
  refine ⟨well, ⟨later.host, ended.session, phase, ended.sound.shut phase⟩, ?_⟩
  rw [ending, ended.session]
  rfl

/-- A conversation comes to what is done in it, whether that fails or not. -/
theorem converse_composed (config : Config) {talk : Talk α} (composed : Composed talk) :
    converse config talk = (talk (opening config)).1 := by
  obtain ⟨hosting, behind⟩ := composed.behind (behind_opening config)
  have begun : (Session.offer ⟨config, .empty⟩ Document.handlers.peer { core := {} }).2.begin =
      .ok ({}, (opening config).session) := rfl
  have complete := behind.close_settle
  unfold converse
  generalize (do close; settle : Talk Unit) = finish at complete ⊢
  generalize Session.offer ⟨config, .empty⟩ Document.handlers.peer { core := {} } = offered
    at begun ⊢
  obtain ⟨host, session⟩ := offered
  dsimp only at begun ⊢
  rw [begun]
  have start : ({ session := (opening config).session, progress := {} } : Conversation) =
      opening config := rfl
  dsimp only
  rw [start, complete]

/-! ## The commands -/

private theorem composed_return (a : α) : Composed (Pure.pure a : Talk α) :=
  .pure a

private theorem composed_andThen {first : Talk α} {next : α → Talk β} (composed : Composed first)
    (further : ∀ a, Composed (next a)) : Composed (first >>= next) :=
  .bind composed further

private theorem composed_request (call : Call) : Composed (request call) :=
  .onClient fun client _ => ⟨_, Client.chain_request client call⟩

private theorem composed_notify (call : Call) : Composed (notify call) := by
  refine .onClient fun client _ => ⟨client.notifyTrail call, ?_⟩
  have chain := Client.chain_notify client call
  unfold Client.notifyIfOpen at chain
  cases sent : client.notify call <;> rw [sent] at chain <;> exact chain

private theorem composed_awaitResult (awaited : Awaited) : Composed (awaitResult awaited) := by
  unfold awaitResult
  refine composed_andThen .settle fun _ => composed_andThen (.poll awaited) ?_
  rintro ⟨result | _, awaited⟩
  · exact composed_return result
  · dsimp only
    cases awaited.deadline? with
    | none => exact .stuck
    | some deadline =>
      refine composed_andThen (.advanceTo deadline) fun _ => composed_andThen (.poll awaited) ?_
      rintro ⟨result | _, _⟩
      · exact composed_return result
      · exact .stuck

private theorem composed_await (id : Id) : Composed (await id) := by
  refine composed_andThen (composed_awaitResult _) ?_
  rintro (error | value)
  · exact .fail error
  · exact composed_return value

private theorem composed_shutdown : Composed shutdown := by
  refine composed_andThen (.onClient ?begins) fun awaited =>
    composed_andThen (composed_awaitResult awaited) ?finishes
  case begins =>
    intro client _
    have request := Client.chain_request client .shutdown
    unfold Client.beginShutdown
    rcases result : client.request .shutdown with ⟨_ | id, after⟩ <;> rw [result] at request
    · exact ⟨_, request.append (Client.chain_close after)⟩
    · exact ⟨_, request⟩
  case finishes =>
    exact fun answer => .onClient fun client _ => ⟨_, Client.chain_finish client answer⟩

theorem composed_callTalk (process : UInt32) (method : String) (params : Value)
    (document? : Option OpenedDocument) : Composed (callTalk process method params document?) := by
  have ends (result : Value) :
      Composed (do Talk.within "shutdown failed" Talk.shutdown; return result) :=
    composed_andThen (.within _ composed_shutdown) fun _ => composed_return result
  have waits (handshake : Id) {finish : Value → Talk Value}
      (ends : ∀ result, Composed (finish result)) (pending? : Option Id) : Composed (do
        let capabilities ← Talk.within "initialize failed" (Talk.await handshake)
        pending?.elim (Pure.pure capabilities >>= finish) fun pending =>
          Talk.within (method ++ " failed") (Talk.await pending) >>= finish) := by
    refine composed_andThen (.within _ (composed_await handshake)) fun capabilities => ?_
    cases pending? with
    | none => exact composed_andThen (composed_return capabilities) ends
    | some pending => exact composed_andThen (.within _ (composed_await pending)) ends
  have asks {next : Option Id → Talk Value} (waits : ∀ pending?, Composed (next pending?)) :
      Composed (if method = Methods.handshake then Pure.pure none >>= next
        else do next (some (← Talk.request ⟨method, params⟩))) := by
    split
    · exact composed_andThen (composed_return none) waits
    · exact composed_andThen (composed_request _) fun id => waits (some id)
  refine composed_andThen (composed_request _) fun handshake => ?_
  have further := asks (waits handshake ends)
  cases document? with
  | none => exact further
  | some document => exact composed_andThen (composed_notify _) fun _ => further

private theorem composed_sendAll (entries : List Script.Entry) : Composed (sendAll entries) := by
  induction entries with
  | nil => exact composed_return []
  | cons entry rest ih =>
    unfold sendAll
    split
    · exact composed_andThen (composed_notify _) fun _ => ih
    · exact composed_andThen (composed_request _) fun id =>
        composed_andThen ih fun later => composed_return _

private theorem composed_awaitAll (asked : List (String × Id)) : Composed (awaitAll asked) := by
  induction asked with
  | nil => exact composed_return []
  | cons first rest ih =>
    obtain ⟨method, id⟩ := first
    refine composed_andThen (composed_awaitResult _) fun answer => ?_
    have further (outcome : Outcome) :
        Composed (do return replayLine method id outcome :: (← awaitAll rest)) :=
      composed_andThen ih fun later => composed_return _
    dsimp only
    split
    · exact composed_andThen (composed_return _) further
    · exact composed_andThen (composed_return _) further
    · exact composed_andThen (.within _ (.fail _)) further

theorem composed_replayTalk (entries : List Script.Entry) : Composed (replayTalk entries) :=
  composed_andThen (composed_sendAll entries) composed_awaitAll

/-! ## Closing ends a session -/

/-- Handlers are served, and anything goes on around the client until it is closed. From then on
nothing waits and nothing is added, so the handlers and the loop use up what is left; the next poll
of the run ends both, and unless the sink was aborted the run ends well. -/
theorem closed_session_ends {σ : Type} (handlers : Handlers σ) (core : σ) (config : Config)
    (acts : List Hosting.Act) {progress : Progress}
    (begun : ((Hosting.create handlers.peer { core } config).run acts).progress? = some progress)
    (closed : ((Hosting.create handlers.peer { core } config).run acts).client.phase = .closed) :
    ((Hosting.create handlers.peer { core } config).run acts).Closes progress :=
  have sound := (Hosting.sound_create handlers.peer { core } config).run acts
  have serves := (Hosting.serves_create handlers core config).run acts
  serves.closes sound begun (sound.shut closed)

/-- Closing ends every session, whatever went on before. Therefore every conversation with the core
comes to an end as well, and to what was done in it. -/
theorem closing_ends_session {σ : Type} (handlers : Handlers σ) (core : σ) (config : Config) :
    (∀ (acts : List Hosting.Act) {progress : Progress},
      ((Hosting.create handlers.peer { core } config).run acts).progress? = some progress →
      ((Hosting.create handlers.peer { core } config).run acts).client.phase = .closed →
      ((Hosting.create handlers.peer { core } config).run acts).Closes progress) ∧
    ∀ {α : Type} {talk : Talk α}, Composed talk →
      converse config talk = (talk (opening config)).1 :=
  ⟨closed_session_ends handlers core config, converse_composed config⟩

/-- The client is closed while its handlers wait to write their second reply into a sink that holds
no more than one. -/
theorem closing_ends_suspended :
    let config : Config := ⟨{ highWaterMark := 1 }, by decide, by decide, by decide⟩
    let start := Hosting.create Probe.handlers.peer { core := .null } config
    let before : List Hosting.Act :=
      [.near (.call (.request ⟨"test/get", .null⟩ fun _ =>
          .request ⟨"test/get", .null⟩ fun _ => .skip)), .start, .serve, .serve, .serve]
    let suspended := start.run before
    suspended.peer.advance suspended.codec suspended.state suspended.client.link = .waiting ∧
      (start.run (before ++ [.near (.call (.close .skip))])).Closes {} ∧
      converse config shutdown = (shutdown (opening config)).1 := by
  have ends := closing_ends_session Probe.handlers .null
    ⟨{ highWaterMark := 1 }, by decide, by decide, by decide⟩
  exact ⟨rfl, ends.1 _ rfl rfl, ends.2 composed_shutdown⟩

end Talk

end Airlock.Cli
