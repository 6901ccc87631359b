import Airlock.Proofs.Cli.Replaying
import Airlock.Proofs.Document.Store

/-!
# Calls

A call sends the handshake, the opened document and its request before it awaits anything, so the
core handles them one after the other, and the handles find what it came to. Then the call shuts the
core down, which nothing can refuse any more, and closes its client. What it shows is therefore what
the core comes to by itself, on params as the codec reads them.
-/

set_option autoImplicit false

namespace Airlock

/-! ## Messages as they arrive -/

namespace Codec

/-- The message as it is read from its unit. -/
def asRead (codec : Codec) (message : Message) : Message :=
  (message.mapDoubles (rereadDouble codec.format)).normalized

private theorem readsAs_asRead {codec : Codec} {sent : List Message}
    (fits : ∀ message ∈ sent, codec.Fits message) : codec.ReadsAs codec.asRead sent where
  reads message member :=
    decode_encode_reread (fits message member).wellFormed (fits message member).short
      (fits message member).shallow
  asks message _ {id method params} same := by
    cases message with
    | request _ _ others =>
      cases same
      exact ⟨others, rfl⟩
    | notification => cases same
    | response _ outcome => cases outcome <;> cases same

/-- The unit of the message is not too long, and its value nests no deeper than the format reads. -/
structure Admits (codec : Codec) (message : Message) : Prop where
  short : (codec.encode message).length ≤ maxUnitLength
  shallow : message.toValue.nesting ≤ codec.format.maxNesting

instance (codec : Codec) (message : Message) : Decidable (codec.Admits message) :=
  decidable_of_iff _
    ⟨fun both => ⟨both.1, both.2⟩, fun admits => And.intro admits.short admits.shallow⟩

end Codec

namespace Cli

open Document (handlers Store)

/-! ## The messages of a call -/

/-- The notification that tells the core of an opened document. -/
def OpenedDocument.message (document : OpenedDocument) : Message :=
  (Call.didOpen document.uri document.languageId 1 document.text).toNotification

/-- The messages about opened documents in a call. -/
def openingMessages (document? : Option OpenedDocument) : List Message :=
  (document?.map OpenedDocument.message).toList

/-- The messages that a call sends before it awaits anything. -/
def callMessages (process : UInt32) (method : String) (params : Value)
    (document? : Option OpenedDocument) : List Message :=
  (Call.handshake (handshakeParams process method params)).toRequest (.nth 1) ::
    (openingMessages document? ++
      if method = Methods.handshake then []
      else [(⟨method, params⟩ : Call).toRequest (.nth 2)])

/-- The identifier of the request that a call is about. -/
def callId (method : String) : Id :=
  if method = Methods.handshake then .nth 1 else .nth 2

/-- The store that holds the opened document, if there is one, and nothing else. -/
def openedStore : Option OpenedDocument → Store
  | none => {}
  | some document => ⟨[(document.uri, document.text)]⟩

/-- What the document core comes to by itself: for the handshake with the params, or with those of
an introduction when they are null, and for any other method with the opened document in store. -/
def coreOutcome (process : UInt32) (method : String) (params : Value)
    (document? : Option OpenedDocument) : Outcome :=
  if method = Methods.handshake then
    (handlers.answer method (handshakeParams process method params) {}).1
  else
    (handlers.answer method params (openedStore document?)).1

/-- What a call comes to: the core sees the params as the codec reads them. -/
def callOutcome (process : UInt32) (codec : Codec) (method : String) (params : Value)
    (document? : Option OpenedDocument) : Outcome :=
  coreOutcome process method (params.mapDoubles (Codec.rereadDouble codec.format)) document?

/-- The answers to the messages of a call. -/
def callAnswers (process : UInt32) (codec : Codec) (method : String) (params : Value)
    (document? : Option OpenedDocument) : List (Id × Outcome) :=
  (if method = Methods.handshake then [] else [(.nth 1, .ok Document.introduction)]) ++
    [(callId method, callOutcome process codec method params document?)]

variable {process : UInt32} {method : String} {params : Value} {document? : Option OpenedDocument}
  {codec : Codec}

private theorem didOpen_params (uri languageId : String) (version : Int32) (text : String) :
    (Call.didOpen uri languageId version text).params =
      .object [("textDocument", .object [("languageId", .string languageId), ("text", .string text),
        ("uri", .string uri), ("version", Call.versionValue version)])] := by
  simp only [Call.didOpen, Value.ofMembers, Members.ofList, List.foldl_cons, List.foldl_nil,
    Members.insert, String.reduceLT, String.reduceEq, if_true, if_false]

private theorem introduction_eq (process : UInt32) :
    introduction process = .object [("capabilities", .object []),
      ("clientInfo", .object [("name", .string "sandlink"),
        ("version", .string Document.version)]),
      ("processId", .ofNat process.toNat)] := by
  simp only [introduction, Value.ofMembers, Members.ofList, List.foldl_cons, List.foldl_nil,
    Members.insert, String.reduceLT, String.reduceEq, if_true, if_false]

/-- The core takes the introduction of every process. -/
theorem answer_introduction (process : UInt32) (store : Store) :
    (handlers.answer Methods.handshake (introduction process) store).1 =
      .ok Document.introduction := by
  rw [introduction_eq]
  rfl

private theorem OpenedDocument.message_eq (document : OpenedDocument) :
    document.message = .notification Methods.didOpen (.object [("textDocument", .object [
      ("languageId", .string document.languageId), ("text", .string document.text),
      ("uri", .string document.uri), ("version", Call.versionValue 1)])]) :=
  congrArg (Message.notification Methods.didOpen) (didOpen_params ..)

private theorem OpenedDocument.message_wellFormed (document : OpenedDocument) :
    document.message.WellFormed := by
  have item : (Value.ofMembers [("uri", .string document.uri),
      ("languageId", .string document.languageId), ("version", Call.versionValue 1),
      ("text", .string document.text)]).Within 1 := by
    refine Value.within_ofMembers ?_
    simp only [List.forall_mem_cons]
    exact ⟨Value.within_string _, Value.within_string _, Value.within_number _,
      Value.within_string _, List.forall_mem_nil _⟩
  exact (Value.within_single item).wellFormed

/-- A document is told of without doubles. -/
theorem asRead_openingMessages (document? : Option OpenedDocument) :
    (openingMessages document?).map codec.asRead = openingMessages document? := by
  cases document? with
  | none => rfl
  | some document =>
    refine congrArg (fun message => [message]) ?_
    rw [document.message_eq]
    rfl

/-- The core keeps the opened document. -/
theorem after_openingMessages (document? : Option OpenedDocument) :
    handlers.after {} (openingMessages document?) = openedStore document? := by
  have opens : handlers.get? Methods.didOpen =
      some (Handler.typed Document.openDecoder fun item store =>
        (.ok .null, store.put item.uri item.text)) := rfl
  cases document? with
  | none => rfl
  | some document =>
    show handlers.after {} [document.message] = _
    rw [document.message_eq, Handlers.after_notification, Handlers.answer, opens]
    rfl

private theorem answers_openingMessages (document? : Option OpenedDocument) (store : Store) :
    handlers.answers store (openingMessages document?) = [] := by
  cases document? <;> rfl

/-- The handshake leaves the documents as they are. -/
theorem answer_handshake_core (params : Value) (store : Store) :
    (handlers.answer Methods.handshake params store).2 = store :=
  have unopening : Methods.handshake ≠ Methods.didOpen := by decide
  have unchanging : Methods.handshake ≠ Methods.didChange := by decide
  have same : store.after ⟨Methods.handshake, params⟩ = store :=
    Store.after_other unopening unchanging
  same

private theorem handshakeParams_mapDoubles (process : UInt32) (method : String) (params : Value)
    (f : Double → Double) :
    (handshakeParams process method params).mapDoubles f =
      handshakeParams process method (params.mapDoubles f) := by
  unfold handshakeParams
  rw [Value.isNull_mapDoubles]
  split
  · rfl
  · rw [introduction_eq]
    exact Value.mapDoubles_eq_self (List.forall_mem_nil _)

private theorem answers_callMessages :
    handlers.answers {} ((callMessages process method params document?).map codec.asRead) =
      callAnswers process codec method params document? := by
  let reread := params.mapDoubles (Codec.rereadDouble codec.format)
  have begun : codec.asRead
      ((Call.handshake (handshakeParams process method params)).toRequest (.nth 1)) =
      .request (.nth 1) Methods.handshake (handshakeParams process method reread) :=
    congrArg (Message.request _ _) (handshakeParams_mapDoubles ..)
  rw [callMessages, List.map_cons, List.map_append, asRead_openingMessages, Handlers.answers, begun,
    Handlers.after_request, answer_handshake_core, Handlers.answers_append,
    answers_openingMessages, after_openingMessages, List.nil_append, callAnswers, callId,
    callOutcome, coreOutcome]
  by_cases initial : method = Methods.handshake
  · subst initial
    rfl
  · have introduced : handshakeParams process method reread = introduction process := by
      simp [handshakeParams, initial]
    simp only [if_neg initial]
    rw [introduced, Handlers.reply?, answer_introduction]
    rfl

/-! ## Limits -/

/-- Every message of a call is within the limits of the codec: those that are sent before anything
is awaited, and the answer that the call is about. All others are the same in every call. -/
structure CallFits (process : UInt32) (codec : Codec) (method : String) (params : Value)
    (document? : Option OpenedDocument) : Prop where
  sent : ∀ message ∈ callMessages process method params document?, codec.Admits message
  answered : (codec.replyUnit (callId method,
    callOutcome process codec method params document?)).length ≤ Codec.maxUnitLength

private theorem introduction_within (process : UInt32) : (introduction process).Within 2 := by
  have info : (Value.ofMembers
      [("name", .string "sandlink"), ("version", .string Document.version)]).Within 1 :=
    Value.within_pair (Value.within_string _) (Value.within_string _)
  refine Value.within_ofMembers ?_
  simp only [List.forall_mem_cons]
  exact ⟨Value.within_number _, info, Value.within_object.mpr Members.within_nil,
    List.forall_mem_nil _⟩

private theorem handshakeParams_wellFormed (wellFormed : params.WellFormed) :
    (handshakeParams process method params).WellFormed := by
  unfold handshakeParams
  split
  · exact wellFormed
  · exact (introduction_within process).wellFormed

private theorem CallFits.fits (callFits : CallFits process codec method params document?)
    (wellFormed : params.WellFormed) :
    ∀ message ∈ callMessages process method params document?, codec.Fits message := by
  intro message member
  have admits := callFits.sent message member
  refine ⟨?_, admits.short, admits.shallow⟩
  obtain rfl | behind := List.mem_cons.mp member
  · exact handshakeParams_wellFormed wellFormed
  obtain opening | asking := List.mem_append.mp behind
  · cases document? with
    | none => cases opening
    | some document =>
      obtain rfl := List.mem_singleton.mp opening
      exact document.message_wellFormed
  · split at asking
    · cases asking
    · obtain rfl := List.mem_singleton.mp asking
      exact wellFormed

private theorem introduction_short (codec : Codec) :
    (codec.replyUnit (.nth 1, .ok Document.introduction)).length ≤ Codec.maxUnitLength := by
  obtain ⟨_ | _, _ | _⟩ := codec <;> decide +kernel

private theorem CallFits.short (callFits : CallFits process codec method params document?) :
    ∀ answer ∈ callAnswers process codec method params document?,
      (codec.replyUnit answer).length ≤ Codec.maxUnitLength := by
  refine List.forall_mem_append.mpr ⟨?_, List.forall_mem_singleton.mpr callFits.answered⟩
  split
  · exact List.forall_mem_nil _
  · exact List.forall_mem_singleton.mpr (introduction_short codec)

/-- How many requests a call sends before it shuts the core down, counted from one. -/
def nextNumber (method : String) : Nat :=
  if method = Methods.handshake then 2 else 3

private theorem nextNumber_early (method : String) :
    nextNumber method = 2 ∨ nextNumber method = 3 := by
  unfold nextNumber
  split
  · exact .inl rfl
  · exact .inr rfl

private theorem callAnswers_distinct :
    ((callAnswers process codec method params document?).map (·.1) ++
      [Id.nth (nextNumber method)]).Nodup := by
  unfold callAnswers callId nextNumber
  split
  · exact (by decide : [Id.nth 1, .nth 2].Nodup)
  · exact (by decide : [Id.nth 1, .nth 2, .nth 3].Nodup)

/-! ## Sending -/

namespace Talk

variable {config : Config} {host : Host (Responding Store)}

/-- What is left of a call when everything was sent. -/
def awaitCall (method : String) (handshake : Id) (pending? : Option Id) : Talk Value := do
  let capabilities ← within "initialize failed" (await handshake)
  let result ← match pending? with
    | some pending => within (method ++ " failed") (await pending)
    | none => Pure.pure capabilities
  within "shutdown failed" shutdown
  return result

/-- What is left of a call when the handshake and the opened document were sent. -/
def askCall (method : String) (params : Value) (handshake : Id) : Talk Value := do
  let pending? ←
    if method = Methods.handshake then Pure.pure none
    else do Pure.pure (some (← request ⟨method, params⟩))
  awaitCall method handshake pending?

private theorem callTalk_eq (process : UInt32) (method : String) (params : Value)
    (document? : Option OpenedDocument) :
    callTalk process method params document? = (do
      let handshake ← request (.handshake (handshakeParams process method params))
      document?.elim (askCall method params handshake) fun document => do
        notify (.didOpen document.uri document.languageId 1 document.text)
        askCall method params handshake) := by
  cases document? <;> rfl

/-- The request that a call is about beside the handshake. -/
def pending? (method : String) : Option Id :=
  if method = Methods.handshake then none else some (.nth 2)

variable (config) in
private theorem askCall_sent (plain : host.client.Plain) (next : host.client.nextId = Int64.ofNat 2)
    (method : String) (params : Value) (handshake : Id) :
    ∃ client, askCall method params handshake (hosted config host) =
        awaitCall method handshake (pending? method) (hosted config { host with client }) ∧
      host.client.Sends client (if method = Methods.handshake then []
        else [(⟨method, params⟩ : Call).toRequest (.nth 2)]) ∧
      client.nextId = Int64.ofNat (nextNumber method) := by
  unfold askCall pending? nextNumber
  by_cases initial : method = Methods.handshake
  · simp only [if_pos initial]
    exact ⟨host.client, andThen_ok rfl, plain.sends_nil, next⟩
  · simp only [if_neg initial]
    let call : Call := ⟨method, params⟩
    have other : call.method ≠ Methods.handshake := initial
    obtain ⟨client, requested, sends, nextId, -⟩ :=
      request_hosted config plain next fun again => absurd again other
    refine ⟨client, ?_, sends, nextId⟩
    rw [andThen_ok requested]
    exact andThen_ok rfl

private theorem callTalk_sent (config : Config) (process : UInt32) (method : String)
    (params : Value)
    (document? : Option OpenedDocument) :
    ∃ client, callTalk process method params document? (opening config) =
        awaitCall method (.nth 1) (pending? method)
          (hosted config { freshHost config with client }) ∧
      (freshHost config).client.Sends client (callMessages process method params document?) ∧
      client.nextId = Int64.ofNat (nextNumber method) := by
  let begin : Call := .handshake (handshakeParams process method params)
  have first : (freshHost config).client.nextId = Int64.ofNat 1 := rfl
  obtain ⟨begun, requested, introduced, second, -⟩ :=
    @request_hosted config (freshHost config) (plain_fresh config) 1 first begin fun _ => rfl
  rw [opening_eq, callTalk_eq, andThen_ok requested]
  let introducing : Host (Responding Store) := { freshHost config with client := begun }
  have plain : introducing.client.Plain := introduced.plain
  cases document? with
  | none =>
    obtain ⟨client, asked, sends, nextId⟩ :=
      askCall_sent config plain second method params (.nth 1)
    exact ⟨client, asked, introduced.append sends, nextId⟩
  | some document =>
    let opens : Call := .didOpen document.uri document.languageId 1 document.text
    have notified : notify opens (hosted config introducing) = _ := notify_hosted plain opens
    have told := introduced.append (plain.notify opens).2
    let telling : Host (Responding Store) :=
      { introducing with client := introducing.client.enqueued opens.toNotification }
    have open' : telling.client.Plain := told.plain
    obtain ⟨client, asked, sends, nextId⟩ :=
      askCall_sent config open' second method params (.nth 1)
    exact ⟨client, (andThen_ok notified).trans asked, told.append sends, nextId⟩

/-! ## Awaiting -/

/-- What an outcome is to somebody who awaits it in a context. -/
def awaited (context : String) (outcome : Outcome) : Except Break Value :=
  outcome.mapError fun error => .failed ⟨[context], .session (.peer error)⟩

variable {script : List Message} {handle : Id} {outcome : Outcome}

variable (config) in
private theorem await_hosted (arrives : Arrives handlers {} codec script)
    (works : host.Works handlers {} codec script)
    (answered : (handle, outcome) ∈ handlers.answers {} script) (context : String) :
    ∃ later, within context (await handle) (hosted config host) =
        (awaited context outcome, hosted config later) ∧
      later.Works handlers {} codec script ∧ later.client.nextId = host.client.nextId := by
  obtain ⟨later, found, worksOn, nextId⟩ := awaitResult_hosted config arrives works answered
  have awaits : await handle (hosted config host) = _ := andThen_ok found
  refine ⟨later, ?_, worksOn, nextId⟩
  rw [within, awaits]
  cases outcome <;> rfl

/-- Shutting down takes short messages, whatever the codec is. -/
theorem shutdown_short (codec : Codec) {number : Nat} (early : number = 2 ∨ number = 3) :
    (codec.encode (Call.shutdown.toRequest (.nth number))).length ≤ Codec.maxUnitLength ∧
      (codec.replyUnit (.nth number, .ok .null)).length ≤ Codec.maxUnitLength := by
  obtain rfl | rfl := early <;> obtain ⟨_ | _, _ | _⟩ := codec <;> exact ⟨by decide, by decide⟩

private theorem readsAs_shutdown (codec : Codec) {number : Nat} (early : number = 2 ∨ number = 3) :
    codec.ReadsAs id [Call.shutdown.toRequest (.nth number)] where
  reads message member := by
    obtain rfl := List.mem_singleton.mp member
    have params : Value.null.Within 1 := Value.within_null
    refine (Message.settled_request (.nth number) _ params).decode (by decide) ?_
    refine ⟨(shutdown_short codec early).1, fun _ => ?_⟩
    obtain rfl | rfl := early <;> exact List.forall_mem_nil _
  asks _ _ {_ _ params} same := ⟨params, same⟩

variable (config) in
/-- Nothing refuses to shut down, and then the client is closed. -/
theorem shutdown_hosted (works : host.Works handlers {} codec script) {number : Nat}
    (early : number = 2 ∨ number = 3) (next : host.client.nextId = Int64.ofNat number)
    (short : ∀ answer ∈ handlers.answers {} script,
      (codec.replyUnit answer).length ≤ Codec.maxUnitLength)
    (distinct : ((handlers.answers {} script).map (·.1) ++ [Id.nth number]).Nodup) :
    (shutdown (hosted config host)).1 = .ok () := by
  have plain : host.client.Plain := by
    obtain ⟨_, _, _, _, midway⟩ := works.answering
    exact midway.plain
  have late : Call.shutdown.method = Methods.handshake → host.client.phase = .uninitialized := nofun
  obtain ⟨client, requested, sends, -, -⟩ := plain.request late
  have id : Id.number host.client.nextId = .nth number := congrArg Id.number next
  rw [id] at requested sends
  obtain ⟨told, silent, further⟩ := works.send sends (readsAs_shutdown codec early)
  have answers : handlers.answers {} (script ++ told ++ [Call.shutdown.toRequest (.nth number)]) =
      handlers.answers {} script ++ [(.nth number, .ok .null)] := by
    rw [List.append_assoc, Handlers.answers_append, Handlers.answers_append,
      Handlers.answers_silent _ silent]
    rfl
  have arrives : Arrives handlers {} codec
      (script ++ told ++ [Call.shutdown.toRequest (.nth number)]) := by
    refine Document.arrives ?_ ?_
    · rw [answers]
      exact List.forall_mem_append.mpr
        ⟨short, List.forall_mem_singleton.mpr (shutdown_short codec early).2⟩
    · rw [answers, List.map_append]
      exact distinct
  have answered : (.nth number, .ok .null) ∈
      handlers.answers {} (script ++ told ++ [Call.shutdown.toRequest (.nth number)]) := by
    rw [answers]
    exact List.mem_append_right _ List.mem_cons_self
  obtain ⟨later, found, -, -⟩ := awaitResult_hosted config arrives further answered
  have begun : onClient Client.beginShutdown (hosted config host) =
      (.ok ⟨.nth number, none⟩, hosted config { host with client }) := by
    rw [onClient_hosted, Client.beginShutdown, requested]
    rfl
  rw [shutdown, andThen_ok begun, andThen_ok found, onClient_hosted]
  rfl

variable (config) in
private theorem awaitCall_hosted (works : host.Works handlers {} codec script)
    (answers : handlers.answers {} script = callAnswers process codec method params document?)
    (callFits : CallFits process codec method params document?)
    (next : host.client.nextId = Int64.ofNat (nextNumber method)) :
    (awaitCall method (.nth 1) (pending? method) (hosted config host)).1 =
      awaited (method ++ " failed") (callOutcome process codec method params document?) := by
  have short := callFits.short
  have distinct := @callAnswers_distinct process method params document? codec
  have answered : (callId method, callOutcome process codec method params document?) ∈
      callAnswers process codec method params document? :=
    List.mem_append_right _ List.mem_cons_self
  have introduced (other : method ≠ Methods.handshake) : (Id.nth 1, .ok Document.introduction) ∈
      callAnswers process codec method params document? := by
    rw [callAnswers, if_neg other]
    exact List.mem_cons_self
  rw [← answers] at short distinct answered introduced
  have arrives : Arrives handlers {} codec script :=
    Document.arrives short (List.nodup_append.mp distinct).1
  let ending (result : Value) : Talk Value := do
    within "shutdown failed" shutdown
    return result
  have shows {host : Host (Responding Store)} (works : host.Works handlers {} codec script)
      (next : host.client.nextId = Int64.ofNat (nextNumber method)) (context : String) :
      ((within context (await (callId method)) >>= ending) (hosted config host)).1 =
        awaited context (callOutcome process codec method params document?) := by
    obtain ⟨later, found, worksOn, nextId⟩ := await_hosted config arrives works answered context
    cases come : callOutcome process codec method params document? with
    | error error =>
      rw [come] at found
      exact andThen_broken (congrArg Prod.fst found)
    | ok result =>
      rw [come] at found
      have done := shutdown_hosted config worksOn (nextNumber_early method) (nextId.trans next)
        short distinct
      rw [andThen_ok found]
      have well : within "shutdown failed" shutdown (hosted config later) =
          (.ok (), (shutdown (hosted config later)).2) := by
        unfold within
        generalize shutdown (hosted config later) = ended at done ⊢
        obtain ⟨_, after⟩ := ended
        cases done
        rfl
      exact congrArg Prod.fst (andThen_ok well)
  unfold awaitCall pending?
  unfold callId at shows
  by_cases initial : method = Methods.handshake
  · rw [if_pos initial] at shows ⊢
    subst initial
    exact shows works next "initialize failed"
  · rw [if_neg initial] at shows ⊢
    obtain ⟨later, found, worksOn, nextId⟩ :=
      await_hosted config arrives works (introduced initial) "initialize failed"
    rw [andThen_ok found]
    exact shows worksOn (nextId.trans next) _

private theorem callTalk_opening (callFits : CallFits process config.codec method params document?)
    (wellFormed : params.WellFormed) :
    (callTalk process method params document? (opening config)).1 =
      awaited (method ++ " failed") (callOutcome process config.codec method params document?) := by
  obtain ⟨client, talked, sends, next⟩ := callTalk_sent config process method params document?
  have works := works_sent sends (Codec.readsAs_asRead (callFits.fits wellFormed))
  rw [talked]
  exact awaitCall_hosted config works answers_callMessages callFits next

end Talk

/-! ## The command -/

/-- The words ask for a call of the method with the params, with the document opened before, under
the configuration. -/
def AsksCall (files : Files) (words : List String) (config : Config) (method : String)
    (params : Value) (document? : Option OpenedDocument) : Prop :=
  ∃ arguments asked, parse words = .ok arguments ∧ arguments.command = .call asked ∧
    readConfig files arguments = .ok config ∧ asked.method = method ∧
    callParams asked.params? = .ok params ∧ callDocument files asked = .ok document?

/-- What a call reports when its request comes to an error of the core. -/
def refusal (method : String) (error : ResponseError) : String :=
  "error: " ++ (method ++ " failed") ++ "\n" ++
    ("  caused by: " ++ ("peer error: " ++ error.display) ++ "\n") ++
    ("  caused by: " ++ error.display ++ "\n")

private theorem report_refused (method : String) (error : ResponseError) :
    (Failure.mk [method ++ " failed"] (.session (.peer error))).report = refusal method error := by
  have joined (first second : String) : String.join [first, second] = first ++ second := by
    rw [String.join_cons, String.join_cons, String.join_nil, String.append_empty]
  rw [refusal, String.append_assoc, ← joined]
  rfl

private theorem callParams_wellFormed {params? : Option String} {params : Value}
    (read : callParams params? = .ok params) : params.WellFormed := by
  cases params? with
  | none =>
    cases read
    exact (Value.within_null : Value.null.Within 0).wellFormed
  | some text =>
    unfold callParams inContext Json.parse at read
    cases decoded : Json.decode (Text.Utf8.ofString text) with
    | error fault =>
      simp only [decoded] at read
      cases read
    | ok value =>
      simp only [decoded] at read
      cases read
      exact (Json.decode_within decoded).wellFormed

variable {files : Files} {words : List String} {config : Config}

/-- A call comes to what is done in its conversation. -/
theorem execute_call (asks : AsksCall files words config method params document?)
    (fits : CallFits process config.codec method params document?) :
    ∃ arguments, parse words = .ok arguments ∧ execute files arguments process =
      (Talk.awaited (method ++ " failed")
        (callOutcome process config.codec method params document?)).map
          fun result => Json.indented result ++ "\n" := by
  obtain ⟨arguments, asked, parsed, command, configured, rfl, read, opened⟩ := asks
  have wellFormed := callParams_wellFormed read
  refine ⟨arguments, parsed, ?_⟩
  rw [execute, configured]
  simp only [Except.mapError, bind, Except.bind, command]
  rw [call, read, opened, ← Talk.callTalk_opening fits wellFormed,
    ← Talk.converse_composed config (Talk.composed_callTalk process _ _ _)]
  rfl

private theorem run_asked (asks : AsksCall files words config method params document?)
    (fits : CallFits process config.codec method params document?) :
    (∀ result, callOutcome process config.codec method params document? = .ok result →
      run files words process = .finished 0 (Json.indented result ++ "\n") "") ∧
    (∀ error, callOutcome process config.codec method params document? = .error error →
      run files words process = .finished 2 "" (refusal method error)) := by
  obtain ⟨arguments, parsed, executed⟩ := execute_call asks fits
  constructor
  · intro result come
    rw [run, parsed]
    dsimp only
    rw [executed, come]
    rfl
  · intro error come
    rw [run, parsed]
    dsimp only
    rw [executed, come]
    exact congrArg (Report.finished 2 "") (report_refused method error)

/-- A call shows what the core comes to by itself, with the params as the codec reads them: a result
is printed, and an error of the core is reported with its text and the exit code for it. In either
case the session ends well, with its client closed and nothing left open. A timeout in the
configuration makes no difference, for time passes only while nothing can move. -/
theorem run_call (asks : AsksCall files words config method params document?)
    (fits : CallFits process config.codec method params document?) :
    (∀ result, callOutcome process config.codec method params document? = .ok result →
      run files words process = .finished 0 (Json.indented result ++ "\n") "") ∧
    (∀ error, callOutcome process config.codec method params document? = .error error →
      run files words process = .finished 2 "" (refusal method error)) ∧
    Talk.Over config (Talk.ending config (callTalk process method params document?)) :=
  ⟨(run_asked asks fits).1, (run_asked asks fits).2,
    Talk.over_ending config (Talk.composed_callTalk process method params document?)⟩

/-- The first call asks about a word in a document that it opens, the second one is a handshake with
params that do not read. -/
theorem run_call_words :
    let files := Files.ofRead [("a", .ok (Text.Utf8.ofString "to be"))]
    let question := "\x7b\"textDocument\":\x7b\"uri\":\"file://a\"\x7d," ++
      "\"position\":\x7b\"line\":0,\"character\":1\x7d\x7d"
    run files ["call", "textDocument/hover", "-p", question, "--open", "a"] 4096 =
      .finished 0 (Json.indented (Document.hoverAnswer "to be" ⟨0, 1⟩) ++ "\n") "" ∧
    run files ["call", "initialize", "-p", "0"] 4096 =
      .finished 2 "" (refusal "initialize"
        (.invalidParams "invalid type: integer `0`, expected struct Initialize")) := by
  intro files question
  let opened : OpenedDocument := ⟨"file://a", "plaintext", "to be"⟩
  let params : Value := .object [
    ("position", .object [("character", .ofNat 1), ("line", .ofNat 0)]),
    ("textDocument", .object [("uri", .string "file://a")])]
  have asksHover : AsksCall files ["call", "textDocument/hover", "-p", question, "--open", "a"]
      Config.default "textDocument/hover" params (some opened) := by
    unfold question
    exact ⟨_, ⟨"textDocument/hover", some _, some "a", "plaintext"⟩, rfl, rfl, rfl, rfl, rfl, rfl⟩
  have asksHandshake : AsksCall files ["call", "initialize", "-p", "0"] Config.default
      "initialize" (.ofNat 0) none :=
    ⟨_, ⟨"initialize", some "0", none, "plaintext"⟩, rfl, rfl, rfl, rfl, rfl, rfl⟩
  have hoverFits :
      CallFits 4096 Config.default.codec "textDocument/hover" params (some opened) := by
    unfold params opened
    exact ⟨by decide +kernel, by decide +kernel⟩
  have handshakeFits : CallFits 4096 Config.default.codec "initialize" (.ofNat 0) none :=
    ⟨by decide +kernel, by decide +kernel⟩
  exact ⟨(run_call asksHover hoverFits).1 _ rfl, (run_call asksHandshake handshakeFits).2.1 _ rfl⟩

/-- The core may name a double of the params in its error. JSON reads some doubles as their
neighbours, so what a call reports is not always what the core comes to on the params themselves. -/
theorem not_forall_call_unread :
    ¬ ∀ files words process (config : Config) method params document?, config.timeout? = none →
      AsksCall files words config method params document? →
      CallFits process config.codec method params document? →
      ∀ error, coreOutcome process method params document? = .error error →
      ∃ before behind,
        run files words process = .finished 2 "" (before ++ error.display ++ behind) := by
  intro unread
  let params : Value := .number (.double ⟨4247835366853742248, by decide⟩)
  let words := ["call", "textDocument/hover", "-p", "1e-24"]
  let told (number : String) : ResponseError := .invalidParams
    ("invalid type: floating point `" ++ number ++ "`, expected struct PositionParams")
  have asks : AsksCall (Files.ofRead []) words Config.default "textDocument/hover" params none :=
    ⟨_, ⟨"textDocument/hover", some "1e-24", none, "plaintext"⟩, rfl, rfl, rfl, rfl, rfl, rfl⟩
  have fits : CallFits 4096 Config.default.codec "textDocument/hover" params none := by
    unfold params
    exact ⟨by decide +kernel, by decide +kernel⟩
  have here : coreOutcome 4096 "textDocument/hover" params none =
      .error (told "1.0000000000000001e-24") := rfl
  have reread : callOutcome 4096 Config.default.codec "textDocument/hover" params none =
      .error (told "1e-24") := rfl
  obtain ⟨before, behind, reports⟩ := unread _ _ _ _ _ _ _ rfl asks fits _ here
  have same := (Report.finished.inj (((run_asked asks fits).2 _ reread).symm.trans reports)).2.2
  have point : '.' ∈ (told "1.0000000000000001e-24").display.toList := by
    unfold told
    decide +kernel
  have reported : '.' ∈ (refusal "textDocument/hover" (told "1e-24")).toList := by
    rw [same, String.toList_append, String.toList_append]
    exact List.mem_append_left _ (List.mem_append_right _ point)
  revert reported
  unfold told refusal
  simp only [String.toList_append]
  decide +kernel

end Cli

end Airlock
