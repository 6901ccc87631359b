import Airlock.Cli.Run
import Airlock.Proofs.Cli.Conversing
import Airlock.Proofs.Json.Lines
import Airlock.Proofs.Script.Exchange

/-!
# Replays

A replay sends all entries of its script before it awaits anything, so everything is queued when the
host begins to move. The first handle that is awaited brings all answers home, and each handle finds
its own. So what a replay shows is what the core comes to by itself.
-/

set_option autoImplicit false

namespace Airlock.Cli

open Script (Entry messages requests asked rows handshakes)

namespace Talk

variable {α β : Type}

/-! ## Conversations in progress -/

/-- A conversation over a host that is running, with nothing ended yet. -/
def hosted (config : Config) (host : Host (Responding Document.Store)) : Conversation :=
  { session := ⟨config, .running host⟩, progress := {} }

theorem andThen_ok {first : Talk α} {next : α → Talk β} {a : α} {before after : Conversation}
    (done : first before = (.ok a, after)) : (first >>= next) before = next a after := by
  show Talk.bind first next before = _
  rw [Talk.bind, done]

theorem andThen_broken {first : Talk α} {next : α → Talk β} {broken : Break}
    {before : Conversation} (breaks : (first before).1 = .error broken) :
    ((first >>= next) before).1 = .error broken := by
  show (Talk.bind first next before).1 = _
  rw [Talk.bind]
  generalize first before = result at breaks
  obtain ⟨_, after⟩ := result
  cases breaks
  rfl

variable {config : Config} {host : Host (Responding Document.Store)}

theorem onClient_hosted (call : Client → Except Error α × Client) :
    onClient call (hosted config host) =
      ((call host.client).1.mapError fun error => .failed ⟨[], .session error⟩,
        hosted config { host with client := (call host.client).2 }) := by
  have here : (hosted config host).session.host? = some host := rfl
  rw [onClient, here]
  dsimp only
  rcases call host.client with ⟨result | result, client⟩ <;> rfl

/-! ## Sending -/

/-- How many handshakes a client was asked for, as long as none failed. -/
def begun (client : Client) : Nat :=
  if client.phase = .uninitialized then 0 else 1

private theorem begun_eq_zero {client : Client} :
    begun client = 0 ↔ client.phase = .uninitialized := by
  rw [begun]
  split
  next early => exact ⟨fun _ => early, fun _ => rfl⟩
  next late => exact ⟨nofun, fun early => absurd early late⟩

theorem notify_hosted (plain : host.client.Plain) (call : Call) :
    notify call (hosted config host) =
      (.ok (), hosted config { host with client := host.client.enqueued call.toNotification }) := by
  rw [notify, onClient_hosted, (plain.notify call).1]
  rfl

variable (config) in
/-- A request goes out unless it is a second handshake, which counts as begun from then on. -/
theorem request_hosted (plain : host.client.Plain) {number : Nat}
    (next : host.client.nextId = Int64.ofNat number) {call : Call}
    (first : call.method = Methods.handshake → host.client.phase = .uninitialized) :
    ∃ client, request call (hosted config host) =
        (.ok (.nth number), hosted config { host with client }) ∧
      host.client.Sends client [call.toRequest (.nth number)] ∧
      client.nextId = Int64.ofNat (number + 1) ∧
      begun client = begun host.client + if call.method = Methods.handshake then 1 else 0 := by
  obtain ⟨client, accepted, sends, nextId, phase⟩ := plain.request first
  have id : Id.number host.client.nextId = .nth number := congrArg Id.number next
  rw [id] at accepted sends
  refine ⟨client, ?_, sends, ?_, ?_⟩
  · rw [request, onClient_hosted, accepted]
    rfl
  · rw [nextId, next, Int64.ofNat_add]
    rfl
  · rw [begun, phase, begun]
    split
    next handshake => rw [first handshake]; rfl
    next => rfl

private theorem sendAll_hosted {entries : List Entry} {number : Nat} (plain : host.client.Plain)
    (next : host.client.nextId = Int64.ofNat number)
    (once : begun host.client + handshakes entries ≤ 1) :
    ∃ client, sendAll entries (hosted config host) =
        (.ok (asked number entries), hosted config { host with client }) ∧
      host.client.Sends client (messages number entries) := by
  induction entries generalizing host number with
  | nil => exact ⟨host.client, rfl, plain.sends_nil⟩
  | cons entry rest ih =>
    let call : Call := ⟨entry.method, entry.params⟩
    rw [sendAll]
    cases notify : entry.notify with
    | true =>
      let between : Host (Responding Document.Store) :=
        { host with client := host.client.enqueued call.toNotification }
      have sends : host.client.Sends between.client _ := (plain.notify call).2
      rw [Script.handshakes_notified notify] at once
      obtain ⟨client, further, later⟩ := ih sends.plain next once
      refine ⟨client, ?_, ?_⟩
      · rw [if_pos rfl, andThen_ok (notify_hosted plain call), Script.asked_notified notify]
        exact further
      · rw [Script.messages_notified notify]
        exact sends.append later
    | false =>
      rw [Script.handshakes_requested notify] at once
      have first : call.method = Methods.handshake → host.client.phase = .uninitialized := by
        intro handshake
        rw [if_pos handshake] at once
        exact begun_eq_zero.mp (by omega)
      obtain ⟨middle, accepted, sends, nextId, began⟩ := request_hosted config plain next first
      let between : Host (Responding Document.Store) := { host with client := middle }
      have onceStill : begun between.client + handshakes rest ≤ 1 := by
        rw [began, Nat.add_assoc]
        exact once
      obtain ⟨client, further, later⟩ := ih sends.plain nextId onceStill
      refine ⟨client, ?_, ?_⟩
      · rw [if_neg (by nofun), andThen_ok accepted, andThen_ok further,
          Script.asked_requested notify]
        rfl
      · rw [Script.messages_requested notify]
        exact sends.append later

/-- The second handshake is refused, and nothing of the script is awaited. -/
theorem sendAll_twice {entries : List Entry} {number : Nat} (plain : host.client.Plain)
    (next : host.client.nextId = Int64.ofNat number)
    (twice : 2 ≤ begun host.client + handshakes entries) :
    (sendAll entries (hosted config host)).1 =
      .error (.failed ⟨[], .session (.invalidState "initialize was already sent")⟩) := by
  induction entries generalizing host number with
  | nil =>
    have few : begun host.client ≤ 1 := by
      rw [begun]
      split <;> decide
    exact absurd twice (Nat.not_le.mpr (Nat.lt_succ_of_le few))
  | cons entry rest ih =>
    let call : Call := ⟨entry.method, entry.params⟩
    rw [sendAll]
    cases notify : entry.notify with
    | true =>
      let between : Host (Responding Document.Store) :=
        { host with client := host.client.enqueued call.toNotification }
      have sent : between.client.Plain := (plain.notify call).2.plain
      rw [Script.handshakes_notified notify] at twice
      rw [if_pos rfl, andThen_ok (notify_hosted plain call)]
      exact ih sent next twice
    | false =>
      rw [Script.handshakes_requested notify] at twice
      rw [if_neg (by nofun)]
      by_cases first : call.method = Methods.handshake → host.client.phase = .uninitialized
      · obtain ⟨middle, accepted, sends, nextId, began⟩ := request_hosted config plain next first
        let between : Host (Responding Document.Store) := { host with client := middle }
        have twiceStill : 2 ≤ begun between.client + handshakes rest := by
          rw [began, Nat.add_assoc]
          exact twice
        rw [andThen_ok accepted]
        exact andThen_broken (ih sends.plain nextId twiceStill)
      · obtain ⟨again, late⟩ := Classical.not_imp.mp first
        have refused := plain.request_again again late
        apply andThen_broken
        rw [Talk.request, onClient_hosted, refused]
        rfl

/-! ## Awaiting -/

private theorem lookup_of_mem {pairs : List (Id × Outcome)} (distinct : (pairs.map (·.1)).Nodup)
    {id : Id}
    {outcome : Outcome} (member : (id, outcome) ∈ pairs) : pairs.lookup id = some outcome := by
  obtain ⟨before, behind, rfl⟩ := List.append_of_mem member
  rw [List.map_append, List.nodup_append] at distinct
  refine List.lookup_eq_some_iff.mpr ⟨before, behind, rfl, ?_⟩
  intro other early
  rw [bne_iff_ne]
  exact (distinct.2.2 other.1 (List.mem_map_of_mem early) id List.mem_cons_self).symm

variable {codec : Codec} {script : List Message}

/-- Stated of any function, for of the run of a host it would be checked by running it. -/
theorem goOn_hosted
    (advance : Host (Responding Document.Store) → Progress →
      Bool × Progress × Host (Responding Document.Store)) (progress : Progress) :
    (hosted config host).session.goOn advance progress =
      ((advance host progress).1, (advance host progress).2.1,
        (hosted config (advance host progress).2.2).session) := rfl

private theorem settle_hosted {moved : Bool} {later : Host (Responding Document.Store)}
    (ran : host.run {} = (moved, {}, later)) :
    settle (hosted config host) = (.ok (), hosted config later) := by
  have fresh : (hosted config host).progress = {} := rfl
  rw [settle, goOn_hosted, fresh, ran]
  rfl

private theorem poll_hosted {id : Id} {result : Except Error Value}
    (found : host.client.result? id = some result) :
    poll ⟨id, none⟩ (hosted config host) =
      (.ok (.ready result, ⟨id, none⟩), hosted config host) := by
  have polled : host.client.pollAwaited (hosted config host).now ⟨id, none⟩ =
      (.ready result, ⟨id, none⟩, host.client) := by
    rw [Client.pollAwaited, found]
  rw [poll, onClient_hosted]
  dsimp only
  rw [polled]
  rfl

variable (config) in
/-- Whichever handle is awaited, all answers come home, and its own is found. -/
theorem awaitResult_hosted (arrives : Arrives Document.handlers {} codec script)
    (works : host.Works Document.handlers {} codec script) {id : Id} {outcome : Outcome}
    (answered : (id, outcome) ∈ Document.handlers.answers {} script) :
    ∃ later, awaitResult ⟨id, none⟩ (hosted config host) =
        (.ok (Client.result outcome), hosted config later) ∧
      later.Works Document.handlers {} codec script ∧
      later.client.nextId = host.client.nextId := by
  obtain ⟨moved, later, ran, worksOn, nextId, delivered⟩ := works.run arrives
  have distinct := List.nodup_reverse.mpr arrives.distinct
  rw [← List.map_reverse, ← delivered] at distinct
  have member : (id, outcome) ∈ later.client.delivered := by
    rw [delivered]
    exact List.mem_reverse.mpr answered
  have found : later.client.result? id = some (Client.result outcome) := by
    rw [Client.result?, lookup_of_mem distinct member]
    cases outcome <;> rfl
  refine ⟨later, ?_, worksOn, nextId⟩
  rw [awaitResult, andThen_ok (settle_hosted ran), andThen_ok (poll_hosted found)]
  rfl

private theorem awaitAll_hosted (arrives : Arrives Document.handlers {} codec script)
    {shown : List Script.Row}
    (answered : ∀ row ∈ shown, (row.id, row.outcome) ∈ Document.handlers.answers {} script)
    (works : host.Works Document.handlers {} codec script) :
    (awaitAll (shown.map fun row => (row.method, row.id)) (hosted config host)).1 =
      .ok (shown.map fun row => replayLine row.method row.id row.outcome) := by
  induction shown generalizing host with
  | nil => rfl
  | cons row rest ih =>
    obtain ⟨method, id, outcome⟩ := row
    obtain ⟨here, further⟩ := List.forall_mem_cons.mp answered
    obtain ⟨later, awaited, worksOn, -⟩ := awaitResult_hosted config arrives works here
    have shows := ih further worksOn
    rw [List.map_cons, awaitAll, andThen_ok awaited]
    generalize awaitAll (rest.map fun row => (row.method, row.id)) = others at shows ⊢
    have line : ((do return replayLine method id outcome :: (← others)) : Talk (List Value))
        (hosted config later) = (.ok _, (others (hosted config later)).2) :=
      andThen_ok (Prod.ext shows rfl)
    cases outcome <;> exact congrArg Prod.fst line

/-! ## Whole replays -/

/-- The host of a conversation at its beginning. -/
def freshHost (config : Config) : Host (Responding Document.Store) :=
  ((Hosting.create Document.handlers.peer { core := {} } config).act .start).host

theorem opening_eq (config : Config) : opening config = hosted config (freshHost config) := rfl

theorem plain_fresh (config : Config) : (freshHost config).client.Plain where
  hooks := rfl
  live := by nofun
  queue := rfl
  sink := rfl
  whole := rfl
  room := Nat.le_max_right _ 1
  table := rfl

private theorem midway_fresh (config : Config) :
    Midway Document.handlers {} config.codec [] (freshHost config).state (freshHost config).client
      [] [] [] [] where
  plain := plain_fresh config
  spoken := rfl
  sent := ⟨[], rfl, List.forall_mem_nil _⟩
  queue := rfl
  state := rfl
  serving := nofun
  answers := rfl
  flow := rfl
  delivered := rfl
  waiting := nofun

/-- A fresh host to which messages were sent is midway through them. -/
theorem works_sent {client : Client} {asRead : Message → Message} {sent : List Message}
    (sends : (freshHost config).client.Sends client sent)
    (readsAs : config.codec.ReadsAs asRead sent) :
    ({ freshHost config with client } : Host (Responding Document.Store)).Works
      Document.handlers {} config.codec (sent.map asRead) := by
  obtain ⟨told, none, -, midway⟩ := (midway_fresh config).send sends readsAs
  obtain rfl : told = [] := none.symm
  exact ⟨rfl, rfl, _, _, _, _, midway⟩

private theorem replayTalk_once {entries : List Entry} (within : ∀ entry ∈ entries, entry.Within)
    (few : (requests entries).length < 0x8000000000000000)
    (conveyed : Script.Conveyed config.codec entries) (once : handshakes entries ≤ 1) :
    (replayTalk entries (opening config)).1 =
      .ok ((rows Document.handlers {} 1 entries).map fun row =>
        replayLine row.method row.id row.outcome) := by
  have early : begun (freshHost config).client + handshakes entries ≤ 1 := by
    rw [begun_eq_zero.mpr rfl, Nat.zero_add]
    exact once
  obtain ⟨client, sent, sends⟩ := sendAll_hosted (plain_fresh config) rfl early
  have shown : (rows Document.handlers {} 1 entries).map (fun row => (row.method, row.id)) =
      asked 1 entries := Script.asked_rows _ _ _
  have works := works_sent sends (conveyed.readsAs within)
  rw [List.map_id] at works
  rw [opening_eq, replayTalk, andThen_ok sent, ← shown]
  refine awaitAll_hosted (conveyed.arrives few) ?_ works
  intro row member
  rw [Script.answers_messages]
  exact List.mem_map_of_mem member

private theorem replayTalk_twice {entries : List Entry} (twice : 2 ≤ handshakes entries) :
    (replayTalk entries (opening config)).1 =
      .error (.failed ⟨[], .session (.invalidState "initialize was already sent")⟩) :=
  andThen_broken (sendAll_twice (plain_fresh config) rfl (Nat.le_trans twice (Nat.le_add_left _ _)))

end Talk

/-! ## The command -/

/-- What a replay shows of a row. -/
def lineOf (row : Script.Row) : Value :=
  replayLine row.method row.id row.outcome

/-- What a replay prints. -/
def printed (shown : List Script.Row) : String :=
  String.join (shown.map fun row => Json.compact (lineOf row) ++ "\n")

/-- The words ask for the replay of a script, which reads as the entries, under the
configuration. -/
def AsksReplay (files : Files) (words : List String) (config : Config) (entries : List Entry) :
    Prop :=
  ∃ arguments path text, parse words = .ok arguments ∧ arguments.command = .replay path ∧
    readConfig files arguments = .ok config ∧ files.readText path = .ok text ∧
    Script.parse text.toList = .ok entries

private theorem lines_printed (shown : List Script.Row) :
    Text.lines (printed shown).toList = shown.map fun row => Json.text (lineOf row) := by
  have texts : (printed shown).toList =
      (shown.map fun row => Json.text (lineOf row)).flatMap fun text => text ++ ['\n'] := by
    rw [printed, String.toList_join, List.flatMap_map, List.flatMap_map]
    refine congrArg (List.flatMap · shown) (funext fun row => ?_)
    rw [String.toList_append, Json.compact, String.toList_ofList]
    rfl
  rw [texts]
  refine Text.lines_clean (List.forall_mem_map.mpr fun row _ => ?_)
  exact Json.text_clean _

variable {files : Files} {words : List String} {process : UInt32} {config : Config}
  {entries : List Entry}

private theorem readText_ofString {path text : String}
    (holds : files path = .ok (Text.Utf8.ofString text)) : files.readText path = .ok text := by
  rw [Files.readText, holds]
  simp only [bind, Except.bind, Text.Utf8.toString?_ofString]
  rfl

/-- A replay comes to what is done in its conversation. -/
theorem execute_replay (asks : AsksReplay files words config entries) :
    ∃ arguments, parse words = .ok arguments ∧ execute files arguments process =
      (replayTalk entries (Talk.opening config)).1.map fun lines =>
        String.join (lines.map fun line => Json.compact line ++ "\n") := by
  obtain ⟨arguments, path, text, parsed, command, configured, read, script⟩ := asks
  have scripted : readScript files path = .ok entries := by
    rw [readScript, read, inContext]
    show inContext _ _ (Script.parse text.toList) = _
    rw [script]
    rfl
  refine ⟨arguments, parsed, ?_⟩
  rw [execute, configured]
  simp only [Except.mapError, bind, Except.bind, command]
  rw [replay, scripted, ← Talk.converse_composed config (Talk.composed_replayTalk entries)]
  rfl

/-- A replay prints one line for each request of its script, in their order and numbered from one,
with what the document core comes to when it handles the entries one after the other, be that a
result or an error. With two requests for the handshake it fails and prints nothing. The numbers are
64-bit integers with a sign, and no text that fits into memory asks for more of them. A timeout in
the configuration makes no difference, for time passes only while nothing can move. -/
theorem run_replay (asks : AsksReplay files words config entries) :
    (handshakes entries ≤ 1 → (requests entries).length < 0x8000000000000000 →
      Script.Conveyed config.codec entries →
      let shown := rows Document.handlers {} 1 entries
      run files words process = .finished 0 (printed shown) "" ∧
      Text.lines (printed shown).toList = shown.map (fun row => Json.text (lineOf row)) ∧
      shown.map (fun row => (row.method, row.id)) = asked 1 entries) ∧
    (2 ≤ handshakes entries →
      run files words process =
        .finished 1 "" "error: invalid state: initialize was already sent\n") := by
  have within : ∀ entry ∈ entries, entry.Within := by
    obtain ⟨_, _, text, -, -, -, -, script⟩ := asks
    exact Script.parse_within script
  obtain ⟨arguments, parsed, executed⟩ := execute_replay asks
  refine ⟨?_, ?_⟩
  · intro once few conveyed
    refine ⟨?_, lines_printed _, Script.asked_rows _ _ _⟩
    rw [run, parsed]
    dsimp only
    rw [executed, Talk.replayTalk_once within few conveyed once, Except.map, List.map_map]
    rfl
  · intro twice
    rw [run, parsed]
    dsimp only
    rw [executed, Talk.replayTalk_twice twice]
    rfl

/-- Of three entries the second one is a notification, and no method but that of the first one has a
handler. A script with two requests for the handshake fails. -/
theorem run_replay_scripts :
    let first := "[\"initialize\",\x7b\x7d]\n# not answered\n[\"note\",[],true]\n\n[\"none\"]\n"
    let second := "[\"initialize\",\x7b\x7d]\n[\"initialize\",\x7b\x7d]\n"
    let files := Files.ofRead [("first", .ok (Text.Utf8.ofString first)),
      ("second", .ok (Text.Utf8.ofString second))]
    run files ["replay", "first"] 4096 = .finished 0 (printed [
      ⟨"initialize", .nth 1, .ok Document.introduction⟩,
      ⟨"none", .nth 2, .error (.methodNotFound "none")⟩]) "" ∧
    run files ["replay", "second"] 4096 =
      .finished 1 "" "error: invalid state: initialize was already sent\n" := by
  intro first second files
  have asksFirst : AsksReplay files ["replay", "first"] Config.default [
      ⟨"initialize", .object [], false⟩, ⟨"note", .array [], true⟩,
      ⟨"none", .null, false⟩] := by
    refine ⟨_, "first", first, rfl, rfl, rfl, readText_ofString rfl, ?_⟩
    unfold first
    rfl
  have asksSecond : AsksReplay files ["replay", "second"] Config.default
      [⟨"initialize", .object [], false⟩, ⟨"initialize", .object [], false⟩] := by
    refine ⟨_, "second", second, rfl, rfl, rfl, readText_ofString rfl, ?_⟩
    unfold second
    rfl
  have plain (message : Message) (none : message.toValue.doubles = [])
      (short : (Codec.default.encode message).length ≤ Codec.maxUnitLength) :
      Codec.default.Conveys message := by
    refine ⟨short, fun _ d inside => ?_⟩
    rw [none] at inside
    cases inside
  have conveyed : Script.Conveyed Config.default.codec [⟨"initialize", .object [], false⟩,
      ⟨"note", .array [], true⟩, ⟨"none", .null, false⟩] := by
    constructor
    · intro message member
      simp only [messages, Entry.message, List.mem_cons, List.not_mem_nil, or_false] at member
      obtain rfl | rfl | rfl := member <;> exact plain _ rfl (by decide)
    · have all : rows Document.handlers {} 1 [⟨"initialize", .object [], false⟩,
          ⟨"note", .array [], true⟩, ⟨"none", .null, false⟩] =
          [⟨"initialize", .nth 1, .ok Document.introduction⟩,
            ⟨"none", .nth 2, .error (.methodNotFound "none")⟩] := rfl
      rw [all]
      intro row member
      simp only [List.mem_cons, List.not_mem_nil, or_false] at member
      obtain rfl | rfl := member <;> exact plain _ rfl (by decide +kernel)
  exact ⟨((run_replay asksFirst).1 (by decide) (by decide) conveyed).1,
    (run_replay asksSecond).2 (by decide)⟩

end Airlock.Cli
