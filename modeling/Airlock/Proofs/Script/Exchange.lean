import Airlock.Proofs.Client.Numbering
import Airlock.Proofs.Document.Answers
import Airlock.Proofs.Script.Entries
import Airlock.Proofs.Session.Settling

/-!
# What a script comes to

The requests of a script are numbered in their order, and each of them makes a row: its method, its
number, and what handlers answer when they handle the entries one after the other. These are the
answers to the messages that the entries are sent as. Messages and answers arrive as they are, for
the params of an entry nest no deeper than JSON can, and so do the answers of the document core.
-/

set_option autoImplicit false

namespace Airlock

/-! ## Messages within the limits of a codec -/

/-- The unit of the message is not too long, and JSON reads each of its doubles as itself. -/
structure Codec.Conveys (codec : Codec) (message : Message) : Prop where
  short : (codec.encode message).length ≤ Codec.maxUnitLength
  back : codec.format = .json → ∀ d ∈ message.toValue.doubles, d.ReadsBack

theorem Message.Settled.decode {codec : Codec} {message : Message} {room : Nat}
    (settled : message.Settled room) (shallow : room ≤ Json.maxOpen)
    (conveys : codec.Conveys message) : codec.decode (codec.encode message) = .ok message := by
  have json : Json.maxOpen ≤ codec.format.maxNesting := by
    cases codec.format <;> decide
  have fits := Nat.le_trans (settled.mono shallow).shallow json
  rw [Codec.decode_encode_fits settled.wellFormed conveys.back conveys.short fits,
    settled.normalized]

private theorem Codec.conveys_handshakeDone (codec : Codec) :
    codec.Conveys Call.handshakeDone.toNotification := by
  constructor
  · obtain ⟨_ | _, _ | _⟩ := codec <;> decide
  · exact fun _ => List.forall_mem_nil _

/-- Answers of the document core arrive as they are when their units are not too long. -/
theorem Document.arrives {codec : Codec} {script : List Message}
    (short : ∀ answer ∈ handlers.answers {} script,
      (codec.replyUnit answer).length ≤ Codec.maxUnitLength)
    (distinct : ((handlers.answers {} script).map (·.1)).Nodup) :
    Arrives handlers {} codec script where
  announcement := by
    have params : (Value.object []).Within 1 := Value.within_object.mpr Members.within_nil
    exact (Message.settled_notification _ params).decode (by decide) codec.conveys_handshakeDone
  answers answer member := by
    obtain ⟨method, params, before, come⟩ := Handlers.outcome_of_answer member
    have exact : Outcome.Exact 6 answer.2 := come ▸ answer_exact method params before
    refine (exact.settled answer.1).decode (by decide) ⟨short answer member, fun _ d inside => ?_⟩
    rw [Message.doubles_response, exact.integral] at inside
    cases inside
  distinct

namespace Script

/-! ## Messages of entries -/

/-- The message that an entry is sent as, when a request takes the number. -/
def Entry.message (number : Nat) (entry : Entry) : Message :=
  if entry.notify then .notification entry.method entry.params
  else .request (.nth number) entry.method entry.params

/-- The messages of entries, of which the first request takes the number. -/
def messages (number : Nat) : List Entry → List Message
  | [] => []
  | entry :: rest =>
    entry.message number :: messages (if entry.notify then number else number + 1) rest

def requests (entries : List Entry) : List Entry :=
  entries.filter fun entry => !entry.notify

/-- The methods of the requests, with the numbers that they take. -/
def asked (number : Nat) (entries : List Entry) : List (String × Id) :=
  ((requests entries).zipIdx number).map fun (entry, number) => (entry.method, .nth number)

/-- How many of the entries ask for the handshake. -/
def handshakes (entries : List Entry) : Nat :=
  (requests entries).countP fun entry => entry.method = Methods.handshake

section

variable {entry : Entry} {rest : List Entry} {number : Nat}

theorem handshakes_notified (notified : entry.notify = true) :
    handshakes (entry :: rest) = handshakes rest := by
  rw [handshakes, requests, List.filter_cons_of_neg (by simp [notified])]
  rfl

theorem handshakes_requested (requested : entry.notify = false) :
    handshakes (entry :: rest) =
      (if entry.method = Methods.handshake then 1 else 0) + handshakes rest := by
  rw [handshakes, requests, List.filter_cons_of_pos (by simp [requested]), List.countP_cons,
    Nat.add_comm]
  simp only [decide_eq_true_eq]
  rfl

theorem asked_notified (notified : entry.notify = true) :
    asked number (entry :: rest) = asked number rest := by
  simp [asked, requests, notified]

theorem asked_requested (requested : entry.notify = false) :
    asked number (entry :: rest) = (entry.method, .nth number) :: asked (number + 1) rest := by
  simp [asked, requests, requested]

theorem messages_notified (notified : entry.notify = true) :
    messages number (entry :: rest) =
      (⟨entry.method, entry.params⟩ : Call).toNotification :: messages number rest := by
  simp [messages, Entry.message, Call.toNotification, notified]

theorem messages_requested (requested : entry.notify = false) :
    messages number (entry :: rest) =
      (⟨entry.method, entry.params⟩ : Call).toRequest (.nth number) ::
        messages (number + 1) rest := by
  simp [messages, Entry.message, Call.toRequest, requested]

end

/-- A request of a script that was answered. -/
structure Row where
  method : String
  id : Id
  outcome : Outcome

variable {σ : Type}

/-- The rows of entries that handlers handle one after the other. -/
def rows (handlers : Handlers σ) (core : σ) (number : Nat) : List Entry → List Row
  | [] => []
  | entry :: rest =>
    let (outcome, next) := handlers.answer entry.method entry.params core
    if entry.notify then rows handlers next number rest
    else ⟨entry.method, .nth number, outcome⟩ :: rows handlers next (number + 1) rest

variable {handlers : Handlers σ}

private theorem after_message (core : σ) (number : Nat) (entry : Entry) :
    handlers.after core [entry.message number] =
      (handlers.answer entry.method entry.params core).2 := by
  unfold Entry.message
  split
  · exact Handlers.after_notification core entry.method entry.params
  · rfl

/-- The rows hold the answers to the messages, each once. -/
theorem answers_messages (core : σ) (number : Nat) (entries : List Entry) :
    handlers.answers core (messages number entries) =
      (rows handlers core number entries).map fun row => (row.id, row.outcome) := by
  induction entries generalizing core number with
  | nil => rfl
  | cons entry rest ih =>
    rw [messages, Handlers.answers, ih, after_message, rows]
    cases notify : entry.notify <;> simp [Entry.message, notify, Handlers.reply?]

theorem asked_rows (core : σ) (number : Nat) (entries : List Entry) :
    (rows handlers core number entries).map (fun row => (row.method, row.id)) =
      asked number entries := by
  induction entries generalizing core number with
  | nil => rfl
  | cons entry rest ih =>
    rw [rows]
    cases notify : entry.notify with
    | true =>
      rw [asked_notified notify]
      exact ih _ _
    | false =>
      rw [asked_requested notify]
      exact congrArg (_ :: ·) (ih _ _)

/-- As long as the numbers do not wrap around, no two requests take the same one. -/
theorem asked_nodup {number : Nat} {entries : List Entry}
    (few : number + (requests entries).length ≤ 0x8000000000000000) :
    ((asked number entries).map (·.2)).Nodup := by
  have numbers : (asked number entries).map (·.2) =
      (List.range' number (requests entries).length).map Id.nth := by
    rw [asked, List.map_map, ← List.zipIdx_map_snd, List.map_map]
    rfl
  rw [numbers, List.Nodup, List.pairwise_map]
  refine List.Pairwise.imp_of_mem ?_ List.nodup_range'
  intro first second early late different
  have small {other : Nat} (member : other ∈ List.range' number (requests entries).length) :
      other < 0x8000000000000000 :=
    Nat.lt_of_lt_of_le (List.mem_range'_1.mp member).2 few
  exact fun same => different ((Id.nth_inj (small early) (small late)).mp same)

private theorem mem_messages {number : Nat} {entries : List Entry} {message : Message}
    (member : message ∈ messages number entries) :
    ∃ entry ∈ entries, ∃ other, message = entry.message other := by
  induction entries generalizing number with
  | nil => cases member
  | cons entry rest ih =>
    obtain rfl | behind := List.mem_cons.mp member
    · exact ⟨entry, List.mem_cons_self, number, rfl⟩
    · obtain ⟨found, inside, other, same⟩ := ih behind
      exact ⟨found, List.mem_cons_of_mem _ inside, other, same⟩

private theorem Entry.Within.settled {entry : Entry} (within : entry.Within) (number : Nat) :
    (entry.message number).Settled Json.maxOpen := by
  unfold Entry.message
  split
  · exact Message.settled_notification entry.method within
  · exact Message.settled_request (.nth number) entry.method within

/-! ## Scripts for the document core -/

/-- The messages of the entries and the answers of the document core are within the limits of the
codec. -/
structure Conveyed (codec : Codec) (entries : List Entry) : Prop where
  sent : ∀ message ∈ messages 1 entries, codec.Conveys message
  answered : ∀ row ∈ rows Document.handlers {} 1 entries,
    codec.Conveys (.response row.id row.outcome)

theorem Conveyed.readsAs {codec : Codec} {entries : List Entry} (conveyed : Conveyed codec entries)
    (within : ∀ entry ∈ entries, entry.Within) : codec.ReadsAs id (messages 1 entries) where
  reads message member := by
    obtain ⟨entry, inside, number, rfl⟩ := mem_messages member
    exact ((within entry inside).settled number).decode (Nat.le_refl _)
      (conveyed.sent _ member)
  asks _ _ {_ _ params} same := ⟨params, same⟩

theorem Conveyed.arrives {codec : Codec} {entries : List Entry} (conveyed : Conveyed codec entries)
    (few : (requests entries).length < 0x8000000000000000) :
    Arrives Document.handlers {} codec (messages 1 entries) := by
  refine Document.arrives ?_ ?_
  · intro answer member
    rw [answers_messages] at member
    obtain ⟨row, inside, rfl⟩ := List.mem_map.mp member
    exact (conveyed.answered row inside).short
  · have below : 1 + (requests entries).length ≤ 0x8000000000000000 := by omega
    have nodup := asked_nodup below
    rw [← asked_rows, List.map_map] at nodup
    rw [answers_messages, List.map_map]
    exact nodup

end Script

end Airlock
