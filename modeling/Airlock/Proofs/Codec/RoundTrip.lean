import Airlock.Codec.Basic
import Airlock.Proofs.Codec.Header
import Airlock.Proofs.Codec.Message
import Airlock.Proofs.Json.RoundTrip
import Airlock.Proofs.MessagePack.RoundTrip

/-!
# Messages written and read back

What a codec makes of its own units: the message again, unless the unit is too long or its value
nests too deep for the format, and then an error that tells which of the two it is.
-/

set_option autoImplicit false

namespace Airlock

def Format.maxNesting : Format → Nat
  | .json => Json.maxOpen
  | .messagePack => MessagePack.maxOpen

namespace Codec

/-! ## Payloads -/

/-- What a double becomes on its way through the format. -/
def rereadDouble : Format → Double → Double
  | .json => Double.reread
  | .messagePack => id

private theorem readPayload_writePayload_reread {format : Format} {value : Value}
    (wellFormed : value.WellFormed) (short : (writePayload format value).length < 0x100000000)
    (fits : value.nesting ≤ format.maxNesting) :
    readPayload format (writePayload format value) =
      .ok (value.mapDoubles (rereadDouble format)) := by
  cases format with
  | json =>
    simp only [readPayload, writePayload, Json.parse, Json.decode_encode_reread wellFormed fits]
    rfl
  | messagePack =>
    have same : value.mapDoubles (rereadDouble .messagePack) = value :=
      Value.mapDoubles_eq_self fun _ _ => rfl
    simp only [readPayload, writePayload, MessagePack.decode?_encode wellFormed short fits, same]

private theorem readPayload_writePayload {format : Format} {value : Value}
    (wellFormed : value.WellFormed)
    (back : format = .json → ∀ d ∈ value.doubles, d.ReadsBack)
    (short : (writePayload format value).length < 0x100000000)
    (fits : value.nesting ≤ format.maxNesting) :
    readPayload format (writePayload format value) = .ok value := by
  cases format with
  | json =>
    simp only [readPayload, writePayload, Json.parse, Json.decode_encode wellFormed (back rfl) fits]
    rfl
  | messagePack =>
    simp only [readPayload, writePayload, MessagePack.decode?_encode wellFormed short fits]

theorem readPayload_writePayload_tooDeep {format : Format} {value : Value}
    (wellFormed : value.WellFormed)
    (back : format = .json → ∀ d ∈ value.doubles, d.ReadsBack)
    (short : (writePayload format value).length < 0x100000000)
    (deep : format.maxNesting < value.nesting) :
    ∃ reason, readPayload format (writePayload format value) = .error (.payload reason) := by
  cases format with
  | json =>
    obtain ⟨rest, stopped⟩ := Json.decode_encode_tooDeep wellFormed (back rfl) deep
    simp only [readPayload, writePayload, Json.parse, stopped]
    exact ⟨_, rfl⟩
  | messagePack =>
    simp only [readPayload, writePayload, MessagePack.decode?_encode_tooDeep wellFormed short deep]
    exact ⟨_, rfl⟩

private theorem length_writePayload_pos (format : Format) (message : Message) :
    0 < (writePayload format message.toValue).length := by
  rw [Message.toValue_eq]
  cases format with
  | json =>
    simp only [writePayload, Json.encode]
    cases message.orderedMembers with
    | nil => decide
    | cons member members =>
      simp only [Json.text]
      rw [Json.encode_ascii (by decide)]
      exact Nat.zero_lt_succ _
  | messagePack => exact MessagePack.length_encode_pos _

/-! ## Units -/

theorem length_le_frame (framing : Framing) (payload : Bytes) :
    payload.length ≤ (frame framing payload).length := by
  cases framing with
  | bare => exact Nat.le_refl _
  | contentLength =>
    simp only [frame, Header.attach_eq, List.length_append, List.length_cons]
    omega

private theorem unframe_frame (framing : Framing) {payload : Bytes}
    (short : payload.length < 0x10000000000000000) :
    unframe framing (frame framing payload) = .ok payload := by
  cases framing with
  | bare => rfl
  | contentLength =>
    simp only [unframe, frame, Header.strip_attach short]
    rfl

theorem checkLength_eq {unit : Bytes} (nonempty : 0 < unit.length) :
    checkLength unit =
      if maxUnitLength < unit.length then
        .error (.framing ("unit of " ++ toString unit.length ++ " bytes exceeds the "
          ++ toString maxUnitLength ++ " byte limit"))
      else .ok () := by
  have filled : unit.isEmpty = false := by
    rw [List.isEmpty_eq_false_iff, ← List.length_pos_iff]
    exact nonempty
  simp [checkLength, filled]

/-! ## Messages -/

section

variable (codec : Codec) (message : Message)

private theorem readMessage_toValue : readMessage message.toValue = .ok message.normalized := by
  rw [readMessage, Message.ofValue_toValue]
  rfl

private theorem length_encode_pos : 0 < (codec.encode message).length :=
  Nat.lt_of_lt_of_le (length_writePayload_pos codec.format message) (length_le_frame ..)

theorem decode_encode_tooLong (long : maxUnitLength < (codec.encode message).length) :
    ∃ reason, codec.decode (codec.encode message) = .error (.framing reason) := by
  rw [decode, checkLength_eq (length_encode_pos codec message), if_pos long]
  exact ⟨_, rfl⟩

variable {codec message} in
theorem decode_encode_short (short : (codec.encode message).length ≤ maxUnitLength) :
    codec.decode (codec.encode message) =
      (readPayload codec.format (writePayload codec.format message.toValue)).bind readMessage := by
  have payload : (writePayload codec.format message.toValue).length < 0x10000000000000000 :=
    Nat.lt_of_le_of_lt (Nat.le_trans (length_le_frame ..) short) (by decide)
  rw [decode, checkLength_eq (length_encode_pos codec message), if_neg (Nat.not_lt.mpr short)]
  simp only [encode, unframe_frame codec.framing payload]
  rfl

variable {codec message} in
theorem decode_encode_fits (wellFormed : message.WellFormed)
    (back : codec.format = .json → ∀ d ∈ message.toValue.doubles, d.ReadsBack)
    (short : (codec.encode message).length ≤ maxUnitLength)
    (fits : message.toValue.nesting ≤ codec.format.maxNesting) :
    codec.decode (codec.encode message) = .ok message.normalized := by
  have payload : (writePayload codec.format message.toValue).length < 0x100000000 :=
    Nat.lt_of_le_of_lt (Nat.le_trans (length_le_frame ..) short) (by decide)
  rw [decode_encode_short short,
    readPayload_writePayload (Message.toValue_wellFormed wellFormed) back payload fits]
  exact readMessage_toValue message

variable {codec message} in
/-- Whatever its doubles, the unit of a message within the limits is read as that message. -/
theorem decode_encode_reread (wellFormed : message.WellFormed)
    (short : (codec.encode message).length ≤ maxUnitLength)
    (fits : message.toValue.nesting ≤ codec.format.maxNesting) :
    codec.decode (codec.encode message) =
      .ok (message.mapDoubles (rereadDouble codec.format)).normalized := by
  have payload : (writePayload codec.format message.toValue).length < 0x100000000 :=
    Nat.lt_of_le_of_lt (Nat.le_trans (length_le_frame ..) short) (by decide)
  rw [decode_encode_short short,
    readPayload_writePayload_reread (Message.toValue_wellFormed wellFormed) payload fits,
    ← Message.toValue_mapDoubles]
  exact readMessage_toValue _

end

/-- The message is within the limits of the codec. -/
structure Fits (codec : Codec) (message : Message) : Prop where
  wellFormed : message.WellFormed
  short : (codec.encode message).length ≤ maxUnitLength
  shallow : message.toValue.nesting ≤ codec.format.maxNesting

theorem Fits.request {codec : Codec} {id : Id} {method : String} {params : Value}
    (fits : codec.Fits (.request id method params)) :
    ∃ read, codec.decode (codec.encode (.request id method params)) =
      .ok (.request id method read) :=
  ⟨_, decode_encode_reread fits.wellFormed fits.short fits.shallow⟩

theorem Fits.response {codec : Codec} {id : Id} {outcome : Outcome}
    (fits : codec.Fits (.response id outcome)) :
    ∃ read, codec.decode (codec.encode (.response id outcome)) = .ok (.response id read) := by
  have reads := decode_encode_reread fits.wellFormed fits.short fits.shallow
  cases outcome <;> exact ⟨_, reads⟩

/-- What a codec reads from the unit that it wrote for a message. A unit that is too long is refused
for its framing, one that is short enough but nests too deep for its payload, and every other one is
the message again, except that null data of an error has become no data. Of the numbers in JSON it
is assumed that each double is read from its own text as itself. -/
theorem decode_encode_message (codec : Codec) {message : Message} (wellFormed : message.WellFormed)
    (back : codec.format = .json → ∀ d ∈ message.toValue.doubles, d.ReadsBack) :
    (maxUnitLength < (codec.encode message).length →
      ∃ reason, codec.decode (codec.encode message) = .error (.framing reason)) ∧
    ((codec.encode message).length ≤ maxUnitLength →
      message.toValue.nesting ≤ codec.format.maxNesting →
      codec.decode (codec.encode message) = .ok message.normalized) ∧
    ((codec.encode message).length ≤ maxUnitLength →
      codec.format.maxNesting < message.toValue.nesting →
      ∃ reason, codec.decode (codec.encode message) = .error (.payload reason)) := by
  have value := Message.toValue_wellFormed wellFormed
  have payload (short : (codec.encode message).length ≤ maxUnitLength) :
      (writePayload codec.format message.toValue).length < 0x100000000 :=
    Nat.lt_of_le_of_lt (Nat.le_trans (length_le_frame ..) short) (by decide)
  refine ⟨decode_encode_tooLong codec message, ?_, ?_⟩
  · intro short fits
    rw [decode_encode_short short, readPayload_writePayload value back (payload short) fits]
    exact readMessage_toValue message
  · intro short deep
    obtain ⟨reason, stopped⟩ := readPayload_writePayload_tooDeep value back (payload short) deep
    rw [decode_encode_short short, stopped]
    exact ⟨reason, rfl⟩

theorem decode_encode_message_half :
    let codec : Codec := ⟨.json, .contentLength⟩
    let half : Double := ⟨0x3fe0000000000000, by decide⟩
    let message : Message :=
      .request (.number 7) "scale" (.object [("by", .number (.double half)), ("of", .ofNat 4)])
    codec.decode (codec.encode message) = .ok message := by
  intro codec half message
  have wellFormed : message.WellFormed :=
    ⟨Members.ordered_of_keys (by decide), trivial, trivial, trivial⟩
  have halfBack : Double.ReadsBack ⟨0x3fe0000000000000, by decide⟩ := rfl
  have back : codec.format = .json → ∀ d ∈ message.toValue.doubles, d.ReadsBack := by
    intro _ d inside
    obtain rfl : d = half := by
      simpa [Message.toValue_eq, message, Message.orderedMembers, Message.members,
        Message.paramsMember, Value.isNull, Value.doubles, Value.doublesOfMembers, Value.ofNat,
        Id.toValue] using inside
    exact halfBack
  exact (decode_encode_message codec wellFormed back).2.1 (by decide) (by decide)

end Codec

end Airlock
