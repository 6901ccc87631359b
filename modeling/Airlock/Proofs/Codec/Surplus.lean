import Mathlib.Data.List.TakeWhile
import Airlock.Proofs.Codec.RoundTrip
import Airlock.Proofs.Json.Surplus
import Airlock.Proofs.MessagePack.Surplus

/-!
# Units with more than one message

What a codec makes of a unit that goes on behind the message. A stated length no longer fits, and
the end of a JSON text is looked for behind blanks only. MessagePack without a header has neither:
the first message is read, and whatever stands behind it is dropped.
-/

set_option autoImplicit false

namespace Airlock

/-! ## The last byte of a JSON message -/

namespace Json

private theorem membersText_brace (members : List (String × Value)) :
    ∃ before, membersText members = before ++ ['\x7d'] := by
  induction members with
  | nil => exact ⟨[], rfl⟩
  | cons member members ih =>
    obtain ⟨before, same⟩ := ih
    exact ⟨',' :: (stringText member.1 ++ ':' :: (text member.2 ++ before)),
      by simp [membersText, same]⟩

private theorem text_object_brace (members : Members) :
    ∃ before, text (.object members) = before ++ ['\x7d'] := by
  cases members with
  | nil => exact ⟨['\x7b'], rfl⟩
  | cons member members =>
    obtain ⟨before, same⟩ := membersText_brace members
    exact ⟨'\x7b' :: (stringText member.1 ++ ':' :: (text member.2 ++ before)),
      by simp [text, same]⟩

private theorem getLast?_encode_object (members : Members) :
    (encode (.object members)).getLast? = some (byte '\x7d') := by
  obtain ⟨before, same⟩ := text_object_brace members
  rw [encode, same, Text.Utf8.encode_append, encode_ascii (by decide), List.getLast?_append]
  rfl

end Json

namespace Codec

/-! ## Payloads -/

variable {message : Message} {read : Message} {extra : Bytes}

private theorem readPayload_surplus_messagePack {value : Value} {payload : Bytes}
    (found : readPayload .messagePack payload = .ok value) :
    readPayload .messagePack (payload ++ extra) = .ok value := by
  simp only [readPayload] at found ⊢
  cases decoded : MessagePack.decode? payload with
  | none => simp [decoded] at found
  | some held =>
    simp only [decoded, Except.ok.injEq] at found
    rw [MessagePack.decode?_surplus decoded, found]

private theorem readPayload_surplus_json {value : Value}
    (found : readPayload .json (writePayload .json message.toValue) = .ok value) :
    (extra.all Json.isBlankByte = true →
      readPayload .json (writePayload .json message.toValue ++ extra) = .ok value) ∧
    (extra.all Json.isBlankByte = false →
      ∃ reason, readPayload .json (writePayload .json message.toValue ++ extra) =
        .error (.payload reason)) := by
  simp only [readPayload, writePayload, Json.parse] at found ⊢
  have last : (Json.encode message.toValue).getLast? = some (Json.byte '\x7d') := by
    rw [Message.toValue_eq]
    exact Json.getLast?_encode_object _
  cases decoded : Json.decode (Json.encode message.toValue) with
  | error fault => simp [decoded, Except.mapError] at found
  | ok held =>
    obtain rfl : held = value := by simpa [decoded, Except.mapError] using found
    rw [Json.decode_append extra last decoded]
    constructor
    · intro blank
      have none : extra.dropWhile Json.isBlankByte = [] := by
        simpa [List.dropWhile_eq_nil_iff] using blank
      simp only [Json.expectEnd, none]
      rfl
    · intro visible
      cases left : extra.dropWhile Json.isBlankByte with
      | nil =>
        have blank := List.dropWhile_eq_nil_iff.mp left
        simp [List.all_eq_true.mpr blank] at visible
      | cons b behind =>
        simp only [Json.expectEnd, left]
        exact ⟨_, rfl⟩

/-! ## Units -/

theorem decode_eq {codec : Codec} {unit : Bytes} (filled : unit ≠ [])
    (short : unit.length ≤ maxUnitLength) :
    codec.decode unit = (unframe codec.framing unit).bind fun payload =>
      (readPayload codec.format payload).bind readMessage := by
  rw [decode, checkLength_eq (List.length_pos_iff.mpr filled), if_neg (Nat.not_lt.mpr short)]
  rfl

private theorem payload_of_decode_encode {codec : Codec}
    (back : codec.decode (codec.encode message) = .ok read) :
    (codec.encode message).length ≤ maxUnitLength ∧
      ∃ value, readPayload codec.format (writePayload codec.format message.toValue) = .ok value ∧
        readMessage value = .ok read := by
  have short : (codec.encode message).length ≤ maxUnitLength := by
    by_contra long
    obtain ⟨reason, refused⟩ := decode_encode_tooLong codec message (Nat.not_le.mp long)
    rw [refused] at back
    cases back
  rw [decode_encode_short short] at back
  cases found : readPayload codec.format (writePayload codec.format message.toValue) with
  | error error => simp [found, Except.bind] at back
  | ok value =>
    rw [found] at back
    exact ⟨short, value, rfl, back⟩

theorem decode_long {codec : Codec} {unit : Bytes} (long : maxUnitLength < unit.length) :
    ∃ reason, codec.decode unit = .error (.framing reason) := by
  rw [decode, checkLength_eq (Nat.lt_of_le_of_lt (Nat.zero_le _) long), if_pos long]
  exact ⟨_, rfl⟩

private theorem decode_surplus_contentLength {format : Format} (some : extra ≠ [])
    (short : (encode ⟨format, .contentLength⟩ message ++ extra).length ≤ maxUnitLength) :
    ∃ reason, decode ⟨format, .contentLength⟩ (encode ⟨format, .contentLength⟩ message ++ extra) =
      .error (.framing reason) := by
  have fits : (writePayload format message.toValue).length < 0x10000000000000000 := by
    have payload := length_le_frame .contentLength (writePayload format message.toValue)
    have limit : maxUnitLength < 0x10000000000000000 := by decide
    rw [List.length_append] at short
    simp only [encode] at short
    omega
  rw [decode_eq (by simp [some]) short]
  simp only [encode, frame, unframe, Header.strip_attach_surplus some fits]
  exact ⟨_, rfl⟩

private theorem decode_surplus_bare {format : Format}
    (short : (encode ⟨format, .bare⟩ message ++ extra).length ≤ maxUnitLength)
    (some : extra ≠ []) :
    decode ⟨format, .bare⟩ (encode ⟨format, .bare⟩ message ++ extra) =
      (readPayload format (writePayload format message.toValue ++ extra)).bind readMessage := by
  rw [decode_eq (by simp [some]) short]
  rfl

private theorem decode_surplus_dropped
    (back : decode ⟨.messagePack, .bare⟩ (encode ⟨.messagePack, .bare⟩ message) = .ok read)
    (short : (encode ⟨.messagePack, .bare⟩ message ++ extra).length ≤ maxUnitLength)
    (some : extra ≠ []) :
    decode ⟨.messagePack, .bare⟩ (encode ⟨.messagePack, .bare⟩ message ++ extra) = .ok read := by
  obtain ⟨-, value, payload, shape⟩ := payload_of_decode_encode back
  rw [decode_surplus_bare short some, readPayload_surplus_messagePack payload]
  exact shape

/-- What a codec makes of a unit that goes on behind the message. A header notices it, and so does
JSON, which lets only blanks follow; MessagePack without a header reads the message and drops the
rest. -/
theorem decode_encode_surplus (codec : Codec)
    (back : codec.decode (codec.encode message) = .ok read) (some : extra ≠ []) :
    let unit := codec.encode message ++ extra
    (maxUnitLength < unit.length → ∃ reason, codec.decode unit = .error (.framing reason)) ∧
    (unit.length ≤ maxUnitLength →
      (codec.framing = .contentLength →
        ∃ reason, codec.decode unit = .error (.framing reason)) ∧
      (codec = ⟨.json, .bare⟩ → extra.all Json.isBlankByte = false →
        ∃ reason, codec.decode unit = .error (.payload reason)) ∧
      (codec = ⟨.json, .bare⟩ → extra.all Json.isBlankByte = true →
        codec.decode unit = .ok read) ∧
      (codec = ⟨.messagePack, .bare⟩ → codec.decode unit = .ok read)) := by
  intro unit
  obtain ⟨-, value, payload, shape⟩ := payload_of_decode_encode back
  refine ⟨decode_long, fun short => ⟨?header, ?visible, ?blank, ?dropped⟩⟩
  case header =>
    intro framing
    obtain ⟨format, framing⟩ := codec
    subst framing
    exact decode_surplus_contentLength some short
  case visible =>
    rintro rfl visible
    obtain ⟨reason, stopped⟩ := (readPayload_surplus_json payload).2 visible
    rw [decode_surplus_bare short some, stopped]
    exact ⟨reason, rfl⟩
  case blank =>
    rintro rfl blank
    rw [decode_surplus_bare short some, (readPayload_surplus_json payload).1 blank]
    exact shape
  case dropped =>
    rintro rfl
    exact decode_surplus_dropped back short some

theorem decode_encode_surplus_glued :
    let codec : Codec := ⟨.messagePack, .bare⟩
    let first : Message := .notification "note" .null
    let second : Message := .request (.number 1) "add" .null
    let unit := codec.encode first ++ codec.encode second
    (codec.decode (codec.encode first) = .ok first ∧ codec.encode second ≠ [] ∧
      unit.length ≤ maxUnitLength) ∧ codec.decode unit = .ok first := by
  intro codec first second unit
  have back : codec.decode (codec.encode first) = .ok first :=
    decode_encode_fits trivial nofun (by decide) (by decide)
  have some : codec.encode second ≠ [] := by decide
  have short : unit.length ≤ maxUnitLength := by decide
  have law := decode_encode_surplus codec back some
  exact ⟨⟨back, some, short⟩, (law.2 short).2.2.2 rfl⟩

/-- Not every unit that goes on behind its message is refused. -/
theorem not_forall_surplus_refused :
    ¬ ∀ (codec : Codec) (message : Message) (extra : Bytes),
      codec.decode (codec.encode message) = .ok message → extra ≠ [] →
      (codec = ⟨.json, .bare⟩ → extra.all Json.isBlankByte = false) →
      ∃ error, codec.decode (codec.encode message ++ extra) = .error error := by
  intro refused
  let codec : Codec := ⟨.messagePack, .bare⟩
  let first : Message := .notification "note" .null
  let second : Message := .request (.number 1) "add" .null
  have back : codec.decode (codec.encode first) = .ok first :=
    decode_encode_fits trivial nofun (by decide) (by decide)
  have some : codec.encode second ≠ [] := by decide
  have dropped := decode_surplus_dropped back (by decide) some
  obtain ⟨error, stopped⟩ := refused codec first (codec.encode second) back some
    (fun same => absurd same (by decide))
  cases dropped.symm.trans stopped

end Codec

end Airlock
