import Airlock.Proofs.Codec.Surplus
import Airlock.Proofs.Json.Truncation
import Airlock.Proofs.MessagePack.Truncation

/-!
# Units cut short

No codec takes a proper part of a unit, from its first byte on, for a message. A header that is cut
has no end, and behind a whole header the stated length is missed; without a header the payload is
refused before its shape is looked at. Of MessagePack without a header this holds as long as the
lengths fit into their fields: a length is written modulo 2^32, in the form for what is left of it,
and then a part of the unit is the unit of a shorter text.
-/

set_option autoImplicit false

namespace Airlock

/-! ## Headers -/

namespace Header

private theorem splitFrom_unterminated {bytes : Bytes} (before : Bytes) (noReturn : 13 ∉ bytes)
    {terminator : Bytes} (unfinished : terminator ∈ [[], [13], [13, 10], [13, 10, 13]]) :
    splitFrom before (bytes ++ terminator) = none := by
  induction bytes generalizing before with
  | nil =>
    simp only [List.mem_cons, List.not_mem_nil, or_false] at unfinished
    obtain rfl | rfl | rfl | rfl := unfinished <;> rfl
  | cons b bytes ih =>
    rw [List.mem_cons, not_or] at noReturn
    rw [List.cons_append, splitFrom]
    · exact ih (b :: before) noReturn.2
    · intro payload same
      exact absurd same.symm noReturn.1

private theorem strip_unterminated (length : Nat) {start terminator : Bytes}
    (begins : start <+: Text.Utf8.encode (line length))
    (unfinished : terminator ∈ [[], [13], [13, 10], [13, 10, 13]]) :
    strip (start ++ terminator) = .error .noTerminator := by
  have noReturn : 13 ∉ start := fun inside =>
    return_notMem_line length (Text.Utf8.mem_of_mem_encode (by decide) (begins.subset inside))
  have unfound : split? (start ++ terminator) = none := splitFrom_unterminated [] noReturn unfinished
  simp only [strip, unfound]
  rfl

/-- A line that states a length and another number of bytes behind it. -/
theorem strip_line_other {length : Nat} {payload : Bytes} (other : length ≠ payload.length) :
    ∃ fault, strip (Text.Utf8.encode (line length) ++ 13 :: 10 :: 13 :: 10 :: payload) =
      .error fault := by
  rw [strip_line_eq]
  by_cases fits : length < 0x10000000000000000
  · rw [Text.readSize_toDigits fits]
    exact ⟨_, if_neg other⟩
  · rw [Text.readSize_toDigits_tooLarge (Nat.not_lt.mp fits)]
    exact ⟨_, rfl⟩

private theorem strip_truncated {payload part missing : Bytes} (cut : missing ≠ [])
    (whole : part ++ missing = attach payload) : ∃ fault, strip part = .error fault := by
  rw [attach_eq] at whole
  obtain ⟨lineLeft, same, -⟩ | ⟨behind, rfl, rest⟩ := List.append_eq_append_iff.mp whole
  · have inLine : strip (part ++ []) = .error .noTerminator :=
      strip_unterminated payload.length ⟨lineLeft, same.symm⟩ (by decide)
    rw [List.append_nil] at inLine
    exact ⟨_, inLine⟩
  · have inTerminator {terminator : Bytes}
        (unfinished : terminator ∈ [[], [13], [13, 10], [13, 10, 13]]) :=
      strip_unterminated payload.length List.prefix_rfl unfinished
    match behind, rest with
    | [], _ => exact ⟨_, inTerminator (by decide)⟩
    | [_], rest =>
      obtain ⟨rfl, -⟩ := List.cons.inj rest
      exact ⟨_, inTerminator (by decide)⟩
    | [_, _], rest =>
      cases rest
      exact ⟨_, inTerminator (by decide)⟩
    | [_, _, _], rest =>
      cases rest
      exact ⟨_, inTerminator (by decide)⟩
    | _ :: _ :: _ :: _ :: payloadPart, rest =>
      cases rest
      refine strip_line_other ?_
      have missingLength := List.length_pos_iff.mpr cut
      have longer : (payloadPart ++ missing).length = payloadPart.length + missing.length :=
        List.length_append
      rw [List.append_eq, longer]
      omega

end Header

namespace Codec

/-! ## Payloads -/

private theorem readPayload_truncated {format : Format} {message : Message}
    (counted : format = .messagePack → message.toValue.Counted) {part missing : Bytes}
    (cut : missing ≠ []) (whole : part ++ missing = writePayload format message.toValue) :
    ∃ reason, readPayload format part = .error (.payload reason) := by
  cases format with
  | json =>
    rw [Message.toValue_eq] at whole
    obtain ⟨fault, stopped⟩ := Json.decode_truncated cut whole
    simp only [readPayload, Json.parse, stopped]
    exact ⟨_, rfl⟩
  | messagePack =>
    simp only [readPayload, MessagePack.decode?_truncated (counted rfl) cut whole]
    exact ⟨_, rfl⟩

/-! ## Units -/

/-- A proper part of a unit, from its first byte on, is refused for its framing or, where the unit
is the payload, for its payload. -/
theorem decode_properPrefix (codec : Codec) {message : Message}
    (counted : codec = ⟨.messagePack, .bare⟩ → message.toValue.Counted) {part : Bytes}
    (begins : part <+: codec.encode message) (proper : part ≠ codec.encode message) :
    ∃ reason, codec.decode part = .error (.framing reason) ∨
      codec.framing = .bare ∧ codec.decode part = .error (.payload reason) := by
  obtain ⟨missing, whole⟩ := begins
  have cut : missing ≠ [] := by
    rintro rfl
    exact proper (by rw [← whole, List.append_nil])
  by_cases empty : part = []
  · subst empty
    exact ⟨_, .inl rfl⟩
  by_cases long : maxUnitLength < part.length
  · obtain ⟨reason, refused⟩ : ∃ reason, codec.decode part = .error (.framing reason) :=
      decode_long long
    exact ⟨reason, .inl refused⟩
  rw [decode_eq empty (Nat.not_lt.mp long)]
  obtain ⟨format, framing⟩ := codec
  cases framing with
  | contentLength =>
    obtain ⟨fault, stopped⟩ := Header.strip_truncated cut whole
    simp only [unframe, stopped]
    exact ⟨_, .inl rfl⟩
  | bare =>
    obtain ⟨reason, stopped⟩ :=
      readPayload_truncated (fun same => counted (congrArg (Codec.mk · .bare) same)) cut whole
    have refused : (unframe .bare part).bind (fun payload =>
        (readPayload format payload).bind readMessage) = .error (.payload reason) := by
      simp only [unframe, Except.bind, stopped]
    exact ⟨reason, .inr ⟨rfl, refused⟩⟩

theorem decode_properPrefix_scale :
    let codec : Codec := ⟨.messagePack, .bare⟩
    let message : Message :=
      .request (.number 7) "scale" (.object [("by", .array [.ofNat 300, .null])])
    let part := (codec.encode message).take 43
    ((codec = ⟨.messagePack, .bare⟩ → message.toValue.Counted) ∧
      part <+: codec.encode message ∧ part ≠ codec.encode message) ∧
    ∃ reason, codec.decode part = .error (.framing reason) ∨
      codec.framing = .bare ∧ codec.decode part = .error (.payload reason) := by
  intro codec message part
  have counted : message.toValue.Counted := by decide
  have begins : part <+: codec.encode message := List.take_prefix ..
  have proper : part ≠ codec.encode message := by decide
  exact ⟨⟨fun _ => counted, begins, proper⟩,
    decode_properPrefix codec (fun _ => counted) begins proper⟩

/-! ## Lengths beyond their field -/

section

variable (count : Nat)

/-- A notification with a text of so many letters. -/
def letters : Message :=
  .notification "m" (.string (String.ofList (List.replicate count 'a')))

/-- The bytes of `letters` before the length of the text. -/
def lettersStart : Bytes :=
  0x83 :: (MessagePack.text "jsonrpc" ++ (MessagePack.text "2.0" ++ (MessagePack.text "method" ++
    (MessagePack.text "m" ++ MessagePack.text "params"))))

private theorem ofString_letters :
    Text.Utf8.ofString (String.ofList (List.replicate count 'a')) = List.replicate count 0x61 := by
  have letter : String.utf8EncodeChar 'a' = [0x61] := by decide
  rw [Text.Utf8.ofString, String.toList_ofList, Text.Utf8.encode, List.flatMap_replicate, letter,
    List.flatten_replicate_singleton]

private theorem toValue_letters :
    (letters count).toValue = .object [("jsonrpc", .string "2.0"), ("method", .string "m"),
      ("params", .string (String.ofList (List.replicate count 'a')))] :=
  Message.toValue_eq _

private theorem encode_letters :
    encode ⟨.messagePack, .bare⟩ (letters count) =
      lettersStart ++ (MessagePack.textHead count ++ List.replicate count 0x61) := by
  have written : MessagePack.text (String.ofList (List.replicate count 'a')) =
      MessagePack.textHead count ++ List.replicate count 0x61 := by
    simp only [MessagePack.text, ofString_letters, List.length_replicate]
  simp only [encode, frame, writePayload, toValue_letters, MessagePack.encode, MessagePack.encodeMembers,
    written, lettersStart, List.append_nil, List.append_assoc, List.cons_append]
  rfl

end

/-- The length of a text of 2^32 bytes is written as that of the empty text. The unit up to there is
the unit of the message with the empty text. -/
theorem not_forall_properPrefix_refused :
    ¬ ∀ (codec : Codec) (message : Message) (part : Bytes), part <+: codec.encode message →
      part ≠ codec.encode message → ∃ error, codec.decode part = .error error := by
  intro refused
  let codec : Codec := ⟨.messagePack, .bare⟩
  let part := codec.encode (letters 0)
  have wraps : MessagePack.textHead 0x100000000 = MessagePack.textHead 0 := by decide
  have whole : part ++ List.replicate 0x100000000 0x61 = codec.encode (letters 0x100000000) := by
    simp only [part, codec, encode_letters, wraps, List.replicate_zero, List.append_nil,
      List.append_assoc]
  have proper : part ≠ codec.encode (letters 0x100000000) := by
    intro same
    have lengths := congrArg List.length (whole.trans same.symm)
    rw [List.length_append, List.length_replicate] at lengths
    omega
  have read : codec.decode part = .ok (letters 0) := rfl
  obtain ⟨error, stopped⟩ := refused codec _ part ⟨_, whole⟩ proper
  cases read.symm.trans stopped

end Codec

end Airlock
