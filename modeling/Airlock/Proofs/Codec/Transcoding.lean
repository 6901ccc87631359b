import Airlock.Proofs.Codec.RoundTrip
import Airlock.Proofs.MessagePack.Within

/-!
# Messages carried from codec to codec

Whatever the unit looked like, the message read from it is in a normal form: its objects are in
order, null data of an error is gone, and its own value nests no deeper than the one it was read
from. So another codec writes a unit that is read as that very message, and a chain of codecs hands
it on unchanged.
-/

set_option autoImplicit false

namespace Airlock

/-! ## Error objects -/

namespace ResponseError

variable {room : Nat}

theorem toValue_within {error : ResponseError} (data : ∀ data ∈ error.data?, data.Within room) :
    error.toValue.Within (room + 1) := by
  have wellFormed : error.WellFormed := fun value held => (data value held).wellFormed
  refine ⟨toValue_wellFormed wellFormed, ?_⟩
  rw [toValue_eq]
  obtain ⟨code, message, data?⟩ := error
  cases data? with
  | none => simp [Value.nesting, Value.nestingOfMembers]
  | some value =>
    have shallow : value.nesting ≤ room := (data value rfl).shallow
    simp [Value.nesting, Value.nestingOfMembers, shallow]

/-- Data that an error object is built with was held under its key, and it is not null. -/
theorem build_data {held : String → Option Value} {error : ResponseError}
    (built : fields.build held = .ok error) :
    error.normalized = error ∧ ∀ data ∈ error.data?, held "data" = some data := by
  obtain ⟨⟨code, message⟩, _, built⟩ := ok_of_bind built
  obtain ⟨data?, read, same⟩ := ok_of_bind built
  cases same
  simp only [Json.Fields.optional] at read
  cases found : held "data" with
  | none =>
    rw [found] at read
    cases read
    exact ⟨rfl, fun data present => by cases present⟩
  | some value =>
    rw [found] at read
    cases value <;> cases read <;> exact ⟨rfl, by simp⟩

private theorem mem_of_lookup_zip {names : List String} {items : List Value} {key : String}
    {value : Value}
    (found : (names.zip items).lookup key = some value) : value ∈ items := by
  induction names generalizing items with
  | nil => simp at found
  | cons name names ih =>
    cases items with
    | nil => simp at found
    | cons item items =>
      simp only [List.zip_cons_cons, List.lookup_cons] at found
      split at found
      · cases found
        exact List.mem_cons_self
      · exact List.mem_cons_of_mem _ (ih found)

/-- An error object that was read nests no deeper than what it was read from, be that an object or
an array. -/
theorem ofValue_within {value : Value} (within : value.Within room) {error : ResponseError}
    (read : ofValue value = .ok error) :
    error.normalized = error ∧ error.WellFormed ∧ error.toValue.Within room := by
  -- Either way the record is built of values that the container holds.
  obtain ⟨inner, rfl, held, built, values⟩ : ∃ inner, room = inner + 1 ∧ ∃ held,
      fields.build held = .ok error ∧ ∀ key data, held key = some data → data.Within inner := by
    cases value with
    | object members =>
      obtain ⟨inner, rfl⟩ : ∃ inner, room = inner + 1 :=
        Nat.exists_eq_add_one.mpr (Nat.lt_of_lt_of_le (Nat.succ_pos _) within.shallow)
      have members := Value.within_object.mp within
      obtain ⟨_, _, built⟩ := ok_of_bind read
      exact ⟨inner, rfl, _, built, fun key data found => members.get? found⟩
    | array items =>
      obtain ⟨inner, rfl⟩ : ∃ inner, room = inner + 1 :=
        Nat.exists_eq_add_one.mpr (Nat.lt_of_lt_of_le (Nat.succ_pos _) within.shallow)
      have items := Value.within_array.mp within
      obtain ⟨_, _, built⟩ := ok_of_bind read
      exact ⟨inner, rfl, _, built, fun key data found => items data (mem_of_lookup_zip found)⟩
    | null | bool _ | number _ | string _ => cases read
  obtain ⟨settled, origin⟩ := build_data built
  have data : ∀ data ∈ error.data?, data.Within inner :=
    fun data present => values "data" data (origin data present)
  exact ⟨settled, fun value present => (data value present).wellFormed, toValue_within data⟩

end ResponseError

/-! ## Messages -/

private theorem Id.toValue_within {room : Nat} (id : Id) : id.toValue.Within room := by
  cases id with
  | number n => exact Value.within_number _
  | string s => exact Value.within_string s

namespace Message

variable {room : Nat}

/-- The message as some unit can be read: in order, with no null data, and nested within a room. -/
structure Settled (room : Nat) (message : Message) : Prop where
  wellFormed : message.WellFormed
  normalized : message.normalized = message
  shallow : message.toValue.nesting ≤ room

theorem Settled.mono {message : Message} {wider : Nat} (settled : message.Settled room)
    (wide : room ≤ wider) : message.Settled wider :=
  { settled with shallow := Nat.le_trans settled.shallow wide }

private theorem paramsMember_within {params : Value} (within : params.Within room) :
    ∀ member ∈ paramsMember params, member.2.Within room := by
  unfold paramsMember
  split
  · exact List.forall_mem_nil _
  · exact List.forall_mem_singleton.mpr within

private theorem nesting_toValue {message : Message}
    (members : ∀ member ∈ message.orderedMembers, member.2.Within room) :
    message.toValue.nesting ≤ room + 1 := by
  rw [toValue_eq]
  exact (Value.within_object.mpr ⟨message.ordered, members⟩).shallow

theorem settled_request (id : Id) (method : String) {params : Value} (within : params.Within room) :
    (request id method params).Settled (room + 1) := by
  refine ⟨within.wellFormed, rfl, nesting_toValue ?_⟩
  intro member inside
  obtain head | rest := List.mem_append.mp inside
  · simp only [List.mem_cons, List.not_mem_nil, or_false] at head
    obtain rfl | rfl | rfl := head
    · exact id.toValue_within
    · exact Value.within_string version
    · exact Value.within_string method
  · exact paramsMember_within within member rest

theorem settled_notification (method : String) {params : Value} (within : params.Within room) :
    (notification method params).Settled (room + 1) := by
  refine ⟨within.wellFormed, rfl, nesting_toValue ?_⟩
  intro member inside
  obtain head | rest := List.mem_append.mp inside
  · simp only [List.mem_cons, List.not_mem_nil, or_false] at head
    obtain rfl | rfl := head
    · exact Value.within_string version
    · exact Value.within_string method
  · exact paramsMember_within within member rest

theorem settled_result (id : Id) {result : Value} (within : result.Within room) :
    (response id (.ok result)).Settled (room + 1) := by
  refine ⟨within.wellFormed, rfl, nesting_toValue ?_⟩
  intro member inside
  simp only [orderedMembers, members, List.mem_cons, List.not_mem_nil, or_false] at inside
  obtain rfl | rfl | rfl := inside
  · exact id.toValue_within
  · exact Value.within_string version
  · exact within

theorem settled_error (id : Id) {error : ResponseError} (settled : error.normalized = error)
    (wellFormed : error.WellFormed) (within : error.toValue.Within room) :
    (response id (.error error)).Settled (room + 1) := by
  refine ⟨wellFormed, ?_, nesting_toValue ?_⟩
  · simp only [normalized, settled]
  · intro member inside
    simp only [orderedMembers, List.mem_cons, List.not_mem_nil, or_false] at inside
    obtain rfl | rfl | rfl := inside
    · exact within
    · exact id.toValue_within
    · exact Value.within_string version

private theorem readError_settled (id : Id) {value : Value} (within : value.Within room)
    {outcome : Outcome}
    (read : readOutcome.readError value = .ok outcome) :
    (response id outcome).Settled (room + 1) := by
  simp only [readOutcome.readError] at read
  cases decoded : ResponseError.ofValue value with
  | error reason => simp [decoded] at read
  | ok error =>
    simp only [decoded, Except.ok.injEq] at read
    subst read
    obtain ⟨settled, wellFormed, fits⟩ := ResponseError.ofValue_within within decoded
    exact settled_error id settled wellFormed fits

private theorem readOutcome_settled (id : Id) {members : Members} (within : members.Within room)
    {outcome : Outcome} (read : readOutcome id members = .ok outcome) :
    (response id outcome).Settled (room + 1) := by
  have failed {value : Value}
      (present : (Members.get? members "error").filter (!·.isNull) = some value) :
      value.Within room :=
    within.get? (Option.filter_eq_some_iff.mp present).1
  simp only [readOutcome] at read
  split at read
  next found present =>
    split at read
    · exact readError_settled id (failed present) read
    · cases read
  next found present => exact readError_settled id (failed present) read
  next found _ =>
    cases read
    exact settled_result id (within.get? found)
  next => cases read

/-- A message read from a value is settled, and nests no deeper than the value. -/
theorem ofValue_settled {value : Value} (within : value.Within room) {message : Message}
    (read : ofValue value = .ok message) : message.Settled room := by
  cases value with
  | object members =>
    obtain ⟨inner, rfl⟩ : ∃ inner, room = inner + 1 :=
      Nat.exists_eq_add_one.mpr (Nat.lt_of_lt_of_le (Nat.succ_pos _) within.shallow)
    have held := Value.within_object.mp within
    have params : ((Members.get? members "params").getD .null).Within inner := by
      cases found : Members.get? members "params" with
      | none => exact Value.within_null
      | some params => exact held.get? found
    obtain ⟨id?, _, read⟩ := ok_of_bind read
    obtain ⟨method?, _, read⟩ := ok_of_bind read
    match id?, method? with
    | some id, some method =>
      cases read
      exact settled_request id method params
    | none, some method =>
      cases read
      exact settled_notification method params
    | some id, none =>
      obtain ⟨outcome, come, read⟩ := ok_of_bind read
      cases read
      exact readOutcome_settled id held come
    | none, none => cases read
  | null | bool _ | number _ | string _ | array _ => cases read

end Message

namespace Codec

/-! ## Units -/

private theorem readPayload_within {format : Format} {payload : Bytes} {value : Value}
    (read : readPayload format payload = .ok value) : value.Within format.maxNesting := by
  cases format with
  | json =>
    simp only [readPayload, Json.parse] at read
    cases decoded : Json.decode payload with
    | error fault => simp [decoded, Except.mapError] at read
    | ok result =>
      simp only [decoded, Except.mapError, Except.ok.injEq] at read
      exact read ▸ Json.decode_within decoded
  | messagePack =>
    simp only [readPayload] at read
    cases decoded : MessagePack.decode? payload with
    | none => simp [decoded] at read
    | some result =>
      simp only [decoded, Except.ok.injEq] at read
      exact read ▸ MessagePack.decode?_within decoded

/-- Whatever unit it comes from, a message that was read is settled within the limit of the
format. -/
theorem decode_settled {codec : Codec} {unit : Bytes} {message : Message}
    (read : codec.decode unit = .ok message) : message.Settled codec.format.maxNesting := by
  obtain ⟨_, _, read⟩ := ok_of_bind read
  obtain ⟨payload, _, read⟩ := ok_of_bind read
  obtain ⟨value, valued, read⟩ := ok_of_bind read
  simp only [readMessage] at read
  cases shaped : Message.ofValue value with
  | error fault => simp [shaped, Except.mapError] at read
  | ok result =>
    simp only [shaped, Except.mapError, Except.ok.injEq] at read
    exact read ▸ Message.ofValue_settled (readPayload_within valued) shaped

/-- A message read by one codec can be handed on by the other: its unit there is not too long, JSON
behind MessagePack is not asked to nest more than it can, and doubles are read back from their
text. -/
structure Passes (message : Message) (source target : Codec) : Prop where
  short : (target.encode message).length ≤ maxUnitLength
  shallow : source.format = .json ∨ target.format = .messagePack ∨
    message.toValue.nesting ≤ Json.maxOpen
  back : target.format = .json → ∀ d ∈ message.toValue.doubles, d.ReadsBack

variable {source target : Codec} {message : Message}

/-- One hop. The room of the target suffices because that of the source did. -/
theorem Passes.decode {unit : Bytes} (passes : Passes message source target)
    (read : source.decode unit = .ok message) :
    target.decode (target.encode message) = .ok message := by
  have settled := decode_settled read
  have json : Json.maxOpen ≤ target.format.maxNesting := by
    cases target.format <;> decide
  have fits : message.toValue.nesting ≤ target.format.maxNesting := by
    obtain fromJson | toMessagePack | shallow := passes.shallow
    · rw [fromJson] at settled
      exact Nat.le_trans settled.shallow json
    · rw [toMessagePack]
      refine Nat.le_trans settled.shallow ?_
      cases source.format <;> decide
    · exact Nat.le_trans shallow json
  rw [decode_encode_fits settled.wellFormed passes.back passes.short fits, settled.normalized]

private theorem transcode_eq {unit : Bytes} (read : source.decode unit = .ok message) :
    source.transcode target unit = .ok (target.encode message) := by
  rw [transcode, read]
  rfl

/-! ## Chains -/

/-- The units of a message on its way through the targets, one transcode after the other. -/
def relay (source : Codec) (unit : Bytes) : List Codec → Except DecodeError (List Bytes)
  | [] => .ok []
  | target :: targets => do
    let next ← source.transcode target unit
    return next :: (← target.relay next targets)

private theorem relay_eq {targets : List Codec} {unit : Bytes}
    (passes : (source :: targets).IsChain (Passes message))
    (read : source.decode unit = .ok message) :
    source.relay unit targets = .ok (targets.map (·.encode message)) ∧
      ∀ target ∈ targets, target.decode (target.encode message) = .ok message := by
  induction targets generalizing source unit with
  | nil => exact ⟨rfl, nofun⟩
  | cons target targets ih =>
    obtain ⟨hop, behind⟩ := List.isChain_cons_cons.mp passes
    have arrived := hop.decode read
    obtain ⟨units, readable⟩ := ih behind arrived
    refine ⟨?_, List.forall_mem_cons.mpr ⟨arrived, readable⟩⟩
    rw [relay, transcode_eq read, List.map_cons]
    simp only [bind, Except.bind, units, pure, Except.pure]

/-- Whatever unit a message was read from, a codec that it can be handed on to writes a unit that is
read as that message. Along a chain of codecs the unit of each is the one that it writes for the
message, so wherever the chain comes back to a codec it comes back to the same bytes. -/
theorem transcode_preserves {source : Codec} {unit : Bytes} {message : Message}
    (read : source.decode unit = .ok message) :
    (∀ target, Passes message source target →
      source.transcode target unit = .ok (target.encode message) ∧
      target.decode (target.encode message) = .ok message) ∧
    ∀ targets, (source :: targets).IsChain (Passes message) →
      source.relay unit targets = .ok (targets.map (·.encode message)) ∧
      ∀ target ∈ targets, target.decode (target.encode message) = .ok message :=
  ⟨fun _ passes => ⟨transcode_eq read, passes.decode read⟩, fun _ passes => relay_eq passes read⟩

theorem transcode_preserves_result :
    let json : Codec := ⟨.json, .bare⟩
    let packed : Codec := ⟨.messagePack, .contentLength⟩
    let unit := Text.Utf8.encode "\x7b\"result\":[null],\"id\":7,\"error\":null,\"id\":8\x7d".toList
    let message : Message := .response (.number 8) (.ok (.array [.null]))
    json.decode unit = .ok message ∧
      json.relay unit [packed, json, packed] =
        .ok [packed.encode message, json.encode message, packed.encode message] := by
  intro json packed unit message
  have read : json.decode unit = .ok message := by rfl
  have doubles : ∀ d ∈ message.toValue.doubles, d.ReadsBack := by
    intro d inside
    cases (by rfl : message.toValue.doubles = []) ▸ inside
  have there : Passes message json packed := ⟨by decide, .inl rfl, nofun⟩
  have back : Passes message packed json := ⟨by decide, .inr (.inr (by decide)), fun _ => doubles⟩
  have chain : [json, packed, json, packed].IsChain (Passes message) :=
    .cons_cons there (.cons_cons back (.cons_cons there (.singleton _)))
  exact ⟨read, ((transcode_preserves read).2 [packed, json, packed] chain).1⟩

end Codec

end Airlock
