import Airlock.Proofs.Json.Values
import Airlock.Rpc.Message

/-!
# Messages as values and back

The value of a message is an object whose members are in order, so its fields tell the message
apart again. Only an error object whose data is null comes back changed, without data.
-/

set_option autoImplicit false

namespace Airlock

/-! ## Identifiers -/

private theorem Integer.toInt64?_ofInt64 (n : Int64) : (Integer.ofInt64 n).toInt64? = some n := by
  have high : (Integer.ofInt64 n).val < 0x8000000000000000 := Int64.toInt_lt n
  rw [toInt64?, if_pos high]
  exact congrArg some (Int64.ofInt_toInt n)

private theorem Id.ofValue_toValue (id : Id) : Id.ofValue id.toValue = .ok id := by
  cases id with
  | number n => simp [toValue, ofValue, Integer.toInt64?_ofInt64]
  | string s => rfl

private theorem Id.toValue_wellFormed (id : Id) : id.toValue.WellFormed := by
  cases id <;> trivial

/-! ## Error objects -/

namespace ResponseError

def WellFormed (error : ResponseError) : Prop :=
  ∀ data ∈ error.data?, data.WellFormed

theorem toValue_eq (error : ResponseError) :
    error.toValue = .object (match error.data? with
      | some data => [("code", .number (.integer (.ofInt64 error.code))), ("data", data),
          ("message", .string error.message)]
      | none => [("code", .number (.integer (.ofInt64 error.code))),
          ("message", .string error.message)]) := by
  obtain ⟨code, message, data?⟩ := error
  cases data? <;>
    simp only [toValue, members, Value.ofMembers, Members.ofList, List.cons_append,
      List.nil_append, List.append_nil, List.foldl_cons, List.foldl_nil, Members.insert,
      String.reduceLT, String.reduceEq, if_true, if_false]

theorem toValue_wellFormed {error : ResponseError} (wellFormed : error.WellFormed) :
    error.toValue.WellFormed := by
  rw [toValue_eq]
  cases held : error.data? with
  | none =>
    have keys : ["code", "message"].Pairwise (· < ·) := by decide
    exact ⟨Members.ordered_of_keys keys, trivial, trivial, trivial⟩
  | some data =>
    have keys : ["code", "data", "message"].Pairwise (· < ·) := by decide
    exact ⟨Members.ordered_of_keys keys, trivial, wellFormed data held, trivial, trivial⟩

private theorem ofValue_toValue (error : ResponseError) :
    ofValue error.toValue = .ok error.normalized := by
  rw [toValue_eq]
  obtain ⟨code, message, data?⟩ := error
  have codeRead : Json.Decoder.int64 (.number (.integer (.ofInt64 code))) = .ok code := by
    simp [Json.Decoder.int64, Integer.toInt64?_ofInt64]
  have read (members : Members) : ofValue (.object members) =
      (do Json.Fields.checkMembers fields.fields members; fields.build (Members.get? members)) :=
    rfl
  cases data? with
  | none =>
    simp [read, fields, Json.Fields.both, Json.Fields.required, Json.Fields.optional,
      Json.Fields.checkMembers, Members.get?, codeRead, Json.Decoder.string, normalized,
      Except.map, bind, Except.bind, pure, Except.pure]
  | some data =>
    have dataRead : Json.Decoder.option Json.Decoder.any data =
        .ok (normalized ⟨code, message, some data⟩).data? := by
      cases data <;> rfl
    have others : normalized ⟨code, message, some data⟩ =
        ⟨code, message, (normalized ⟨code, message, some data⟩).data?⟩ := by
      cases data <;> rfl
    rw [others]
    simp [read, fields, Json.Fields.both, Json.Fields.required, Json.Fields.optional,
      Json.Fields.checkMembers, Members.get?, codeRead, dataRead, Json.Decoder.string,
      Except.map, bind, Except.bind, pure, Except.pure]

private theorem isNull_toValue (error : ResponseError) : error.toValue.isNull = false := by
  rw [toValue_eq]
  rfl

end ResponseError

/-! ## Messages -/

namespace Message

/-- Every object in the message has its members in order. -/
def WellFormed : Message → Prop
  | .request _ _ params => params.WellFormed
  | .notification _ params => params.WellFormed
  | .response _ (.ok result) => result.WellFormed
  | .response _ (.error error) => error.WellFormed

/-- The message as a reader of its unit gets it: null data of an error is no data. -/
def normalized : Message → Message
  | .response id (.error error) => .response id (.error error.normalized)
  | message => message

/-- The members of the object that a message is, in order. -/
def orderedMembers : Message → Members
  | .response id (.error error) =>
    [("error", error.toValue), ("id", id.toValue), ("jsonrpc", .string version)]
  | message => message.members

theorem ordered (message : Message) : Members.Ordered message.orderedMembers := by
  apply Members.ordered_of_keys
  cases message with
  | request id method params =>
    simp only [orderedMembers, members, paramsMember]
    split
    · exact (by decide : ["id", "jsonrpc", "method"].Pairwise (· < ·))
    · exact (by decide : ["id", "jsonrpc", "method", "params"].Pairwise (· < ·))
  | notification method params =>
    simp only [orderedMembers, members, paramsMember]
    split
    · exact (by decide : ["jsonrpc", "method"].Pairwise (· < ·))
    · exact (by decide : ["jsonrpc", "method", "params"].Pairwise (· < ·))
  | response id outcome =>
    cases outcome with
    | ok result => exact (by decide : ["id", "jsonrpc", "result"].Pairwise (· < ·))
    | error error => exact (by decide : ["error", "id", "jsonrpc"].Pairwise (· < ·))

theorem toValue_eq (message : Message) : message.toValue = .object message.orderedMembers := by
  cases message with
  | request id method params =>
    exact congrArg _ (Members.ofList_ordered (ordered (.request id method params)))
  | notification method params =>
    exact congrArg _ (Members.ofList_ordered (ordered (.notification method params)))
  | response id outcome =>
    cases outcome with
    | ok result => exact congrArg _ (Members.ofList_ordered (ordered (.response id (.ok result))))
    | error error =>
      simp only [toValue, members, outcomeMember, orderedMembers, Value.ofMembers, Members.ofList,
        List.foldl_cons, List.foldl_nil, Members.insert, String.reduceLT, String.reduceEq, if_true,
        if_false]

theorem toValue_wellFormed {message : Message} (wellFormed : message.WellFormed) :
    message.toValue.WellFormed := by
  rw [toValue_eq]
  refine ⟨ordered message, ?_⟩
  cases message with
  | request id method params =>
    have paramsWellFormed : params.WellFormed := wellFormed
    cases null : params.isNull <;>
      simp [orderedMembers, members, paramsMember, null, Value.MembersWellFormed,
        id.toValue_wellFormed, Value.WellFormed, paramsWellFormed]
  | notification method params =>
    have paramsWellFormed : params.WellFormed := wellFormed
    cases null : params.isNull <;>
      simp [orderedMembers, members, paramsMember, null, Value.MembersWellFormed,
        Value.WellFormed, paramsWellFormed]
  | response id outcome =>
    cases outcome with
    | ok result =>
      exact ⟨id.toValue_wellFormed, trivial, wellFormed, trivial⟩
    | error error =>
      exact ⟨ResponseError.toValue_wellFormed wellFormed, id.toValue_wellFormed, trivial, trivial⟩

private theorem getD_paramsMember (params : Value) :
    (Members.get? (paramsMember params) "params").getD .null = params := by
  cases params <;> rfl

private theorem get?_paramsMember {key : String} (other : "params" ≠ key) (params : Value) :
    Members.get? (paramsMember params) key = none := by
  unfold paramsMember
  split <;> simp [Members.get?, other]

private theorem readOutcome_ok (id : Id) (result : Value) :
    readOutcome id (orderedMembers (.response id (.ok result))) = .ok (.ok result) := by
  simp [readOutcome, orderedMembers, members, outcomeMember, Members.get?]

private theorem readOutcome_error (id : Id) (error : ResponseError) :
    readOutcome id (orderedMembers (.response id (.error error))) =
      .ok (.error error.normalized) := by
  have present : (some error.toValue).filter (!·.isNull) = some error.toValue := by
    simp [Option.filter, error.isNull_toValue]
  simp [readOutcome, readOutcome.readError, orderedMembers, Members.get?, present,
    error.ofValue_toValue]

theorem ofValue_toValue (message : Message) :
    ofValue message.toValue = .ok message.normalized := by
  rw [toValue_eq]
  cases message with
  | request id method params =>
    simp [ofValue, orderedMembers, members, readId, readMethod, Members.get?, id.ofValue_toValue,
      getD_paramsMember, normalized, bind, Except.bind, pure, Except.pure]
  | notification method params =>
    simp [ofValue, orderedMembers, members, readId, readMethod, Members.get?,
      get?_paramsMember, getD_paramsMember, normalized, bind, Except.bind, pure, Except.pure]
  | response id outcome =>
    cases outcome with
    | ok result =>
      have idRead : readId (orderedMembers (.response id (.ok result))) = .ok (some id) := by
        simp [readId, orderedMembers, members, Members.get?, id.ofValue_toValue]
      have methodRead : readMethod (orderedMembers (.response id (.ok result))) = .ok none := by
        simp [readMethod, orderedMembers, members, outcomeMember, Members.get?]
      simp [ofValue, idRead, methodRead, readOutcome_ok, normalized, bind, Except.bind, pure,
        Except.pure]
    | error error =>
      have idRead : readId (orderedMembers (.response id (.error error))) = .ok (some id) := by
        simp [readId, orderedMembers, Members.get?, id.ofValue_toValue]
      have methodRead : readMethod (orderedMembers (.response id (.error error))) = .ok none := by
        simp [readMethod, orderedMembers, Members.get?]
      simp [ofValue, idRead, methodRead, readOutcome_error, normalized, bind, Except.bind, pure,
        Except.pure]

end Message

/-! ## Doubles replaced -/

section

variable (f : Double → Double)

private theorem Id.mapDoubles_toValue (id : Id) : id.toValue.mapDoubles f = id.toValue := by
  cases id <;> rfl

theorem Value.isNull_mapDoubles (value : Value) : (value.mapDoubles f).isNull = value.isNull := by
  cases value with
  | number n => cases n <;> rfl
  | null | bool _ | string _ | array _ | object _ => rfl

def ResponseError.mapDoubles (error : ResponseError) : ResponseError :=
  { error with data? := error.data?.map (Value.mapDoubles f) }

private theorem ResponseError.toValue_mapDoubles (error : ResponseError) :
    (error.mapDoubles f).toValue = error.toValue.mapDoubles f := by
  obtain ⟨code, message, data?⟩ := error
  rw [toValue_eq, toValue_eq]
  cases data? <;> rfl

namespace Message

def mapDoubles : Message → Message
  | .request id method params => .request id method (params.mapDoubles f)
  | .notification method params => .notification method (params.mapDoubles f)
  | .response id (.ok result) => .response id (.ok (result.mapDoubles f))
  | .response id (.error error) => .response id (.error (error.mapDoubles f))

private theorem paramsMember_mapDoubles (params : Value) :
    paramsMember (params.mapDoubles f) = Value.mapDoublesOfMembers f (paramsMember params) := by
  rw [paramsMember, paramsMember, params.isNull_mapDoubles f]
  split <;> rfl

theorem toValue_mapDoubles (message : Message) :
    (message.mapDoubles f).toValue = message.toValue.mapDoubles f := by
  rw [toValue_eq, toValue_eq]
  simp only [Value.mapDoubles, Value.object.injEq]
  cases message with
  | request id method params =>
    simp only [mapDoubles, orderedMembers, members, paramsMember_mapDoubles, List.cons_append,
      List.nil_append, Value.mapDoublesOfMembers, id.mapDoubles_toValue, Value.mapDoubles]
  | notification method params =>
    simp only [mapDoubles, orderedMembers, members, paramsMember_mapDoubles, List.cons_append,
      List.nil_append, Value.mapDoublesOfMembers, Value.mapDoubles]
  | response id outcome =>
    cases outcome <;>
      simp only [mapDoubles, orderedMembers, members, outcomeMember, Value.mapDoublesOfMembers,
        id.mapDoubles_toValue, ResponseError.toValue_mapDoubles, Value.mapDoubles]

end Message

end

end Airlock
