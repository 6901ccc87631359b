import Airlock.Codec.Basic
import Airlock.Proofs.Json.Within

/-!
# Messages told apart by their fields

An object is read as a request, a notification, a result or a failure, and which it is depends on
the fields it has and on no others. The conditions below exclude each other, and an object that
meets none of them is refused for its shape, as is every value that is no object.
-/

set_option autoImplicit false

namespace Airlock

/-! ## Fields -/

/-- The value is an identifier: a string, or an integer that fits in 64 bits with a sign. -/
inductive Value.Identifies : Value → Id → Prop where
  | string (s : String) : Identifies (.string s) (.string s)
  | number {n : Integer} {k : Int64} (low : -0x8000000000000000 ≤ n.val)
      (high : n.val ≤ 0x7FFFFFFFFFFFFFFF) (same : k.toInt = n.val) :
      Identifies (.number (.integer n)) (.number k)

namespace Members

def Identified (members : Members) (id : Id) : Prop :=
  ∃ value, members.get? "id" = some value ∧ value.Identifies id

def Named (members : Members) (method : String) : Prop :=
  members.get? "method" = some (.string method)

/-- The field is absent, or it is null. -/
def Void (members : Members) (key : String) : Prop :=
  ∀ value ∈ members.get? key, value = .null

def params (members : Members) : Value :=
  (members.get? "params").getD .null

/-- The message that an object is, by the fields it has. -/
inductive Shows (members : Members) : Message → Prop where
  | request {id method} (identified : members.Identified id) (named : members.Named method) :
      Shows members (.request id method members.params)
  | notification {method} (anonymous : members.get? "id" = none) (named : members.Named method) :
      Shows members (.notification method members.params)
  | result {id result} (identified : members.Identified id)
      (unnamed : members.get? "method" = none) (given : members.get? "result" = some result)
      (unfailed : members.Void "error") : Shows members (.response id (.ok result))
  | failure {id value error} (identified : members.Identified id)
      (unnamed : members.get? "method" = none) (given : members.get? "error" = some value)
      (real : value ≠ .null) (read : ResponseError.ofValue value = .ok error)
      (unanswered : members.Void "result") : Shows members (.response id (.error error))

/-- Two objects have the same id and the same method, and then the same in the fields that objects
of their kind are read by. Nothing is asked of other fields. -/
structure Agree (first second : Members) : Prop where
  id : first.get? "id" = second.get? "id"
  method : first.get? "method" = second.get? "method"
  params : first.get? "method" ≠ none → first.get? "params" = second.get? "params"
  result : first.get? "id" ≠ none → first.get? "method" = none →
    first.get? "result" = second.get? "result"
  error : first.get? "id" ≠ none → first.get? "method" = none →
    first.get? "error" = second.get? "error"

end Members

/-! ## Reading the fields -/

private theorem Integer.toInt64?_eq_some_iff {n : Integer} {k : Int64} :
    n.toInt64? = some k ↔ n.val ≤ 0x7FFFFFFFFFFFFFFF ∧ k.toInt = n.val := by
  have low := n.inRange.1
  unfold toInt64?
  constructor
  · intro held
    split at held
    · rename_i high
      cases held
      exact ⟨by omega, Int64.toInt_ofInt_of_le low (by omega)⟩
    · cases held
  · rintro ⟨high, same⟩
    rw [if_pos (by omega), ← same, Int64.ofInt_toInt]

private theorem Id.ofValue_eq_ok_iff {value : Value} {id : Id} :
    ofValue value = .ok id ↔ value.Identifies id := by
  constructor
  · intro read
    unfold ofValue at read
    split at read
    case h_1 n =>
      split at read
      · rename_i k held
        cases read
        obtain ⟨high, same⟩ := Integer.toInt64?_eq_some_iff.mp held
        exact .number n.inRange.1 high same
      · cases read
    case h_2 => cases read
    case h_3 s =>
      cases read
      exact .string s
    case h_4 => cases read
  · intro identifies
    cases identifies with
    | string s => rfl
    | number low high same =>
      simp only [ofValue, Integer.toInt64?_eq_some_iff.mpr ⟨high, same⟩]

namespace Message

variable {members : Members} {id : Id}

private theorem readId_eq_none_iff : readId members = .ok none ↔ members.get? "id" = none := by
  unfold readId
  cases members.get? "id" with
  | none => simp
  | some value =>
    dsimp only
    cases Id.ofValue value <;> simp

private theorem readId_eq_some_iff : readId members = .ok (some id) ↔ members.Identified id := by
  unfold readId Members.Identified
  cases members.get? "id" with
  | none => simp
  | some value =>
    simp only [Option.some.injEq, exists_eq_left', ← Id.ofValue_eq_ok_iff]
    cases Id.ofValue value <;> simp

private theorem readMethod_eq_none_iff :
    readMethod members = .ok none ↔ members.get? "method" = none := by
  unfold readMethod
  split <;> simp_all

private theorem readMethod_eq_some_iff {method : String} :
    readMethod members = .ok (some method) ↔ members.Named method := by
  unfold readMethod Members.Named
  split <;> simp_all

/-! ## Reading the outcome -/

private theorem readError_eq_ok_iff {value : Value} {outcome : Outcome} :
    readOutcome.readError value = .ok outcome ↔
      ∃ error, ResponseError.ofValue value = .ok error ∧ outcome = .error error := by
  unfold readOutcome.readError
  cases ResponseError.ofValue value with
  | error reason => simp
  | ok error => simp [eq_comm]

private theorem filter_eq_none_iff {key : String} :
    (members.get? key).filter (!·.isNull) = none ↔ members.Void key := by
  rw [Option.filter_eq_none_iff]
  refine forall₂_congr fun value _ => ?_
  cases value <;> simp [Value.isNull]

private theorem filter_eq_some_iff {key : String} {value : Value} :
    (members.get? key).filter (!·.isNull) = some value ↔
      members.get? key = some value ∧ value ≠ .null := by
  rw [Option.filter_eq_some_iff]
  refine and_congr_right fun _ => ?_
  cases value <;> simp [Value.isNull]

private theorem readOutcome_eq_ok_iff {result : Value} :
    readOutcome id members = .ok (.ok result) ↔
      members.get? "result" = some result ∧ members.Void "error" := by
  rw [← filter_eq_none_iff]
  unfold readOutcome
  cases members.get? "result" with
  | none =>
    cases (members.get? "error").filter (!·.isNull) with
    | none => simp
    | some failure => simp [readError_eq_ok_iff]
  | some found =>
    cases (members.get? "error").filter (!·.isNull) with
    | none => simp
    | some failure =>
      dsimp only
      split <;> simp [readError_eq_ok_iff]

private theorem readOutcome_eq_error_iff {error : ResponseError} :
    readOutcome id members = .ok (.error error) ↔
      ∃ value, members.get? "error" = some value ∧ value ≠ .null ∧
        ResponseError.ofValue value = .ok error ∧ members.Void "result" := by
  simp only [← and_assoc, ← filter_eq_some_iff]
  unfold readOutcome Members.Void
  cases members.get? "result" with
  | none =>
    cases (members.get? "error").filter (!·.isNull) with
    | none => simp
    | some failure => simp [readError_eq_ok_iff]
  | some found =>
    cases (members.get? "error").filter (!·.isNull) with
    | none => simp
    | some failure =>
      cases found <;> simp [Value.isNull, readError_eq_ok_iff]

/-! ## Reading the message -/

private theorem ofValue_eq_ok_iff {value : Value} {message : Message} :
    ofValue value = .ok message ↔ ∃ members : Members, value = .object members ∧
      members.Shows message := by
  constructor
  · intro read
    cases value with
    | object members =>
      refine ⟨members, rfl, ?_⟩
      obtain ⟨id?, identified, read⟩ := ok_of_bind read
      obtain ⟨method?, named, read⟩ := ok_of_bind read
      match id?, method? with
      | some id, some method =>
        cases read
        exact .request (readId_eq_some_iff.mp identified) (readMethod_eq_some_iff.mp named)
      | none, some method =>
        cases read
        exact .notification (readId_eq_none_iff.mp identified) (readMethod_eq_some_iff.mp named)
      | some id, none =>
        obtain ⟨outcome, come, read⟩ := ok_of_bind read
        cases read
        have identified := readId_eq_some_iff.mp identified
        have unnamed := readMethod_eq_none_iff.mp named
        cases outcome with
        | ok result =>
          obtain ⟨given, unfailed⟩ := readOutcome_eq_ok_iff.mp come
          exact .result identified unnamed given unfailed
        | error error =>
          obtain ⟨value, given, real, read, unanswered⟩ := readOutcome_eq_error_iff.mp come
          exact .failure identified unnamed given real read unanswered
      | none, none => cases read
    | null | bool _ | number _ | string _ | array _ => cases read
  · rintro ⟨members, rfl, shows⟩
    cases shows with
    | request identified named =>
      simp only [ofValue, readId_eq_some_iff.mpr identified, readMethod_eq_some_iff.mpr named]
      rfl
    | notification anonymous named =>
      simp only [ofValue, readId_eq_none_iff.mpr anonymous, readMethod_eq_some_iff.mpr named]
      rfl
    | result identified unnamed given unfailed =>
      simp only [ofValue, readId_eq_some_iff.mpr identified, readMethod_eq_none_iff.mpr unnamed]
      change (readOutcome _ members >>= _) = _
      rw [readOutcome_eq_ok_iff.mpr ⟨given, unfailed⟩]
      rfl
    | failure identified unnamed given real read unanswered =>
      simp only [ofValue, readId_eq_some_iff.mpr identified, readMethod_eq_none_iff.mpr unnamed]
      change (readOutcome _ members >>= _) = _
      rw [readOutcome_eq_error_iff.mpr ⟨_, given, real, read, unanswered⟩]
      rfl

/-- Nothing but the id, the method and the fields of its kind counts for what an object is, nor for
why it is refused. -/
theorem ofValue_agree {first second : Members} (agree : first.Agree second) :
    ofValue (.object first) = ofValue (.object second) := by
  have identified : readId first = readId second := by
    unfold readId
    rw [agree.id]
  have named : readMethod first = readMethod second := by
    unfold readMethod
    rw [agree.method]
  simp only [ofValue, ← identified, ← named]
  rcases identity : readId first with reason | id?
  · rfl
  rcases name : readMethod first with reason | method?
  · rfl
  match id?, method? with
  | id?, some method =>
    have present : first.get? "method" ≠ none := by
      rw [readMethod_eq_some_iff.mp name]
      exact Option.some_ne_none _
    rw [agree.params present]
    cases id? <;> rfl
  | none, none => rfl
  | some id, none =>
    have unnamed := readMethod_eq_none_iff.mp name
    have present : first.get? "id" ≠ none := by
      obtain ⟨value, held, -⟩ := readId_eq_some_iff.mp identity
      rw [held]
      exact Option.some_ne_none _
    have outcome : readOutcome id first = readOutcome id second := by
      unfold readOutcome
      rw [agree.result present unnamed, agree.error present unnamed]
    change (readOutcome id first >>= _) = (readOutcome id second >>= _)
    rw [outcome]

end Message

namespace Codec

private theorem readMessage_eq_ok_iff {value : Value} {message : Message} :
    readMessage value = .ok message ↔
      ∃ members : Members, value = .object members ∧ members.Shows message := by
  rw [← Message.ofValue_eq_ok_iff, readMessage]
  cases Message.ofValue value with
  | ok read =>
    constructor
    · rintro ⟨⟩
      rfl
    · rintro ⟨⟩
      rfl
  | error fault =>
    constructor
    · rintro ⟨⟩
    · rintro ⟨⟩

private theorem readMessage_cases (value : Value) :
    (∃ message, readMessage value = .ok message) ∨
      ∃ reason, readMessage value = .error (.shape reason) := by
  unfold readMessage
  cases Message.ofValue value with
  | ok message => exact .inl ⟨message, rfl⟩
  | error fault => exact .inr ⟨fault.message, rfl⟩

/-- A value is read as the message that it shows, and refused for its shape exactly if it shows
none. What it shows is told by the id, the method and the fields of its kind: objects that agree on
these are read alike, whatever else they hold. -/
theorem readMessage_by_presence (value : Value) :
    (∀ message, readMessage value = .ok message ↔
      ∃ members : Members, value = .object members ∧ members.Shows message) ∧
    ((∃ reason, readMessage value = .error (.shape reason)) ↔
      ∀ members : Members, value = .object members → ∀ message, ¬ members.Shows message) ∧
    ∀ first second : Members, first.Agree second →
      readMessage (.object first) = readMessage (.object second) := by
  refine ⟨fun message => readMessage_eq_ok_iff, ?_, ?_⟩
  · constructor
    · rintro ⟨reason, refused⟩ members rfl message shows
      rw [readMessage_eq_ok_iff.mpr ⟨members, rfl, shows⟩] at refused
      cases refused
    · intro shapeless
      rcases readMessage_cases value with ⟨message, read⟩ | refused
      · obtain ⟨members, object, shows⟩ := readMessage_eq_ok_iff.mp read
        exact absurd shows (shapeless members object message)
      · exact refused
  · intro first second agree
    rw [readMessage, readMessage, Message.ofValue_agree agree]

end Codec

end Airlock
