import Airlock.Rpc.Id
import Airlock.Rpc.ResponseError

/-!
# Messages

The kind of a message is told by the fields that are present: an id and a method make a request, a
method alone a notification, an id with a result or an error a response. Params and results are
values that this layer never looks into. Writing leaves null params out; reading takes absent params
as null.
-/

set_option autoImplicit false

namespace Airlock

/-- One message; a unit carries exactly one. -/
inductive Message where
  | request (id : Id) (method : String) (params : Value)
  | notification (method : String) (params : Value)
  | response (id : Id) (outcome : Outcome)

namespace Message

def version : String := "2.0"

def paramsMember (params : Value) : List (String × Value) :=
  if params.isNull then [] else [("params", params)]

def outcomeMember : Outcome → String × Value
  | .ok result => ("result", result)
  | .error error => ("error", error.toValue)

/-- The members of a message, in increasing order of keys but for the outcome. -/
def members : Message → List (String × Value)
  | .request id method params =>
    [("id", id.toValue), ("jsonrpc", .string version), ("method", .string method)]
      ++ paramsMember params
  | .notification method params =>
    [("jsonrpc", .string version), ("method", .string method)] ++ paramsMember params
  | .response id outcome =>
    [("id", id.toValue), ("jsonrpc", .string version), outcomeMember outcome]

def toValue (message : Message) : Value :=
  Value.ofMembers message.members

inductive ShapeFault where
  | notObject (kind : String)
  | badId (reason : Id.ReadError)
  | badMethod (kind : String)
  | resultAndError (id : Id)
  | badError (reason : Json.ShapeError)
  | noOutcome (id : Id)
  | neither

def ShapeFault.message : ShapeFault → String
  | .notObject kind => "expected an object, got " ++ kind
  | .badId reason => reason.message
  | .badMethod kind => "method must be a string, got " ++ kind
  | .resultAndError id => "response " ++ id.display ++ " carries both result and error"
  | .badError reason => "invalid error object: " ++ reason.message
  | .noOutcome id => "response " ++ id.display ++ " has neither result nor error"
  | .neither => "neither id nor method present"

def readId (members : Members) : Except ShapeFault (Option Id) :=
  match Members.get? members "id" with
  | none => .ok none
  | some value =>
    match Id.ofValue value with
    | .ok id => .ok (some id)
    | .error reason => .error (.badId reason)

def readMethod (members : Members) : Except ShapeFault (Option String) :=
  match Members.get? members "method" with
  | none => .ok none
  | some (.string method) => .ok (some method)
  | some other => .error (.badMethod other.kind)

/-- The outcome of a response. An error that is null counts as absent; beside an error a result has
to be null. -/
def readOutcome (id : Id) (members : Members) : Except ShapeFault Outcome :=
  let error? := (Members.get? members "error").filter (!·.isNull)
  match Members.get? members "result", error? with
  | some result, some error =>
    if result.isNull then readError error else .error (.resultAndError id)
  | none, some error => readError error
  | some result, none => .ok (.ok result)
  | none, none => .error (.noOutcome id)
where
  readError (error : Value) : Except ShapeFault Outcome :=
    match ResponseError.ofValue error with
    | .ok error => .ok (.error error)
    | .error reason => .error (.badError reason)

/-- Reads a message by the fields that a value has. The id is judged first, then the method. -/
def ofValue : Value → Except ShapeFault Message
  | .object members => do
    let id? ← readId members
    let method? ← readMethod members
    let params := (Members.get? members "params").getD .null
    match id?, method? with
    | some id, some method => return .request id method params
    | none, some method => return .notification method params
    | some id, none => return .response id (← readOutcome id members)
    | none, none => throw .neither
  | other => .error (.notObject other.kind)

def method? : Message → Option String
  | .request _ method _ => some method
  | .notification method _ => some method
  | .response _ _ => none

end Message

end Airlock
