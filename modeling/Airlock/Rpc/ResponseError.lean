import Airlock.Json.Shape

/-!
# Error objects of failed responses

An error object has a code, a message and, when there is more to say, data. Data can be present and
null; reading an error object whose data is null gives no data.
-/

set_option autoImplicit false

namespace Airlock

structure ResponseError where
  code : Int64
  message : String
  data? : Option Value

namespace ResponseError

def methodNotFoundCode : Int64 := -32601

def invalidParamsCode : Int64 := -32602

def internalCode : Int64 := -32603

def ofCode (code : Int64) (message : String) : ResponseError :=
  ⟨code, message, none⟩

def withData (error : ResponseError) (data : Value) : ResponseError :=
  { error with data? := some data }

def methodNotFound (method : String) : ResponseError :=
  ofCode methodNotFoundCode ("unknown method: " ++ method)

def invalidParams (reason : String) : ResponseError :=
  ofCode invalidParamsCode ("invalid params: " ++ reason)

def internal (reason : String) : ResponseError :=
  ofCode internalCode reason

def unwritable (reason : String) : ResponseError :=
  internal ("failed to encode result: " ++ reason)

def display (error : ResponseError) : String :=
  error.message ++ " (code " ++ toString error.code.toInt ++ ")"

/-- The members of the error object in the order code, message, data. -/
def members (error : ResponseError) : List (String × Value) :=
  [("code", .number (.integer (.ofInt64 error.code))), ("message", .string error.message)]
    ++ (match error.data? with
      | some data => [("data", data)]
      | none => [])

def toValue (error : ResponseError) : Value :=
  Value.ofMembers error.members

def fields : Json.Fields ResponseError :=
  .both (.both (.required "code" Json.Decoder.int64) (.required "message" Json.Decoder.string)
      fun code message => (code, message))
    (.optional "data" (Json.Decoder.option Json.Decoder.any) none)
    fun (code, message) data? => ⟨code, message, data?⟩

def ofValue : Json.Decoder ResponseError :=
  fields.read "ResponseError"

/-- The error object without null data, as a reader of it gets it. -/
def normalized (error : ResponseError) : ResponseError :=
  match error.data? with
  | some .null => { error with data? := none }
  | _ => error

end ResponseError

/-- What a request comes to: a result, or an error object. -/
abbrev Outcome := Except ResponseError Value

end Airlock
