import Airlock.Handlers

/-!
# A core for trying out handlers

The core shows each way in which a handler can answer: it reads params of a shape, hands them back,
fails, raises an error object that the caller chose, cannot write its result down, and keeps one
value from call to call.
-/

set_option autoImplicit false

namespace Airlock.Probe

open Json

def numberDecoder : Decoder Int64 :=
  (Fields.required "value" Decoder.int64).read "Double"

def double? (n : Int64) : Option Int64 :=
  let doubled := n.toInt * 2
  if Int64.minValue.toInt ≤ doubled ∧ doubled ≤ Int64.maxValue.toInt then some (Int64.ofInt doubled)
  else none

def double : Handler Value :=
  Handler.typed numberDecoder fun n slot =>
    match double? n with
    | some doubled => (.ok (.number (.integer (.ofInt64 doubled))), slot)
    | none => (.error (.internal "overflow"), slot)

def noFieldsDecoder : Decoder Unit :=
  (Fields.none ()).read "BadKeys"

/-- The value of a table, whose keys have to be strings. -/
def encodeTable (table : List (Value × Value)) : Except String Value := do
  let members ← table.mapM fun
    | (.string key, value) => pure (key, value)
    | _ => throw "key must be a string"
  return .ofMembers members

def unwritable : Handler Value :=
  Handler.typed noFieldsDecoder fun _ slot =>
    match encodeTable [(.array [.ofNat 1], .ofNat 2)] with
    | .ok value => (.ok value, slot)
    | .error reason => (.error (.unwritable reason), slot)

def echo : Handler Value := fun params slot =>
  (.ok params, slot)

/-- Answers null; a later handler takes its place. -/
def silent : Handler Value := fun _ slot =>
  (.ok .null, slot)

def fail : Handler Value := fun _ slot =>
  (.error (.internal "nope"), slot)

def raise : Handler Value :=
  Handler.typed ResponseError.ofValue fun error slot => (.error error, slot)

def set : Handler Value := fun params slot =>
  (.ok slot, params)

def get : Handler Value := fun _ slot =>
  (.ok slot, slot)

/-- The handlers of the core. Its state is the stored value, null at first. -/
def handlers : Handlers Value :=
  Handlers.empty
    |>.insert "test/double" double
    |>.insert "test/badkeys" unwritable
    |>.insert "test/echo" silent
    |>.insert "test/echo" echo
    |>.insert "test/fail" fail
    |>.insert "test/raise" raise
    |>.insert "test/set" set
    |>.insert "test/get" get

end Airlock.Probe
