import Airlock.Json.Shape

/-!
# Identifiers of requests

An identifier is a signed 64-bit integer or a string. A number and the string of its digits are
different identifiers. Numbers come before strings in the order of identifiers.
-/

set_option autoImplicit false

namespace Airlock

inductive Id where
  | number (n : Int64)
  | string (s : String)
  deriving DecidableEq

namespace Id

def toValue : Id → Value
  | .number n => .number (.integer (.ofInt64 n))
  | .string s => .string s

def display : Id → String
  | .number n => toString n.toInt
  | .string s => String.ofList (Text.quoted s.toList)

def precedes : Id → Id → Bool
  | .number a, .number b => a < b
  | .number _, .string _ => true
  | .string _, .number _ => false
  | .string a, .string b => a < b

/-- Puts an identifier in its place among ordered ones, once. -/
def insertOrdered (id : Id) : List Id → List Id
  | [] => [id]
  | head :: rest =>
    if id = head then head :: rest
    else if id.precedes head then id :: head :: rest
    else head :: insertOrdered id rest

def sort (ids : List Id) : List Id :=
  ids.foldl (fun held id => id.insertOrdered held) []

inductive ReadError where
  | notInteger (n : Number)
  | wrongKind (kind : String)

def ReadError.message : ReadError → String
  | .notInteger n => "id " ++ String.ofList n.text ++ " is not an integer"
  | .wrongKind kind => "id must be a number or string, got " ++ kind

/-- Reads an identifier. A number is one only as an integer that fits in 64 bits with a sign. -/
def ofValue : Value → Except ReadError Id
  | .number (.integer n) =>
    match n.toInt64? with
    | some held => .ok (.number held)
    | none => .error (.notInteger (.integer n))
  | .number (.double d) => .error (.notInteger (.double d))
  | .string s => .ok (.string s)
  | other => .error (.wrongKind other.kind)

end Id

end Airlock
