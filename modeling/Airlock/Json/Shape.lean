import Airlock.Json.Value
import Airlock.Text.Quoted

/-!
# Values of an expected shape

A shape is read out of a value by a `Decoder`. Records are read from an object or from an array that
holds the fields in their order. Of several errors in an object the one under the least key counts,
and a field that is missing counts after all fields that are there; unknown keys are ignored. In an
array the first error counts, and items beyond the last field are found last.
-/

set_option autoImplicit false

namespace Airlock.Json

/-- What was found where something else was expected. -/
inductive Found where
  | null
  | bool (b : Bool)
  | number (n : Number)
  | string (s : String)
  | sequence
  | map

def Found.ofValue : Value → Found
  | .null => .null
  | .bool b => .bool b
  | .number n => .number n
  | .string s => .string s
  | .array _ => .sequence
  | .object _ => .map

def Found.message : Found → String
  | .null => "null"
  | .bool b => "boolean `" ++ (if b then "true" else "false") ++ "`"
  | .number (.integer n) => "integer `" ++ String.ofList n.text ++ "`"
  | .number (.double d) => "floating point `" ++ String.ofList d.text ++ "`"
  | .string s => "string " ++ String.ofList (Text.quoted s.toList)
  | .sequence => "sequence"
  | .map => "map"

/-- Why a value has not the expected shape. -/
inductive ShapeError where
  | invalidType (found : Found) (expected : String)
  | invalidValue (found : Found) (expected : String)
  | invalidLength (length : Nat) (expected : String)
  | missingField (name : String)
  | duplicateField (name : String)
  | unknownVariant (name : String) (expected : String)

def ShapeError.message : ShapeError → String
  | .invalidType found expected => "invalid type: " ++ found.message ++ ", expected " ++ expected
  | .invalidValue found expected => "invalid value: " ++ found.message ++ ", expected " ++ expected
  | .invalidLength length expected =>
    "invalid length " ++ toString length ++ ", expected " ++ expected
  | .missingField name => "missing field `" ++ name ++ "`"
  | .duplicateField name => "duplicate field `" ++ name ++ "`"
  | .unknownVariant name expected => "unknown variant `" ++ name ++ "`, expected " ++ expected

/-- Reads a shape out of a value. -/
abbrev Decoder (α : Type) := Value → Except ShapeError α

namespace Decoder

/-- A value of a kind that the shape does not allow. -/
def unexpected {α : Type} (value : Value) (expected : String) : Except ShapeError α :=
  .error (.invalidType (.ofValue value) expected)

def string : Decoder String
  | .string s => .ok s
  | other => unexpected other "a string"

def any : Decoder Value := .ok

/-- A signed 64-bit integer; a double never is one. -/
def int64 : Decoder Int64
  | .number (.integer n) =>
    match n.toInt64? with
    | some held => .ok held
    | none => .error (.invalidValue (.number (.integer n)) "i64")
  | other => unexpected other "i64"

/-- An unsigned 64-bit integer; a double never is one. -/
def size : Decoder UInt64
  | .number (.integer n) =>
    match n.toUInt64? with
    | some held => .ok held
    | none => .error (.invalidValue (.number (.integer n)) "usize")
  | other => unexpected other "usize"

def option {α : Type} (decoder : Decoder α) : Decoder (Option α)
  | .null => .ok none
  | value => (decoder value).map some

def list {α : Type} (decoder : Decoder α) : Decoder (List α)
  | .array items => items.mapM decoder
  | other => unexpected other "a sequence"

/-- The null, where a record without fields is expected. -/
def unit (name : String) : Decoder Unit
  | .null => .ok ()
  | other => unexpected other ("unit struct " ++ name)

end Decoder

/-- A field of a record: its key, the test of its value, and whether it may be absent. -/
structure Field where
  name : String
  check : Value → Except ShapeError Unit
  optional : Bool

/-- The fields of a record in their order, and how their values make up the record. -/
structure Fields (α : Type) where
  fields : List Field
  build : (String → Option Value) → Except ShapeError α

namespace Fields

def required {α : Type} (name : String) (decoder : Decoder α) : Fields α where
  fields := [⟨name, fun value => (decoder value).map fun _ => (), false⟩]
  build held :=
    match held name with
    | some value => decoder value
    | none => .error (.missingField name)

def optional {α : Type} (name : String) (decoder : Decoder α) (default : α) : Fields α where
  fields := [⟨name, fun value => (decoder value).map fun _ => (), true⟩]
  build held :=
    match held name with
    | some value => decoder value
    | none => .ok default

def both {α β γ : Type} (first : Fields α) (second : Fields β) (combine : α → β → γ) :
    Fields γ where
  fields := first.fields ++ second.fields
  build held := do return combine (← first.build held) (← second.build held)

def map {α β : Type} (f : α → β) (inner : Fields α) : Fields β where
  fields := inner.fields
  build held := (inner.build held).map f

def none {α : Type} (value : α) : Fields α where
  fields := []
  build _ := .ok value

/-- How a record is named where an array holds too few items for it. -/
def expectedElements (name : String) (count : Nat) : String :=
  "struct " ++ name ++ " with " ++ toString count ++ (if count = 1 then " element" else " elements")

def checkMembers (fields : List Field) : Members → Except ShapeError Unit
  | [] => .ok ()
  | (key, value) :: rest =>
    match fields.find? (·.name = key) with
    | some field =>
      match field.check value with
      | .error e => .error e
      | .ok () => checkMembers fields rest
    | .none => checkMembers fields rest

/-- Tests the items of an array against the fields from number `index` on. -/
def checkItems (expected : String) (length : Nat) (index : Nat) :
    List Field → List Value → Except ShapeError Unit
  | [], [] => .ok ()
  | [], _ :: _ => .error (.invalidLength length "fewer elements in array")
  | field :: fields, [] =>
    if field.optional then checkItems expected length (index + 1) fields []
    else .error (.invalidLength index expected)
  | field :: fields, item :: items =>
    match field.check item with
    | .error e => .error e
    | .ok () => checkItems expected length (index + 1) fields items

def read {α : Type} (name : String) (record : Fields α) : Decoder α
  | .object members => do
    checkMembers record.fields members
    record.build (Members.get? members)
  | .array items => do
    checkItems (expectedElements name record.fields.length) items.length 0 record.fields items
    record.build fun key => ((record.fields.map (·.name)).zip items).lookup key
  | other => Decoder.unexpected other ("struct " ++ name)

end Fields

/-- The names that one of several variants may be given by, with the wording for any other name. -/
structure Variants (α : Type) where
  names : List (String × α)
  expected : String

/-- Reads the name of a variant, or an object whose one key is the name and whose value is null. -/
def Variants.read {α : Type} (variants : Variants α) : Decoder α
  | .string name => find name
  | .object [(name, value)] => do
    let found ← find name
    match value with
    | .null => .ok found
    | other => Decoder.unexpected other "unit"
  | .object _ => .error (.invalidValue .map "map with a single key")
  | other => Decoder.unexpected other "string or map"
where
  find (name : String) : Except ShapeError α :=
    match variants.names.lookup name with
    | some found => .ok found
    | none => .error (.unknownVariant name variants.expected)

end Airlock.Json
