import Airlock.Json.Shape
import Airlock.Json.Skip

/-!
# Entries of a script

An entry is one message to send: a method, params, and whether it goes out as a notification. Its
text is an object, or an array of the fields in that order. The text is judged from left to right,
so of several faults the first one counts, be it of grammar or of shape. A fault of shape stands
behind the value of the wrong type; one that concerns the whole object stands behind what may close
it.
-/

set_option autoImplicit false

namespace Airlock.Script

open Airlock.Json

structure Entry where
  method : String
  params : Value
  notify : Bool

/-- Why a text is no entry: its grammar, or a wrong shape in front of `rest`. -/
inductive EntryFault where
  | grammar (fault : Json.Fault)
  | shape (error : ShapeError) (rest : Bytes)

def EntryFault.message (input : Bytes) : EntryFault → String
  | .grammar fault => fault.message input
  | .shape error rest => error.message ++ (Position.before input rest).suffix

def skipBlanks (bytes : Bytes) : Bytes :=
  bytes.dropWhile isBlankByte

/-- A fault of grammar behind the first byte of `bytes`; at the end of the text there is none. -/
def grammarAt {α : Type} (cause : Cause) (bytes : Bytes) : Except EntryFault α :=
  .error (.grammar ⟨cause, bytes.drop 1⟩)

/-- A result of the reader of values, with its fault as one of grammar. -/
def ofReader {α : Type} (result : Except Json.Fault α) : Except EntryFault α :=
  result.mapError .grammar

/-- A value of a type that is not expected. A container is at fault as such and is not read. -/
def mismatch {α : Type} (expected : String) (bytes : Bytes) : Except EntryFault α :=
  match bytes with
  | [] => .error (.grammar ⟨.endInValue, []⟩)
  | b :: _ =>
    if b = byte '[' then .error (.shape (.invalidType .sequence expected) bytes)
    else if b = byte '\x7b' then .error (.shape (.invalidType .map expected) bytes)
    else
      match readValue 0 bytes with
      | .ok (value, rest) => .error (.shape (.invalidType (.ofValue value) expected) rest)
      | .error fault => .error (.grammar fault)

def readString (bytes : Bytes) : Except EntryFault (String × Bytes) :=
  match skipBlanks bytes with
  | [] => grammarAt .endInValue []
  | b :: rest =>
    if b = byte '"' then ofReader (readText rest) else mismatch "a string" (b :: rest)

def readFlag (bytes : Bytes) : Except EntryFault (Bool × Bytes) :=
  match skipBlanks bytes with
  | [] => grammarAt .endInValue []
  | b :: rest =>
    if b = byte 't' || b = byte 'f' then
      (ofReader (readValue 1 (b :: rest))).map fun
        | (.bool flag, rest) => (flag, rest)
        | (_, rest) => (false, rest)
    else mismatch "a boolean" (b :: rest)

structure Draft where
  method? : Option String := none
  params? : Option Value := none
  notify? : Option Bool := none

/-- The entry of a draft, if it has a method. -/
def Draft.entry? (draft : Draft) : Option Entry :=
  draft.method?.map fun method =>
    ⟨method, draft.params?.getD .null, draft.notify?.getD false⟩

def Draft.has (draft : Draft) (name : String) : Bool :=
  (name = "method" && draft.method?.isSome) || (name = "params" && draft.params?.isSome)
    || (name = "notify" && draft.notify?.isSome)

/-- The value of the field of that name; the value of an unknown name is passed over. -/
def Draft.readField (draft : Draft) (name : String) (bytes : Bytes) :
    Except EntryFault (Draft × Bytes) :=
  if name = "method" then
    (readString bytes).map fun (method, rest) => ({ draft with method? := some method }, rest)
  else if name = "params" then
    (ofReader (readValue 1 bytes)).map fun (params, rest) =>
      ({ draft with params? := some params }, rest)
  else if name = "notify" then
    (readFlag bytes).map fun (notify, rest) => ({ draft with notify? := some notify }, rest)
  else (ofReader (skipValue bytes)).map fun rest => (draft, rest)

/-- The bytes behind a closing byte, if that is what follows the blanks; else behind the blanks. -/
def behindClosing (closing : UInt8) (bytes : Bytes) : Bytes :=
  match skipBlanks bytes with
  | [] => []
  | b :: rest => if b = closing then rest else b :: rest

/-! ## The object form -/

/-- The opening quote of the next key: what follows it, or nothing at the closing brace. -/
def nextKey (first : Bool) (bytes : Bytes) : Except EntryFault (Option Bytes) :=
  match skipBlanks bytes with
  | [] => grammarAt .endInObject []
  | b :: rest =>
    if b = byte '\x7d' then .ok none
    else if first then
      if b = byte '"' then .ok (some rest) else grammarAt .keyMustBeString (b :: rest)
    else if b = byte ',' then
      match skipBlanks rest with
      | [] => grammarAt .endInValue []
      | c :: behind =>
        if c = byte '"' then .ok (some behind)
        else if c = byte '\x7d' then grammarAt .trailingComma (c :: behind)
        else grammarAt .keyMustBeString (c :: behind)
    else grammarAt .expectedObjectCommaOrEnd (b :: rest)

def readColon (bytes : Bytes) : Except EntryFault Bytes :=
  match skipBlanks bytes with
  | [] => grammarAt .endInObject []
  | b :: rest => if b = byte ':' then .ok rest else grammarAt .expectedColon (b :: rest)

/-- The members of an entry. Each round takes at least the two quotes of a key, so the length of the
text bounds their number. -/
def readMembers (draft : Draft) (first : Bool) : Nat → Bytes → Except EntryFault (Entry × Bytes)
  | 0, bytes => .error (.grammar ⟨.endInObject, bytes⟩)
  | bound + 1, bytes => do
    match ← nextKey first bytes with
    | none =>
      let behind := behindClosing (byte '\x7d') bytes
      match draft.entry? with
      | some entry => return (entry, behind)
      | none => throw (.shape (.missingField "method") behind)
    | some opened =>
      let (name, rest) ← ofReader (readText opened)
      if draft.has name then
        throw (.shape (.duplicateField name) (behindClosing (byte '\x7d') rest))
      let (draft, rest) ← draft.readField name (← readColon rest)
      readMembers draft false bound rest

/-! ## The array form -/

/-- The start of the next item, or nothing at the closing bracket. -/
def nextItem (first : Bool) (bytes : Bytes) : Except EntryFault (Option Bytes) :=
  match skipBlanks bytes with
  | [] => grammarAt .endInList []
  | b :: rest =>
    if b = byte ']' then .ok none
    else if first then .ok (some (b :: rest))
    else if b = byte ',' then
      match skipBlanks rest with
      | [] => grammarAt .endInValue []
      | c :: behind =>
        if c = byte ']' then grammarAt .trailingComma (c :: behind) else .ok (some (c :: behind))
    else grammarAt .expectedListCommaOrEnd (b :: rest)

/-- The end of an array: nothing but its closing bracket. -/
def closeArray (bytes : Bytes) : Except EntryFault Bytes :=
  match skipBlanks bytes with
  | [] => grammarAt .endInList []
  | b :: rest =>
    if b = byte ']' then .ok rest
    else if b = byte ',' then
      match skipBlanks rest with
      | [] => grammarAt .trailingCharacters []
      | c :: behind =>
        if c = byte ']' then grammarAt .trailingComma (c :: behind)
        else grammarAt .trailingCharacters (c :: behind)
    else grammarAt .trailingCharacters (b :: rest)

/-- The items of an entry, for the fields that are due in their order. -/
def readItems (draft : Draft) (first : Bool) :
    List String → Bytes → Except EntryFault (Draft × Bytes)
  | [], bytes => .ok (draft, bytes)
  | name :: names, bytes => do
    match ← nextItem first bytes with
    | none => return (draft, bytes)
    | some item =>
      let (draft, rest) ← draft.readField name item
      readItems draft false names rest

def readArray (bytes : Bytes) : Except EntryFault (Entry × Bytes) := do
  let (draft, rest) ← readItems {} true ["method", "params", "notify"] bytes
  match draft.entry? with
  | some entry => return (entry, ← closeArray rest)
  | none =>
    throw (.shape (.invalidLength 0 (Fields.expectedElements "ScriptEntry" 3))
      (behindClosing (byte ']') rest))

def Entry.parse (text : Bytes) : Except EntryFault Entry := do
  let (entry, rest) ←
    match skipBlanks text with
    | [] => grammarAt .endInValue []
    | b :: rest =>
      if b = byte '[' then readArray rest
      else if b = byte '\x7b' then readMembers {} true (rest.length + 1) rest
      else mismatch "struct ScriptEntry" (b :: rest)
  ofReader (expectEnd rest)
  return entry

end Airlock.Script
