import Airlock.Json.Reader.Text
import Airlock.Json.Value

/-!
# Reading a JSON value

The reader is a machine that takes one byte at a time: a mode, and a stack of the containers that
are open, innermost first. It stops right behind a complete value, so a value can be read out of the
middle of a text. The first byte that no value can go on with is at fault. At most 127 containers
may be open at once; where a value is read inside others, those count too.
-/

set_option autoImplicit false

namespace Airlock.Json

/-- An open container whose next value is being read. -/
inductive Frame where
  /-- an array, its items in reverse -/
  | items (before : List Value)
  /-- an object, its members and the key of the value that is due -/
  | members (before : Members) (key : String)

inductive Mode where
  | value
  /-- behind an opening bracket: a value or the closing bracket is due -/
  | firstItem
  /-- behind a comma in an array: a value is due -/
  | nextItem
  /-- behind an opening brace: a key or the closing brace is due -/
  | firstKey
  /-- behind a comma in an object: a key is due -/
  | nextKey (before : Members)
  | key (before : Members) (scan : TextScan)
  /-- behind a key: the colon is due -/
  | colon (before : Members) (key : String)
  | text (scan : TextScan)
  | number (scan : NumberScan)
  /-- in a word, of which these bytes are due -/
  | word (due : Bytes) (meant : Value)
  | behind (value : Value)

structure Machine where
  mode : Mode
  stack : List Frame

inductive Step where
  | more (machine : Machine)
  /-- the value was complete before the byte -/
  | complete (value : Value)

/-- How many containers may be open at once. -/
def maxOpen : Nat := 127

namespace Machine

def start : Machine :=
  ⟨.value, []⟩

/-- A container opens, if one more is allowed inside the `room`. -/
def openContainer (room : Nat) (stack : List Frame) (opened : Machine) (rest : Bytes) :
    Except Fault Step :=
  if stack.length < room then .ok (.more opened) else .error ⟨.tooDeep, rest⟩

def beginValue (room : Nat) (stack : List Frame) (b : UInt8) (rest : Bytes) : Except Fault Step :=
  if b = byte '"' then .ok (.more ⟨.text (.start rest), stack⟩)
  else if b = byte '-' then .ok (.more ⟨.number .sign, stack⟩)
  else if isDigitByte b then .ok (.more ⟨.number (.ofDigit false b), stack⟩)
  else if b = byte '[' then openContainer room stack ⟨.firstItem, .items [] :: stack⟩ rest
  else if b = byte '\x7b' then openContainer room stack ⟨.firstKey, stack⟩ rest
  else if b = byte 'n' then .ok (.more ⟨.word [byte 'u', byte 'l', byte 'l'] .null, stack⟩)
  else if b = byte 't' then .ok (.more ⟨.word [byte 'r', byte 'u', byte 'e'] (.bool true), stack⟩)
  else if b = byte 'f' then
    .ok (.more ⟨.word [byte 'a', byte 'l', byte 's', byte 'e'] (.bool false), stack⟩)
  else .error ⟨.expectedValue, rest⟩

/-- The byte behind a value. The innermost open container says what may follow; without one the
value is complete. -/
def behindValue (value : Value) (stack : List Frame) (b : UInt8) (rest : Bytes) :
    Except Fault Step :=
  match stack with
  | [] => .ok (.complete value)
  | .items before :: outer =>
    if isBlankByte b then .ok (.more ⟨.behind value, stack⟩)
    else if b = byte ',' then .ok (.more ⟨.nextItem, .items (value :: before) :: outer⟩)
    else if b = byte ']' then .ok (.more ⟨.behind (.array (value :: before).reverse), outer⟩)
    else .error ⟨.expectedListCommaOrEnd, rest⟩
  | .members before key :: outer =>
    if isBlankByte b then .ok (.more ⟨.behind value, stack⟩)
    else if b = byte ',' then .ok (.more ⟨.nextKey (before.insert key value), outer⟩)
    else if b = byte '\x7d' then
      .ok (.more ⟨.behind (.object (before.insert key value)), outer⟩)
    else .error ⟨.expectedObjectCommaOrEnd, rest⟩

/-- What the next byte does; `rest` follows it. -/
def step (room : Nat) (machine : Machine) (b : UInt8) (rest : Bytes) : Except Fault Step :=
  let stack := machine.stack
  match machine.mode with
  | .value =>
    if isBlankByte b then .ok (.more machine) else beginValue room stack b rest
  | .firstItem =>
    if isBlankByte b then .ok (.more machine)
    else if b = byte ']' then .ok (.more ⟨.behind (.array []), stack.drop 1⟩)
    else beginValue room stack b rest
  | .nextItem =>
    if isBlankByte b then .ok (.more machine)
    else if b = byte ']' then .error ⟨.trailingComma, rest⟩
    else beginValue room stack b rest
  | .firstKey =>
    if isBlankByte b then .ok (.more machine)
    else if b = byte '\x7d' then .ok (.more ⟨.behind (.object []), stack⟩)
    else if b = byte '"' then .ok (.more ⟨.key [] (.start rest), stack⟩)
    else .error ⟨.keyMustBeString, rest⟩
  | .nextKey before =>
    if isBlankByte b then .ok (.more machine)
    else if b = byte '"' then .ok (.more ⟨.key before (.start rest), stack⟩)
    else if b = byte '\x7d' then .error ⟨.trailingComma, rest⟩
    else .error ⟨.keyMustBeString, rest⟩
  | .key before scan =>
    match scan.step b rest with
    | .error fault => .error fault
    | .ok (.more next) => .ok (.more ⟨.key before next, stack⟩)
    | .ok (.done key) => .ok (.more ⟨.colon before key, stack⟩)
  | .colon before key =>
    if isBlankByte b then .ok (.more machine)
    else if b = byte ':' then .ok (.more ⟨.value, .members before key :: stack⟩)
    else .error ⟨.expectedColon, rest⟩
  | .text scan =>
    match scan.step b rest with
    | .error fault => .error fault
    | .ok (.more next) => .ok (.more ⟨.text next, stack⟩)
    | .ok (.done text) => .ok (.more ⟨.behind (.string text), stack⟩)
  | .number scan =>
    match scan.step b with
    | .more next => .ok (.more ⟨.number next, stack⟩)
    | .fails cause => .error ⟨cause, rest⟩
    | .ends =>
      match scan.finish with
      | .ok number => behindValue (.number number) stack b rest
      | .error cause => .error ⟨cause, b :: rest⟩
  | .word due meant =>
    match due with
    | [] => behindValue meant stack b rest
    | [last] =>
      if b = last then .ok (.more ⟨.behind meant, stack⟩) else .error ⟨.expectedIdent, rest⟩
    | next :: others =>
      if b = next then .ok (.more ⟨.word others meant, stack⟩) else .error ⟨.expectedIdent, rest⟩
  | .behind value => behindValue value stack b rest

/-- The cause at the end of a text behind a value. -/
def endBehindValue (value : Value) : List Frame → Except Cause Value
  | [] => .ok value
  | .items _ :: _ => .error .endInList
  | .members _ _ :: _ => .error .endInObject

/-- What the end of the text means: the value, when it is complete and no container is open. -/
def finish (machine : Machine) : Except Cause Value :=
  match machine.mode with
  | .value | .nextItem | .nextKey _ | .word _ _ => .error .endInValue
  | .firstItem => .error .endInList
  | .firstKey | .colon _ _ => .error .endInObject
  | .key _ _ | .text _ => .error .endInString
  | .number scan =>
    match scan.finish with
    | .ok number => endBehindValue (.number number) machine.stack
    | .error cause => .error cause
  | .behind value => endBehindValue value machine.stack

/-- Reads on until a value is complete, and returns what follows it. -/
def run (room : Nat) (machine : Machine) : Bytes → Except Fault (Value × Bytes)
  | [] =>
    match machine.finish with
    | .ok value => .ok (value, [])
    | .error cause => .error ⟨cause, []⟩
  | b :: rest =>
    match machine.step room b rest with
    | .error fault => .error fault
    | .ok (.more next) => run room next rest
    | .ok (.complete value) => .ok (value, b :: rest)

end Machine

/-- Reads the value that a text begins with, inside `outer` open containers, and returns what
follows it. -/
def readValue (outer : Nat) (bytes : Bytes) : Except Fault (Value × Bytes) :=
  Machine.start.run (maxOpen - outer) bytes

def expectEnd (rest : Bytes) : Except Fault Unit :=
  match rest.dropWhile isBlankByte with
  | [] => .ok ()
  | _ :: behind => .error ⟨.trailingCharacters, behind⟩

def decode (bytes : Bytes) : Except Fault Value := do
  let (value, rest) ← readValue 0 bytes
  expectEnd rest
  return value

/-- The value that a whole text spells, or the wording of its first fault. -/
def parse (bytes : Bytes) : Except String Value :=
  (decode bytes).mapError (·.message bytes)

end Airlock.Json
