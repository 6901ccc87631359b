import Airlock.Json.Reader

/-!
# Passing over a value

A value that nobody asks for is only checked for its grammar. Escapes by code unit may stand alone,
a number may be as large as it likes, and containers may be nested without limit. Some faults differ
from those of reading: a comma in front of a closing bracket leaves a value due, and a number cut
short is invalid.
-/

set_option autoImplicit false

namespace Airlock.Json

/-- Where the passing over a string stands. -/
inductive TextSkip where
  | plain
  | escape
  /-- in the digits of a code unit, held in reverse -/
  | digits (taken : List UInt8)

inductive SkipMode where
  | value
  /-- behind an opening bracket or brace -/
  | opened
  | keyDue
  | key (scan : TextSkip)
  | colon
  | text (scan : TextSkip)
  | number (scan : NumberScan)
  | word (due : Bytes)
  | behind

inductive Container where
  | list
  | members

/-- A passing over in progress: the open containers are held innermost first. -/
structure Skip where
  mode : SkipMode
  stack : List Container

/-- What a byte does to a passing over; at the end the byte is not taken. -/
inductive SkipStep where
  | more (skip : Skip)
  | complete

/-- The next byte of a string: the scan behind it, or nothing when it was the closing quote. -/
def TextSkip.step (scan : TextSkip) (b : UInt8) (rest : Bytes) : Except Fault (Option TextSkip) :=
  match scan with
  | .plain =>
    if b = byte '"' then .ok none
    else if b = byte '\\' then .ok (some .escape)
    else if b < 0x20 then .error ⟨.controlCharacter, b :: rest⟩
    else .ok (some .plain)
  | .escape =>
    if b = byte 'u' then .ok (some (.digits []))
    else if (escapeOf? b).isSome then .ok (some .plain)
    else .error ⟨.invalidEscape, rest⟩
  | .digits taken =>
    if taken.length < 3 then .ok (some (.digits (b :: taken)))
    else if (codeUnit? (b :: taken).reverse).isSome then .ok (some .plain)
    else .error ⟨.invalidEscape, rest⟩

namespace Skip

def beginValue (stack : List Container) (b : UInt8) (rest : Bytes) : Except Fault SkipStep :=
  if b = byte '"' then .ok (.more ⟨.text .plain, stack⟩)
  else if b = byte '-' then .ok (.more ⟨.number .sign, stack⟩)
  else if isDigitByte b then .ok (.more ⟨.number (.ofDigit false b), stack⟩)
  else if b = byte '[' then .ok (.more ⟨.opened, .list :: stack⟩)
  else if b = byte '\x7b' then .ok (.more ⟨.opened, .members :: stack⟩)
  else if b = byte 'n' then .ok (.more ⟨.word [byte 'u', byte 'l', byte 'l'], stack⟩)
  else if b = byte 't' then .ok (.more ⟨.word [byte 'r', byte 'u', byte 'e'], stack⟩)
  else if b = byte 'f' then .ok (.more ⟨.word [byte 'a', byte 'l', byte 's', byte 'e'], stack⟩)
  else .error ⟨.expectedValue, rest⟩

def behindValue (stack : List Container) (b : UInt8) (rest : Bytes) : Except Fault SkipStep :=
  match stack with
  | [] => .ok .complete
  | container :: outer =>
    if isBlankByte b then .ok (.more ⟨.behind, stack⟩)
    else
      match container with
      | .list =>
        if b = byte ',' then .ok (.more ⟨.value, stack⟩)
        else if b = byte ']' then .ok (.more ⟨.behind, outer⟩)
        else .error ⟨.expectedListCommaOrEnd, rest⟩
      | .members =>
        if b = byte ',' then .ok (.more ⟨.keyDue, stack⟩)
        else if b = byte '\x7d' then .ok (.more ⟨.behind, outer⟩)
        else .error ⟨.expectedObjectCommaOrEnd, rest⟩

def beginKey (stack : List Container) (b : UInt8) (rest : Bytes) : Except Fault SkipStep :=
  if b = byte '"' then .ok (.more ⟨.key .plain, stack⟩) else .error ⟨.keyMustBeString, rest⟩

def behindOpening (stack : List Container) (b : UInt8) (rest : Bytes) : Except Fault SkipStep :=
  match stack with
  | [] => .ok .complete
  | .list :: outer =>
    if b = byte ']' then .ok (.more ⟨.behind, outer⟩) else beginValue stack b rest
  | .members :: outer =>
    if b = byte '\x7d' then .ok (.more ⟨.behind, outer⟩) else beginKey stack b rest

/-- What the next byte does; `rest` follows it. -/
def step (skip : Skip) (b : UInt8) (rest : Bytes) : Except Fault SkipStep :=
  let stack := skip.stack
  match skip.mode with
  | .value => if isBlankByte b then .ok (.more skip) else beginValue stack b rest
  | .opened => if isBlankByte b then .ok (.more skip) else behindOpening stack b rest
  | .keyDue => if isBlankByte b then .ok (.more skip) else beginKey stack b rest
  | .key scan =>
    (scan.step b rest).map fun
      | some next => .more ⟨.key next, stack⟩
      | none => .more ⟨.colon, stack⟩
  | .colon =>
    if isBlankByte b then .ok (.more skip)
    else if b = byte ':' then .ok (.more ⟨.value, stack⟩)
    else .error ⟨.expectedColon, rest⟩
  | .text scan =>
    (scan.step b rest).map fun
      | some next => .more ⟨.text next, stack⟩
      | none => .more ⟨.behind, stack⟩
  | .number scan =>
    match scan.step b with
    | .more next => .ok (.more ⟨.number next, stack⟩)
    | .fails .numberOutOfRange => .ok (.more ⟨.number (.powerRest false), stack⟩)
    | .fails cause => .error ⟨cause, rest⟩
    | .ends => behindValue stack b rest
  | .word due =>
    match due with
    | [] => behindValue stack b rest
    | [last] =>
      if b = last then .ok (.more ⟨.behind, stack⟩) else .error ⟨.expectedIdent, rest⟩
    | next :: others =>
      if b = next then .ok (.more ⟨.word others, stack⟩) else .error ⟨.expectedIdent, rest⟩
  | .behind => behindValue stack b rest

def numberMayEnd (scan : NumberScan) : Bool :=
  match scan with
  | .sign | .point .. | .mark .. | .markSign .. => false
  | _ => true

/-- The cause at the end of a text inside the innermost open container, if one is open. -/
def endInside : List Container → Except Cause Unit
  | [] => .ok ()
  | .list :: _ => .error .endInList
  | .members :: _ => .error .endInObject

def finish (skip : Skip) : Except Cause Unit :=
  match skip.mode with
  | .value | .word _ => .error .endInValue
  | .key _ | .text _ => .error .endInString
  | .keyDue | .colon => .error .endInObject
  | .number scan => if numberMayEnd scan then endInside skip.stack else .error .invalidNumber
  | .opened | .behind => endInside skip.stack

/-- Passes over bytes up to the end of the value, and returns what follows it. -/
def run (skip : Skip) : Bytes → Except Fault Bytes
  | [] =>
    match skip.finish with
    | .ok () => .ok []
    | .error cause => .error ⟨cause, []⟩
  | b :: rest =>
    match skip.step b rest with
    | .error fault => .error fault
    | .ok (.more next) => run next rest
    | .ok .complete => .ok (b :: rest)

end Skip

def skipValue (bytes : Bytes) : Except Fault Bytes :=
  Skip.run ⟨.value, []⟩ bytes

end Airlock.Json
