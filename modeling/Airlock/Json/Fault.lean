import Airlock.Text.Utf8

/-!
# Where JSON text goes wrong

A fault is a cause and the bytes after the last byte that was looked at. Its position counts lines
from one; the column is the number of bytes since the last line feed, up to and including the byte
at fault, so a line feed at fault is column zero of the line it begins. At the end of the text the
column is the length of the last line.
-/

set_option autoImplicit false

namespace Airlock.Json

inductive Cause where
  | endInList
  | endInObject
  | endInString
  | endInValue
  | expectedColon
  | expectedListCommaOrEnd
  | expectedObjectCommaOrEnd
  | expectedIdent
  | expectedValue
  | invalidEscape
  | invalidNumber
  | numberOutOfRange
  | invalidUnicode
  | controlCharacter
  | keyMustBeString
  | loneLeadingSurrogate
  | trailingComma
  | trailingCharacters
  | unexpectedEndOfHexEscape
  | tooDeep
  deriving DecidableEq, Repr

def Cause.message : Cause → String
  | .endInList => "EOF while parsing a list"
  | .endInObject => "EOF while parsing an object"
  | .endInString => "EOF while parsing a string"
  | .endInValue => "EOF while parsing a value"
  | .expectedColon => "expected `:`"
  | .expectedListCommaOrEnd => "expected `,` or `]`"
  | .expectedObjectCommaOrEnd => "expected `,` or `\x7d`"
  | .expectedIdent => "expected ident"
  | .expectedValue => "expected value"
  | .invalidEscape => "invalid escape"
  | .invalidNumber => "invalid number"
  | .numberOutOfRange => "number out of range"
  | .invalidUnicode => "invalid unicode code point"
  | .controlCharacter => "control character (\\u0000-\\u001F) found while parsing a string"
  | .keyMustBeString => "key must be a string"
  | .loneLeadingSurrogate => "lone leading surrogate in hex escape"
  | .trailingComma => "trailing comma"
  | .trailingCharacters => "trailing characters"
  | .unexpectedEndOfHexEscape => "unexpected end of hex escape"
  | .tooDeep => "recursion limit exceeded"

/-- A cause, and what is left of the text behind the place it arose at. -/
structure Fault where
  cause : Cause
  rest : Bytes
  deriving DecidableEq, Repr

structure Position where
  line : Nat
  column : Nat
  deriving DecidableEq, Repr

namespace Position

def behind (consumed : Bytes) : Position :=
  consumed.foldl
    (fun place b => if b = 10 then ⟨place.line + 1, 0⟩ else ⟨place.line, place.column + 1⟩) ⟨1, 0⟩

/-- The place in `input` in front of its last part `rest`. -/
def before (input rest : Bytes) : Position :=
  behind (input.take (input.length - rest.length))

def suffix (place : Position) : String :=
  s!" at line {place.line} column {place.column}"

end Position

def Fault.message (input : Bytes) (fault : Fault) : String :=
  fault.cause.message ++ (Position.before input fault.rest).suffix

end Airlock.Json
