import Airlock.Json.Fault
import Airlock.Number.Basic

/-!
# Reading a number, byte by byte

The digits are gathered into a significand of at most 64 bits and a decimal exponent; digits that no
longer fit only move the exponent or, behind the point, are dropped. A number without point and
exponent stays an integer as long as 64 bits hold it; minus zero and larger ones become doubles. The
byte behind a number is looked at but not taken.
-/

set_option autoImplicit false

namespace Airlock.Json

@[inline] def byte (c : Char) : UInt8 :=
  c.toUInt8

/-- The blanks that may stand between the parts of a JSON text. -/
def isBlankByte (b : UInt8) : Bool :=
  b = 0x20 || b = 0x0a || b = 0x0d || b = 0x09

def isDigitByte (b : UInt8) : Bool :=
  byte '0' ≤ b && b ≤ byte '9'

def digitOf (b : UInt8) : Nat :=
  b.toNat - 48

def significandLimit : Nat := 0x10000000000000000

def exponentLimit : Nat := 0x80000000

/-- How far the reading of a number has come. -/
inductive NumberScan where
  /-- behind a minus sign: a digit is due -/
  | sign
  /-- behind a leading zero -/
  | zero (negative : Bool)
  /-- in digits that still fit -/
  | integer (negative : Bool) (significand : Nat)
  /-- in digits that no longer fit -/
  | long (negative : Bool) (significand : Nat) (exponent : Int)
  /-- behind the point: a digit is due -/
  | point (negative : Bool) (significand : Nat) (exponent : Int)
  /-- in digits behind the point -/
  | fraction (negative : Bool) (significand : Nat) (exponent : Int)
  /-- in digits behind the point that are dropped -/
  | fractionRest (negative : Bool) (significand : Nat) (exponent : Int)
  /-- behind the exponent mark: a sign or a digit is due -/
  | mark (negative : Bool) (significand : Nat) (exponent : Int)
  /-- behind the sign of the exponent: a digit is due -/
  | markSign (negative : Bool) (significand : Nat) (exponent : Int) (down : Bool)
  /-- in the digits of the exponent -/
  | power (negative : Bool) (significand : Nat) (exponent : Int) (down : Bool) (count : Nat)
  /-- in further digits of an exponent that makes the number a zero -/
  | powerRest (negative : Bool)

/-- What a byte does to a number being read. -/
inductive NumberStep where
  /-- the byte belongs to the number -/
  | more (scan : NumberScan)
  /-- the number ends before the byte -/
  | ends
  /-- no number goes on with this byte -/
  | fails (cause : Cause)

namespace NumberScan

/-- The scan behind the first byte of a number that has no sign. -/
def ofDigit (negative : Bool) (b : UInt8) : NumberScan :=
  if b = byte '0' then .zero negative else .integer negative (digitOf b)

def isMark (b : UInt8) : Bool :=
  b = byte 'e' || b = byte 'E'

/-- The next step of a number that may end, given what a digit and a point would do. -/
def stepOpen (b : UInt8) (onDigit : NumberStep) (onPoint : NumberStep)
    (onMark : NumberScan) : NumberStep :=
  if isDigitByte b then onDigit
  else if b = byte '.' then onPoint
  else if isMark b then .more onMark
  else .ends

/-- A digit added to a significand, if it still fits. -/
def widen? (significand : Nat) (b : UInt8) : Option Nat :=
  let wider := significand * 10 + digitOf b
  if wider < significandLimit then some wider else none

def fractionDigit (negative : Bool) (significand : Nat) (exponent : Int) (b : UInt8) :
    NumberScan :=
  match widen? significand b with
  | some wider => .fraction negative wider (exponent - 1)
  | none => .fractionRest negative significand exponent

def powerDigit (negative : Bool) (significand : Nat) (exponent : Int) (down : Bool) (count : Nat)
    (b : UInt8) : NumberStep :=
  let wider := count * 10 + digitOf b
  if wider < exponentLimit then .more (.power negative significand exponent down wider)
  else if significand ≠ 0 ∧ !down then .fails .numberOutOfRange
  else .more (.powerRest negative)

def step (scan : NumberScan) (b : UInt8) : NumberStep :=
  match scan with
  | .sign =>
    if isDigitByte b then .more (ofDigit true b) else .fails .invalidNumber
  | .zero negative =>
    stepOpen b (.fails .invalidNumber) (.more (.point negative 0 0)) (.mark negative 0 0)
  | .integer negative significand =>
    let onDigit := match widen? significand b with
      | some wider => .integer negative wider
      | none => .long negative significand 1
    stepOpen b (.more onDigit) (.more (.point negative significand 0))
      (.mark negative significand 0)
  | .long negative significand exponent =>
    stepOpen b (.more (.long negative significand (exponent + 1)))
      (.more (.point negative significand exponent)) (.mark negative significand exponent)
  | .point negative significand exponent =>
    if isDigitByte b then .more (fractionDigit negative significand exponent b)
    else .fails .invalidNumber
  | .fraction negative significand exponent =>
    stepOpen b (.more (fractionDigit negative significand exponent b)) .ends
      (.mark negative significand exponent)
  | .fractionRest negative significand exponent =>
    stepOpen b (.more (.fractionRest negative significand exponent)) .ends
      (.mark negative significand exponent)
  | .mark negative significand exponent =>
    if b = byte '+' then .more (.markSign negative significand exponent false)
    else if b = byte '-' then .more (.markSign negative significand exponent true)
    else if isDigitByte b then .more (.power negative significand exponent false (digitOf b))
    else .fails .invalidNumber
  | .markSign negative significand exponent down =>
    if isDigitByte b then .more (.power negative significand exponent down (digitOf b))
    else .fails .invalidNumber
  | .power negative significand exponent down count =>
    if isDigitByte b then powerDigit negative significand exponent down count b else .ends
  | .powerRest negative =>
    if isDigitByte b then .more (.powerRest negative) else .ends

/-- A number without point and exponent. -/
def ofSignificand (negative : Bool) (significand : Nat) : Except Cause Number :=
  let asDouble : Except Cause Number :=
    match Double.ofDecimal? negative significand 0 with
    | some d => .ok (.double d)
    | none => .error .numberOutOfRange
  if negative ∧ significand = 0 then asDouble
  else
    match Integer.ofInt? (if negative then -(significand : Int) else significand) with
    | some n => .ok (.integer n)
    | none => asDouble

def ofParts (negative : Bool) (significand : Nat) (exponent : Int) : Except Cause Number :=
  match Double.ofDecimal? negative significand exponent with
  | some d => .ok (.double d)
  | none => .error .numberOutOfRange

/-- The number read so far, if it may end here. A number cut short gives the cause for text that
ends there. -/
def finish (scan : NumberScan) : Except Cause Number :=
  match scan with
  | .sign | .point .. | .mark .. | .markSign .. => .error .endInValue
  | .zero negative => ofSignificand negative 0
  | .integer negative significand => ofSignificand negative significand
  | .long negative significand exponent
  | .fraction negative significand exponent
  | .fractionRest negative significand exponent => ofParts negative significand exponent
  | .power negative significand exponent down count =>
    ofParts negative significand (if down then exponent - count else exponent + count)
  | .powerRest negative => .ok (.double (Double.zero negative))

end NumberScan

end Airlock.Json
