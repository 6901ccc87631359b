import Airlock.Text.Blank
import Airlock.Text.Digits
import Airlock.Text.Quoted
import Airlock.Text.Utf8

/-!
# The header of a unit

Lines that end in CR LF, each with a colon, then an empty line, then the payload. One of the lines
gives the length of the payload in bytes; its name is compared without regard to ASCII case, blanks
around name and number do not count, and of several such lines the last one holds. All other lines
are ignored. The header ends at the first empty line, so a payload may contain one.
-/

set_option autoImplicit false

namespace Airlock.Header

def lengthName : String := "Content-Length"

inductive Fault where
  | noTerminator
  | notText (fault : Text.Utf8.Fault)
  | noColon (line : List Char)
  | badLength (reason : Text.DigitsError)
  | noLength
  | wrongLength (stated actual : Nat)

def Fault.message : Fault → String
  | .noTerminator => "missing header terminator"
  | .notText fault => "invalid header UTF-8: " ++ fault.message
  | .noColon line => "invalid header line: " ++ String.ofList (Text.quoted line)
  | .badLength reason => "invalid " ++ lengthName ++ ": " ++ reason.message
  | .noLength => "missing " ++ lengthName ++ " header"
  | .wrongLength stated actual =>
    lengthName ++ " is " ++ toString stated ++ " but the unit carries " ++ toString actual
      ++ " bytes"

/-- Splits a unit at its first empty line, with the bytes before it in reverse. -/
def splitFrom (before : Bytes) : Bytes → Option (Bytes × Bytes)
  | [] => none
  | b :: rest =>
    match b, rest with
    | 13, 10 :: 13 :: 10 :: payload => some (before.reverse, payload)
    | _, _ => splitFrom (b :: before) rest

/-- The bytes before the first CR LF CR LF and those behind it. -/
def split? (unit : Bytes) : Option (Bytes × Bytes) :=
  splitFrom [] unit

/-- The lines of a header that begins with `taken`, which is held in reverse. A header without CR LF
is one line. -/
def linesFrom (taken : List Char) : List Char → List (List Char)
  | [] => [taken.reverse]
  | '\r' :: '\n' :: rest => taken.reverse :: linesFrom [] rest
  | c :: rest => linesFrom (c :: taken) rest

/-- Name and value of a line, parted at its first colon. -/
def nameAndValue? (line : List Char) : Option (List Char × List Char) :=
  match line.dropWhile (· ≠ ':') with
  | [] => none
  | _ :: value => some (line.takeWhile (· ≠ ':'), value)

/-- Whether a name is the one of the length, blanks around it and ASCII case aside. -/
def isLengthName (name : List Char) : Bool :=
  (Text.trim name).map Char.toLower = lengthName.toList.map Char.toLower

/-- The length that the lines state, given what the lines before stated. -/
def statedLength (stated? : Option Nat) : List (List Char) → Except Fault (Option Nat)
  | [] => .ok stated?
  | line :: rest =>
    match nameAndValue? line with
    | none => .error (.noColon line)
    | some (name, value) =>
      if isLengthName name then
        match Text.readSize (Text.trim value) with
        | .ok length => statedLength (some length) rest
        | .error reason => .error (.badLength reason)
      else statedLength stated? rest

/-- The payload of a unit that begins with a header. -/
def strip (unit : Bytes) : Except Fault Bytes := do
  match split? unit with
  | none => throw .noTerminator
  | some (head, payload) =>
    match Text.Utf8.decode head with
    | .error fault => throw (.notText fault)
    | .ok text =>
      match ← statedLength none (linesFrom [] text) with
      | none => throw .noLength
      | some stated =>
        if stated = payload.length then return payload
        else throw (.wrongLength stated payload.length)

/-- The header that states the length of a payload, and the payload. -/
def attach (payload : Bytes) : Bytes :=
  Text.Utf8.encode (lengthName.toList ++ ": ".toList ++ Nat.toDigits 10 payload.length
    ++ ['\r', '\n', '\r', '\n']) ++ payload

end Airlock.Header
