import Airlock.Bytes

/-!
# UTF-8

Bytes to characters and back. Reading stops at the first byte that cannot continue a character, and
its fault says how many bytes before it are sound and how long the unsound start of a character is.
A text that ends inside a character is *incomplete*, which is told apart from an unsound byte.
-/

set_option autoImplicit false

namespace Airlock

namespace Text.Utf8

/-- Where bytes stop being UTF-8. `badLength` is `none` when the bytes end inside a character. -/
structure Fault where
  validLength : Nat
  badLength : Option Nat
  deriving DecidableEq, Repr

def Fault.message (fault : Fault) : String :=
  match fault.badLength with
  | some length => s!"invalid utf-8 sequence of {length} bytes from index {fault.validLength}"
  | none => s!"incomplete utf-8 byte sequence from index {fault.validLength}"

def isTail (b : UInt8) : Bool :=
  0x80 ≤ b && b ≤ 0xBF

/-- What the first byte of a character says: how many bytes follow it, and the bounds of the first
of them. The bounds shut out overlong forms, surrogates and code points above U+10FFFF. -/
inductive Lead where
  | alone
  | tails (count : Nat) (low high : UInt8)
  | unsound

def lead (b : UInt8) : Lead :=
  if b ≤ 0x7F then .alone
  else if b < 0xC2 then .unsound
  else if b ≤ 0xDF then .tails 1 0x80 0xBF
  else if b = 0xE0 then .tails 2 0xA0 0xBF
  else if b = 0xED then .tails 2 0x80 0x9F
  else if b ≤ 0xEF then .tails 2 0x80 0xBF
  else if b = 0xF0 then .tails 3 0x90 0xBF
  else if b ≤ 0xF3 then .tails 3 0x80 0xBF
  else if b = 0xF4 then .tails 3 0x80 0x8F
  else .unsound

def tailBits (b : UInt8) : Nat :=
  b.toNat % 64

/-- A character begun but not finished: the bits read so far, how many bytes were read, how many
are still due, and the bounds of the next one. -/
structure Partial where
  bits : Nat
  taken : Nat
  due : Nat
  low : UInt8
  high : UInt8

/-- The character that a first byte begins, or nothing when no character begins with it. -/
def begin? (b : UInt8) : Option Partial :=
  match lead b with
  | .alone | .unsound => none
  | .tails count low high => some ⟨b.toNat % Nat.pow 2 (6 - count), 1, count, low, high⟩

/-- Reads on from `index`, inside the character `open?` if there is one. The characters before are
held in reverse. -/
def decodeFrom (before : List Char) (index : Nat) (open? : Option Partial) :
    Bytes → Except Fault (List Char)
  | [] =>
    match open? with
    | none => .ok before.reverse
    | some _ => .error ⟨index, none⟩
  | b :: rest =>
    match open? with
    | none =>
      if b ≤ 0x7F then decodeFrom (Char.ofNat b.toNat :: before) (index + 1) none rest
      else
        match begin? b with
        | none => .error ⟨index, some 1⟩
        | some begun => decodeFrom before index (some begun) rest
    | some held =>
      if held.low ≤ b && b ≤ held.high then
        let bits := held.bits * 64 + tailBits b
        if held.due = 1 then
          decodeFrom (Char.ofNat bits :: before) (index + held.taken + 1) none rest
        else
          decodeFrom before index (some ⟨bits, held.taken + 1, held.due - 1, 0x80, 0xBF⟩) rest
      else .error ⟨index, some held.taken⟩

/-- The characters that bytes spell, or where they stop doing so. -/
def decode (bytes : Bytes) : Except Fault (List Char) :=
  decodeFrom [] 0 none bytes

def encode (text : List Char) : Bytes :=
  text.flatMap String.utf8EncodeChar

def ofString (text : String) : Bytes :=
  encode text.toList

def toString? (bytes : Bytes) : Option String :=
  match decode bytes with
  | .ok text => some (String.ofList text)
  | .error _ => none

end Text.Utf8

end Airlock
