import Airlock.Json.Value
import Airlock.Text.Utf8

/-!
# MessagePack of a value

Every integer is written in the shortest form that holds it, a non-negative one in an unsigned form;
a double is always written with 64 bits; members are written in their order. A length is counted
with 32 bits, and its form is the shortest one for what is left of it then.
-/

set_option autoImplicit false

namespace Airlock.MessagePack

/-- The lowest `8 * width` bits of a number, highest byte first. -/
def bigEndian (width n : Nat) : Bytes :=
  match width with
  | 0 => []
  | width + 1 => UInt8.ofNat (n / Nat.pow 256 width) :: bigEndian width n

/-- A non-negative integer below 2^64. -/
def unsigned (n : Nat) : Bytes :=
  if n < 0x80 then [UInt8.ofNat n]
  else if n < 0x100 then 0xcc :: bigEndian 1 n
  else if n < 0x10000 then 0xcd :: bigEndian 2 n
  else if n < 0x100000000 then 0xce :: bigEndian 4 n
  else 0xcf :: bigEndian 8 n

def complement (width size : Nat) : Nat :=
  Nat.pow 256 width - size

/-- The negative integer with an absolute value of at most 2^63. -/
def negative (size : Nat) : Bytes :=
  if size ≤ 32 then [UInt8.ofNat (complement 1 size)]
  else if size ≤ 0x80 then 0xd0 :: bigEndian 1 (complement 1 size)
  else if size ≤ 0x8000 then 0xd1 :: bigEndian 2 (complement 2 size)
  else if size ≤ 0x80000000 then 0xd2 :: bigEndian 4 (complement 4 size)
  else 0xd3 :: bigEndian 8 (complement 8 size)

def number : Number → Bytes
  | .integer n => if n.val < 0 then negative n.val.natAbs else unsigned n.val.toNat
  | .double d => 0xcb :: bigEndian 8 d.bits.toNat

/-- What 32 bits hold of a length. -/
def counted (length : Nat) : Nat :=
  length % 0x100000000

def textHead (length : Nat) : Bytes :=
  let length := counted length
  if length < 32 then [UInt8.ofNat (0xa0 + length)]
  else if length < 0x100 then 0xd9 :: bigEndian 1 length
  else if length < 0x10000 then 0xda :: bigEndian 2 length
  else 0xdb :: bigEndian 4 length

def arrayHead (count : Nat) : Bytes :=
  let count := counted count
  if count < 16 then [UInt8.ofNat (0x90 + count)]
  else if count < 0x10000 then 0xdc :: bigEndian 2 count
  else 0xdd :: bigEndian 4 count

def mapHead (count : Nat) : Bytes :=
  let count := counted count
  if count < 16 then [UInt8.ofNat (0x80 + count)]
  else if count < 0x10000 then 0xde :: bigEndian 2 count
  else 0xdf :: bigEndian 4 count

def text (s : String) : Bytes :=
  let bytes := Text.Utf8.ofString s
  textHead bytes.length ++ bytes

mutual

def encode : Value → Bytes
  | .null => [0xc0]
  | .bool b => [if b then 0xc3 else 0xc2]
  | .number n => number n
  | .string s => text s
  | .array items => arrayHead items.length ++ encodeItems items
  | .object members => mapHead members.length ++ encodeMembers members

def encodeItems : List Value → Bytes
  | [] => []
  | item :: rest => encode item ++ encodeItems rest

def encodeMembers : List (String × Value) → Bytes
  | [] => []
  | (key, value) :: rest => text key ++ (encode value ++ encodeMembers rest)

end

end Airlock.MessagePack
