import Airlock.Json.Value
import Airlock.Text.Utf8

/-!
# Reading MessagePack

All widths of integers, 32-bit and 64-bit floating-point numbers, texts, arrays and maps with texts
as keys. A floating-point number that is not finite reads as the null. A key behind the first one
may also be spelled as binary data; all other binary data, extensions, text that is not UTF-8, other
keys, more than 1023 open containers and a value cut short are refused. What follows a complete
value is left alone. A key that comes twice keeps its last value.
-/

set_option autoImplicit false

namespace Airlock.MessagePack

/-- What the first byte of a value and its length field announce. -/
inductive Head where
  | scalar (value : Value)
  | text (length : Nat)
  | binary (length : Nat)
  | array (count : Nat)
  | map (count : Nat)

/-- The first `count` bytes and what follows, if there are that many. -/
def takeExactly (count : Nat) (bytes : Bytes) : Option (Bytes × Bytes) :=
  let taken := bytes.take count
  if taken.length = count then some (taken, bytes.drop count) else none

def ofBigEndian (bytes : Bytes) : Nat :=
  bytes.foldl (fun n b => n * 256 + b.toNat) 0

def readNat (width : Nat) (bytes : Bytes) : Option (Nat × Bytes) :=
  (takeExactly width bytes).map fun (taken, rest) => (ofBigEndian taken, rest)

/-- The value of an integer; the widths of the format hold none that does not fit. -/
def ofInt (n : Int) : Value :=
  match Integer.ofInt? n with
  | some held => .number (.integer held)
  | none => .null

def ofComplement (width n : Nat) : Int :=
  if 2 * n < Nat.pow 256 width then n else (n : Int) - (Nat.pow 256 width : Nat)

/-- A double, or the null for what is not finite. -/
def ofDouble? : Option Double → Value
  | some d => .number (.double d)
  | none => .null

def readField (width : Nat) (bytes : Bytes) (head : Nat → Head) : Option (Head × Bytes) :=
  (readNat width bytes).map fun (n, rest) => (head n, rest)

def readUnsigned (width : Nat) (bytes : Bytes) : Option (Head × Bytes) :=
  readField width bytes fun n => .scalar (ofInt n)

def readSigned (width : Nat) (bytes : Bytes) : Option (Head × Bytes) :=
  readField width bytes fun n => .scalar (ofInt (ofComplement width n))

/-- The head of the value that begins with the byte `tag`. -/
def readHead (tag : UInt8) (rest : Bytes) : Option (Head × Bytes) :=
  let n := tag.toNat
  if n < 0x80 then some (.scalar (ofInt n), rest)
  else if n < 0x90 then some (.map (n - 0x80), rest)
  else if n < 0xa0 then some (.array (n - 0x90), rest)
  else if n < 0xc0 then some (.text (n - 0xa0), rest)
  else if n = 0xc0 then some (.scalar .null, rest)
  else if n = 0xc2 then some (.scalar (.bool false), rest)
  else if n = 0xc3 then some (.scalar (.bool true), rest)
  else if n = 0xc4 then readField 1 rest .binary
  else if n = 0xc5 then readField 2 rest .binary
  else if n = 0xc6 then readField 4 rest .binary
  else if n = 0xca then
    readField 4 rest fun n => .scalar (ofDouble? (Double.ofSingleBits? (UInt32.ofNat n)))
  else if n = 0xcb then
    readField 8 rest fun n => .scalar (ofDouble? (Double.ofBits? (UInt64.ofNat n)))
  else if n = 0xcc then readUnsigned 1 rest
  else if n = 0xcd then readUnsigned 2 rest
  else if n = 0xce then readUnsigned 4 rest
  else if n = 0xcf then readUnsigned 8 rest
  else if n = 0xd0 then readSigned 1 rest
  else if n = 0xd1 then readSigned 2 rest
  else if n = 0xd2 then readSigned 4 rest
  else if n = 0xd3 then readSigned 8 rest
  else if n = 0xd9 then readField 1 rest .text
  else if n = 0xda then readField 2 rest .text
  else if n = 0xdb then readField 4 rest .text
  else if n = 0xdc then readField 2 rest .array
  else if n = 0xdd then readField 4 rest .array
  else if n = 0xde then readField 2 rest .map
  else if n = 0xdf then readField 4 rest .map
  else if 0xe0 ≤ n then some (.scalar (ofInt ((n : Int) - 256)), rest)
  else none

def readString (length : Nat) (bytes : Bytes) : Option (String × Bytes) := do
  let (taken, rest) ← takeExactly length bytes
  return (← Text.Utf8.toString? taken, rest)

/-- The key that bytes begin with; the `first` of a map is no binary data. -/
def readKey (first : Bool) : Bytes → Option (String × Bytes)
  | [] => none
  | tag :: rest =>
    match readHead tag rest with
    | some (.text length, rest) => readString length rest
    | some (.binary length, rest) => if first then none else readString length rest
    | _ => none

/-- As many items as announced, added to those before, which are held in reverse. -/
def readItems (read : Bytes → Option (Value × Bytes)) (before : List Value) :
    Nat → Bytes → Option (List Value × Bytes)
  | 0, bytes => some (before.reverse, bytes)
  | count + 1, bytes =>
    match read bytes with
    | none => none
    | some (item, rest) => readItems read (item :: before) count rest

def readMembers (read : Bytes → Option (Value × Bytes)) (before : Members) :
    Nat → Bytes → Option (Members × Bytes)
  | 0, bytes => some (before, bytes)
  | count + 1, bytes =>
    match readKey before.isEmpty bytes with
    | none => none
    | some (key, rest) =>
      match read rest with
      | none => none
      | some (value, rest) => readMembers read (before.insert key value) count rest

/-- The value that bytes begin with, where `room` more containers may be opened, and what follows
it. -/
def readValue : Nat → Bytes → Option (Value × Bytes)
  | _, [] => none
  | room, tag :: rest =>
    match readHead tag rest with
    | none => none
    | some (.scalar value, rest) => some (value, rest)
    | some (.text length, rest) =>
      (readString length rest).map fun (s, rest) => (.string s, rest)
    | some (.binary _, _) => none
    | some (.array count, rest) =>
      match room with
      | 0 => none
      | room + 1 =>
        (readItems (readValue room) [] count rest).map fun (items, rest) => (.array items, rest)
    | some (.map count, rest) =>
      match room with
      | 0 => none
      | room + 1 =>
        (readMembers (readValue room) [] count rest).map fun (members, rest) =>
          (.object members, rest)

/-- How many containers may be open at once. -/
def maxOpen : Nat := 1023

/-- The value that bytes begin with; bytes behind it are ignored. -/
def decode? (bytes : Bytes) : Option Value :=
  (readValue maxOpen bytes).map (·.1)

end Airlock.MessagePack
