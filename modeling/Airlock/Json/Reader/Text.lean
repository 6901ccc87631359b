import Airlock.Json.Reader.Number

/-!
# Reading a string, byte by byte

The bytes between the quotes are gathered with their escapes resolved, and have to spell UTF-8 when
the closing quote is met. An escape by code unit takes four hexadecimal digits before any of them is
judged; a leading surrogate has to be followed at once by the escape of a trailing one.
-/

set_option autoImplicit false

namespace Airlock.Json

/-- Where the reading of a string stands between two bytes. -/
inductive EscapeState where
  | plain
  /-- behind a backslash -/
  | begun
  /-- in the digits of a code unit, held in reverse; the leading surrogate before it, if any -/
  | digits (leading? : Option Nat) (taken : List UInt8)
  /-- behind a leading surrogate: a backslash is due -/
  | paired (leading : Nat)
  /-- behind a leading surrogate and a backslash: the letter of an escape by code unit is due -/
  | pairedLetter (leading : Nat)

/-- A string being read: the text behind its opening quote, its bytes so far in reverse, and where
an escape stands. -/
structure TextScan where
  opened : Bytes
  content : List UInt8
  escape : EscapeState

/-- What a byte does to a string being read. -/
inductive TextStep where
  | more (scan : TextScan)
  /-- the byte was the closing quote -/
  | done (text : String)

/-- The number a hexadecimal digit of either case stands for. -/
def hexOf? (b : UInt8) : Option Nat :=
  if isDigitByte b then some (digitOf b)
  else if byte 'a' ≤ b && b ≤ byte 'f' then some (b.toNat - 87)
  else if byte 'A' ≤ b && b ≤ byte 'F' then some (b.toNat - 55)
  else none

def codeUnit? (digits : List UInt8) : Option Nat :=
  digits.foldl (fun unit? b => do return (← unit?) * 16 + (← hexOf? b)) (some 0)

/-- The byte that an escape of one letter stands for. -/
def escapeOf? (b : UInt8) : Option UInt8 :=
  if b = byte '"' || b = byte '\\' || b = byte '/' then some b
  else if b = byte 'b' then some 8
  else if b = byte 'f' then some 12
  else if b = byte 'n' then some 10
  else if b = byte 'r' then some 13
  else if b = byte 't' then some 9
  else none

/-- The fault of bytes that are not UTF-8. It is placed by counting back from the closing quote: as
many bytes before what follows the quote as the content has from its first wrong byte on, where
escapes count resolved. Without escapes it stands behind that byte. -/
def unicodeFault (opened rest : Bytes) (wrong : Nat) : Fault :=
  ⟨.invalidUnicode, opened.drop (opened.length - (rest.length + wrong))⟩

namespace TextScan

def start (opened : Bytes) : TextScan :=
  ⟨opened, [], .plain⟩

/-- The string held when the closing quote is met; `rest` follows the quote. -/
def close (scan : TextScan) (rest : Bytes) : Except Fault TextStep :=
  match Text.Utf8.decode scan.content.reverse with
  | .ok text => .ok (.done (String.ofList text))
  | .error fault =>
    .error (unicodeFault scan.opened rest (scan.content.length - fault.validLength))

def push (scan : TextScan) (codePoint : Nat) : TextStep :=
  let encoded := String.utf8EncodeChar (Char.ofNat codePoint)
  .more ⟨scan.opened, encoded.reverse ++ scan.content, .plain⟩

/-- The code unit of an escape, behind a leading surrogate or not. -/
def unit (scan : TextScan) (leading? : Option Nat) (unit : Nat) (rest : Bytes) :
    Except Fault TextStep :=
  match leading? with
  | none =>
    if 0xDC00 ≤ unit ∧ unit ≤ 0xDFFF then .error ⟨.loneLeadingSurrogate, rest⟩
    else if 0xD800 ≤ unit ∧ unit ≤ 0xDBFF then
      .ok (.more { scan with escape := .paired unit })
    else .ok (scan.push unit)
  | some leading =>
    if 0xDC00 ≤ unit ∧ unit ≤ 0xDFFF then
      .ok (scan.push ((leading - 0xD800) * 0x400 + (unit - 0xDC00) + 0x10000))
    else .error ⟨.loneLeadingSurrogate, rest⟩

/-- What the next byte does; `rest` follows it. -/
def step (scan : TextScan) (b : UInt8) (rest : Bytes) : Except Fault TextStep :=
  match scan.escape with
  | .plain =>
    if b = byte '"' then scan.close rest
    else if b = byte '\\' then .ok (.more { scan with escape := .begun })
    else if b < 0x20 then .error ⟨.controlCharacter, rest⟩
    else .ok (.more { scan with content := b :: scan.content })
  | .begun =>
    if b = byte 'u' then .ok (.more { scan with escape := .digits none [] })
    else
      match escapeOf? b with
      | some meant => .ok (.more { scan with content := meant :: scan.content, escape := .plain })
      | none => .error ⟨.invalidEscape, rest⟩
  | .digits leading? taken =>
    if taken.length < 3 then .ok (.more { scan with escape := .digits leading? (b :: taken) })
    else
      match codeUnit? (b :: taken).reverse with
      | some found => scan.unit leading? found rest
      | none => .error ⟨.invalidEscape, rest⟩
  | .paired leading =>
    if b = byte '\\' then .ok (.more { scan with escape := .pairedLetter leading })
    else .error ⟨.unexpectedEndOfHexEscape, rest⟩
  | .pairedLetter leading =>
    if b = byte 'u' then .ok (.more { scan with escape := .digits (some leading) [] })
    else .error ⟨.unexpectedEndOfHexEscape, rest⟩

end TextScan

/-- Reads on in a string up to its closing quote, and returns what follows the quote. -/
def readTextFrom (scan : TextScan) : Bytes → Except Fault (String × Bytes)
  | [] => .error ⟨.endInString, []⟩
  | b :: rest =>
    match scan.step b rest with
    | .error fault => .error fault
    | .ok (.done text) => .ok (text, rest)
    | .ok (.more next) => readTextFrom next rest

/-- Reads a string whose opening quote was taken. -/
def readText (opened : Bytes) : Except Fault (String × Bytes) :=
  readTextFrom (.start opened) opened

end Airlock.Json
