import Airlock.Json.Value
import Airlock.Text.Utf8

/-!
# JSON text of a value

The compact text has no blanks at all. The indented text puts every item and member on a line of its
own, two blanks deeper than its container, and shows an empty container as its two brackets. In
strings only quotes, backslashes and characters below U+0020 are escaped.
-/

set_option autoImplicit false

namespace Airlock.Json

/-- One hexadecimal digit of a number below 16, in lower case. -/
def hexDigit (n : Nat) : Char :=
  Nat.digitChar n

def escapedChar (c : Char) : List Char :=
  if c = '"' then ['\\', '"']
  else if c = '\\' then ['\\', '\\']
  else if c = '\x08' then ['\\', 'b']
  else if c = '\x0c' then ['\\', 'f']
  else if c = '\n' then ['\\', 'n']
  else if c = '\r' then ['\\', 'r']
  else if c = '\t' then ['\\', 't']
  else if c.toNat < 0x20 then
    ['\\', 'u', '0', '0', hexDigit (c.toNat / 16), hexDigit (c.toNat % 16)]
  else [c]

def stringText (text : String) : List Char :=
  '"' :: text.toList.flatMap escapedChar ++ ['"']

mutual

def text : Value → List Char
  | .null => ['n', 'u', 'l', 'l']
  | .bool true => ['t', 'r', 'u', 'e']
  | .bool false => ['f', 'a', 'l', 's', 'e']
  | .number n => n.text
  | .string s => stringText s
  | .array [] => ['[', ']']
  | .array (item :: rest) => '[' :: (text item ++ itemsText rest)
  | .object [] => ['\x7b', '\x7d']
  | .object ((key, value) :: rest) =>
    '\x7b' :: (stringText key ++ ':' :: (text value ++ membersText rest))

/-- The items after the first, each after a comma, and the closing bracket. -/
def itemsText : List Value → List Char
  | [] => [']']
  | item :: rest => ',' :: (text item ++ itemsText rest)

/-- The members after the first, each after a comma, and the closing brace. -/
def membersText : List (String × Value) → List Char
  | [] => ['\x7d']
  | (key, value) :: rest => ',' :: (stringText key ++ ':' :: (text value ++ membersText rest))

end

def lineBreak (depth : Nat) : List Char :=
  '\n' :: List.replicate (2 * depth) ' '

mutual

/-- The indented text of a value that stands at a depth. -/
def indentedAt (depth : Nat) : Value → List Char
  | .array (item :: rest) =>
    '[' :: (lineBreak (depth + 1) ++ indentedAt (depth + 1) item ++ indentedItems depth rest)
  | .object ((key, value) :: rest) =>
    '\x7b' :: (lineBreak (depth + 1) ++ stringText key ++ [':', ' '] ++ indentedAt (depth + 1) value
      ++ indentedMembers depth rest)
  | .array [] => ['[', ']']
  | .object [] => ['\x7b', '\x7d']
  | .null => ['n', 'u', 'l', 'l']
  | .bool true => ['t', 'r', 'u', 'e']
  | .bool false => ['f', 'a', 'l', 's', 'e']
  | .number n => n.text
  | .string s => stringText s

/-- The items after the first and the closing bracket, of a container at a depth. -/
def indentedItems (depth : Nat) : List Value → List Char
  | [] => lineBreak depth ++ [']']
  | item :: rest =>
    ',' :: (lineBreak (depth + 1) ++ indentedAt (depth + 1) item ++ indentedItems depth rest)

/-- The members after the first and the closing brace, of a container at a depth. -/
def indentedMembers (depth : Nat) : List (String × Value) → List Char
  | [] => lineBreak depth ++ ['\x7d']
  | (key, value) :: rest =>
    ',' :: (lineBreak (depth + 1) ++ stringText key ++ [':', ' '] ++ indentedAt (depth + 1) value
      ++ indentedMembers depth rest)

end

def compact (value : Value) : String :=
  String.ofList (text value)

def indented (value : Value) : String :=
  String.ofList (indentedAt 0 value)

def encode (value : Value) : Bytes :=
  Text.Utf8.encode (text value)

end Airlock.Json
