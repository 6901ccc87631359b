import Airlock.Text.Unprintable
import Airlock.Text.Combining

/-!
# Quoted text for diagnostics

A text between double quotes in which every character can be told from every other: quotes,
backslashes and the common controls by a letter, other characters that print as nothing, and marks
that would join the quote before them, by their code point. A single quote stands for itself.
-/

set_option autoImplicit false

namespace Airlock.Text

/-- Lower-case hexadecimal digits, without leading zeros. -/
def hexDigits (n : Nat) : List Char :=
  Nat.toDigits 16 n

def quotedChar (c : Char) : List Char :=
  if c = '"' then ['\\', '"']
  else if c = '\\' then ['\\', '\\']
  else if c = '\n' then ['\\', 'n']
  else if c = '\r' then ['\\', 'r']
  else if c = '\t' then ['\\', 't']
  else if c = '\x00' then ['\\', '0']
  else if isCombining c || isUnprintable c then
    ['\\', 'u', '\x7b'] ++ hexDigits c.toNat ++ ['\x7d']
  else [c]

def quoted (text : List Char) : List Char :=
  '"' :: text.flatMap quotedChar ++ ['"']

end Airlock.Text
