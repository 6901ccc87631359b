/-!
# Natural numbers from decimal digits

Digits after an optional plus sign. The first character that is no digit counts before an overflow
behind it, and an overflow before a character behind it.
-/

set_option autoImplicit false

namespace Airlock.Text

inductive DigitsError where
  | empty
  | invalidDigit
  | tooLarge
  deriving DecidableEq, Repr

def DigitsError.message : DigitsError → String
  | .empty => "cannot parse integer from empty string"
  | .invalidDigit => "invalid digit found in string"
  | .tooLarge => "number too large to fit in target type"

def readDigits (limit n : Nat) : List Char → Except DigitsError Nat
  | [] => .ok n
  | c :: rest =>
    if c.isDigit then
      let wider := n * 10 + (c.toNat - 48)
      if wider < limit then readDigits limit wider rest else .error .tooLarge
    else .error .invalidDigit

def readNat (limit : Nat) : List Char → Except DigitsError Nat
  | [] => .error .empty
  | ['+'] => .error .invalidDigit
  | '+' :: digits => readDigits limit 0 digits
  | digits => readDigits limit 0 digits

def readSize (text : List Char) : Except DigitsError Nat :=
  readNat 0x10000000000000000 text

end Airlock.Text
