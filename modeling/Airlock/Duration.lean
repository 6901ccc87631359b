/-!
# Spans of time

A span is counted in nanoseconds. It is written in the largest of the units s, ms, µs and ns that it
reaches, with the decimals it needs and no more.
-/

set_option autoImplicit false

namespace Airlock

structure Duration where
  nanoseconds : Nat
  deriving DecidableEq, Repr

namespace Duration

def ofMilliseconds (n : Nat) : Duration :=
  ⟨n * 1000000⟩

def ofParts (seconds nanoseconds : Nat) : Duration :=
  ⟨seconds * 1000000000 + nanoseconds⟩

def add (first second : Duration) : Duration :=
  ⟨first.nanoseconds + second.nanoseconds⟩

def milliseconds (d : Duration) : Nat :=
  d.nanoseconds / 1000000

/-- A count of `10 ^ places` parts as a decimal number of wholes, without trailing zeros. -/
def decimalText (count places : Nat) : List Char :=
  let whole := Nat.toDigits 10 (count / Nat.pow 10 places)
  let digits := Nat.toDigits 10 (count % Nat.pow 10 places)
  let padded := List.replicate (places - digits.length) '0' ++ digits
  let decimals := (padded.reverse.dropWhile (· = '0')).reverse
  if decimals.isEmpty then whole else whole ++ '.' :: decimals

def text (d : Duration) : String :=
  let n := d.nanoseconds
  if 1000000000 ≤ n then String.ofList (decimalText n 9) ++ "s"
  else if 1000000 ≤ n then String.ofList (decimalText n 6) ++ "ms"
  else if 1000 ≤ n then String.ofList (decimalText n 3) ++ "µs"
  else toString n ++ "ns"

end Duration

end Airlock
