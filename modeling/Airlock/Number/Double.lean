/-!
# Finite 64-bit floating-point numbers

A double is its 64 bits together with the proof that they spell a finite number, so two doubles are
equal exactly when their bits are; the two zeros differ. All arithmetic is exact on natural numbers
and rounds once, to nearest with ties to even. There is no infinity and no NaN: an operation whose
result has no finite double gives nothing.
-/

set_option autoImplicit false

namespace Airlock

/-- A finite number in the 64-bit binary interchange format. -/
structure Double where
  bits : UInt64
  finite : bits.toNat / Nat.pow 2 52 % Nat.pow 2 11 < 2047
  deriving DecidableEq

/-- A non-negative rational number. The denominator is never zero where one is built. -/
structure Ratio where
  num : Nat
  den : Nat

namespace Ratio

def ofBinary (coefficient : Nat) (scale : Int) : Ratio :=
  ⟨coefficient * Nat.pow 2 scale.toNat, Nat.pow 2 (-scale).toNat⟩

def mul (a b : Ratio) : Ratio :=
  ⟨a.num * b.num, a.den * b.den⟩

def div (a b : Ratio) : Ratio :=
  ⟨a.num * b.den, a.den * b.num⟩

/-- The nearest natural number; a tie goes to the even neighbour. -/
def round (r : Ratio) : Nat :=
  let below := r.num / r.den
  let rest := r.num % r.den
  if 2 * rest < r.den then below
  else if r.den < 2 * rest then below + 1
  else below + below % 2

/-- The scale at which the number has a coefficient of 53 bits, or the least scale of a double when
the number is too small for that. -/
def doubleScale (r : Ratio) : Int :=
  let estimate : Int := (r.num.log2 : Int) - (r.den.log2 : Int) - 52
  let short := r.num * Nat.pow 2 (-estimate).toNat < r.den * Nat.pow 2 estimate.toNat * Nat.pow 2 52
  max (if short then estimate - 1 else estimate) (-1074)

/-- The lower 63 bits of the double nearest to the number. They are those of no finite double when
the number is too large. Adding the coefficient to the exponent field makes a coefficient that was
rounded up to the next power of two carry into the exponent. -/
def magnitudeBits (r : Ratio) : Nat :=
  if r.num = 0 then 0
  else
    let scale := r.doubleScale
    (scale + 1074).toNat * Nat.pow 2 52 + (r.mul (ofBinary 1 (-scale))).round

end Ratio

namespace Double

/-- The double with the given bits, if they spell a finite number. -/
def ofBits? (bits : UInt64) : Option Double :=
  if finite : bits.toNat / Nat.pow 2 52 % Nat.pow 2 11 < 2047 then some ⟨bits, finite⟩ else none

theorem ofBits?_bits (d : Double) : ofBits? d.bits = some d :=
  dif_pos d.finite

/-- Whether the sign bit is set; it is for the negative zero. -/
def isNegative (d : Double) : Bool :=
  decide (Nat.pow 2 63 ≤ d.bits.toNat)

def exponentField (d : Double) : Nat :=
  d.bits.toNat / Nat.pow 2 52 % Nat.pow 2 11

def fraction (d : Double) : Nat :=
  d.bits.toNat % Nat.pow 2 52

/-- The integer that, times two to the power `scale`, is the magnitude. -/
def coefficient (d : Double) : Nat :=
  if d.exponentField = 0 then d.fraction else Nat.pow 2 52 + d.fraction

def scale (d : Double) : Int :=
  if d.exponentField = 0 then -1074 else (d.exponentField : Int) - 1075

def magnitude (d : Double) : Ratio :=
  Ratio.ofBinary d.coefficient d.scale

/-- The double nearest to a number, with the given sign. There is none from the middle between the
greatest double and the next power of two on. -/
def ofRatio? (negative : Bool) (r : Ratio) : Option Double :=
  let magnitude := r.magnitudeBits
  if magnitude < 2047 * Nat.pow 2 52 then
    ofBits? (UInt64.ofNat ((if negative then Nat.pow 2 63 else 0) + magnitude))
  else none

def zero (negative : Bool) : Double :=
  if negative then ⟨0x8000000000000000, by decide⟩ else ⟨0, by decide⟩

/-- The greatest power of ten that a double comes near to. -/
def maxPowerOfTen : Nat := 308

/-- The double nearest to a power of ten, up to `maxPowerOfTen`. -/
def powerOfTen (exponent : Nat) : Option Double :=
  ofRatio? false ⟨Nat.pow 10 exponent, 1⟩

def scaleUp? (negative : Bool) (d : Double) (exponent : Nat) : Option Double := do
  let power ← powerOfTen exponent
  ofRatio? negative (d.magnitude.mul power.magnitude)

def scaleDown? (negative : Bool) (d : Double) (exponent : Nat) : Option Double := do
  let power ← powerOfTen exponent
  ofRatio? negative (d.magnitude.div power.magnitude)

/-- The double read from `significand` times ten to the power `exponent`: both are rounded to
doubles first and their product or quotient is rounded again, so the result can be off by one unit
in the last place. A number too large gives nothing, a number too small gives zero. -/
def ofDecimal? (negative : Bool) (significand : Nat) (exponent : Int) : Option Double := do
  if significand = 0 then some (zero negative)
  else
    let start ← ofRatio? false ⟨significand, 1⟩
    let size := exponent.natAbs
    if 0 ≤ exponent then
      if size ≤ maxPowerOfTen then scaleUp? negative start size else none
    else if size ≤ maxPowerOfTen then scaleDown? negative start size
    else if size ≤ 2 * maxPowerOfTen then
      let lowered ← scaleDown? false start maxPowerOfTen
      scaleDown? negative lowered (size - maxPowerOfTen)
    else some (zero negative)

/-- The double equal to a 32-bit floating-point number given by its bits; none for an infinity or a
NaN. -/
def ofSingleBits? (bits : UInt32) : Option Double :=
  let n := bits.toNat
  let field : Nat := n / Nat.pow 2 23 % Nat.pow 2 8
  let fraction : Nat := n % Nat.pow 2 23
  let negative := decide (Nat.pow 2 31 ≤ n)
  if field = 255 then none
  else if field = 0 then ofRatio? negative (Ratio.ofBinary fraction (-149))
  else ofRatio? negative (Ratio.ofBinary (Nat.pow 2 23 + fraction) ((field : Int) - 150))

end Double

end Airlock
