import Airlock.Number.Shortest

/-!
# How a double is written

Numbers from ten to the power -5 up to below ten to the power 16 are written positionally and always
show a point and a digit after it; all others show an exponent, whose sign is always written. The
sign of a zero is written.
-/

set_option autoImplicit false

namespace Airlock.Double

/-- The choices of a decimal notation: from which decimal exponent of the first digit on, and up to
below which one, a number is written positionally. -/
structure NotationStyle where
  positionalFrom : Int
  positionalBelow : Int

/-- Doubles are positional from 0.00001 up to below ten to the power 16. -/
def textStyle : NotationStyle := ⟨-5, 16⟩

def Decimal.positional (decimal : Decimal) : List Char :=
  let count : Int := decimal.digits.length
  if decimal.point ≤ 0 then
    '0' :: '.' :: (List.replicate (-decimal.point).toNat '0' ++ decimal.digits)
  else if count ≤ decimal.point then
    decimal.digits ++ List.replicate (decimal.point - count).toNat '0' ++ ['.', '0']
  else
    decimal.digits.take decimal.point.toNat ++ '.' :: decimal.digits.drop decimal.point.toNat

/-- One digit before the point, the others after it, and the exponent with its sign. A single digit
stands without a point. -/
def Decimal.scientific (decimal : Decimal) : List Char :=
  let exponent := decimal.point - 1
  let fractionPart := decimal.digits.drop 1
  decimal.digits.take 1 ++ (if fractionPart.isEmpty then [] else '.' :: fractionPart)
    ++ 'e' :: (if exponent < 0 then '-' else '+') :: Nat.toDigits 10 exponent.natAbs

/-- A decimal in the notation that its size calls for. -/
def Decimal.text (style : NotationStyle) (decimal : Decimal) : List Char :=
  let exponent := decimal.point - 1
  if style.positionalFrom ≤ exponent ∧ exponent < style.positionalBelow then decimal.positional
  else decimal.scientific

def text (d : Double) : List Char :=
  let unsigned := d.shortest.text textStyle
  if d.isNegative then '-' :: unsigned else unsigned

end Airlock.Double
