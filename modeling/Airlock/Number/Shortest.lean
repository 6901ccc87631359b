import Airlock.Number.Double

/-!
# The shortest decimal that reads back

Among the decimals that lie in the interval of reals rounding to a double, the one with the fewest
digits, and of those the nearest to the double. For each number of digits the decimals of that
length form a grid, and only the two neighbours of the double on it need to be tried: when any point
of a grid lies in the interval, so does one of the neighbours. Seventeen digits always suffice.
-/

set_option autoImplicit false

namespace Airlock.Double

/-- Decimal digits, the point standing `point` places after their start. -/
structure Decimal where
  digits : List Char
  point : Int

/-- How many decimal digits a natural number has; zero has one. -/
def digitCount (n : Nat) : Nat :=
  (Nat.toDigits 10 n).length

/-- The decimal exponent of the first digit of a positive number. -/
def leadingExponent (r : Ratio) : Int :=
  if r.den ≤ r.num then (digitCount (r.num / r.den) : Int) - 1
  else -(digitCount ((r.den + r.num - 1) / r.num - 1) : Int)

/-- The interval of reals that round to a positive double, in quarters of its unit in the last
place: lower end, the double itself, upper end, and whether the ends belong to it. Below a power of
two the neighbouring double is nearer. -/
structure Rounding where
  low : Nat
  value : Nat
  high : Nat
  closed : Bool

def rounding (d : Double) : Rounding :=
  let value := 4 * d.coefficient
  let narrow := d.coefficient = Nat.pow 2 52 ∧ -1074 < d.scale
  ⟨if narrow then value - 1 else value - 2, value, value + 2, d.coefficient % 2 = 0⟩

/-- Whether `candidate` times `grid` lies in the interval, whose ends count `unit`s. -/
def Rounding.admits (interval : Rounding) (unit grid candidate : Nat) : Bool :=
  if interval.closed then
    decide (interval.low * unit ≤ candidate * grid ∧ candidate * grid ≤ interval.high * unit)
  else
    decide (interval.low * unit < candidate * grid ∧ candidate * grid < interval.high * unit)

/-- The decimal of `count` digits that reads back as the positive double, if there is one: the
nearer of the two neighbours that do, and on a tie the even one. -/
def ofLength? (d : Double) (leading : Int) (count : Nat) : Option Decimal :=
  let exponent := leading - count + 1
  let interval := d.rounding
  let unit := Nat.pow 2 (d.scale - 2).toNat * Nat.pow 10 (-exponent).toNat
  let grid := Nat.pow 2 (2 - d.scale).toNat * Nat.pow 10 exponent.toNat
  let below := interval.value * unit / grid
  let downward := interval.value * unit - below * grid
  let upward := (below + 1) * grid - interval.value * unit
  let chosen? :=
    match interval.admits unit grid below, interval.admits unit grid (below + 1) with
    | true, true =>
      if downward < upward then some below
      else if upward < downward then some (below + 1)
      else some (below + below % 2)
    | true, false => some below
    | false, true => some (below + 1)
    | false, false => none
  chosen?.map fun chosen =>
    let digits := Nat.toDigits 10 chosen
    ⟨(digits.reverse.dropWhile (· = '0')).reverse, digits.length + exponent⟩

/-- The shortest decimal that reads back as the magnitude; a single zero for a zero. -/
def shortest (d : Double) : Decimal :=
  if d.coefficient = 0 then ⟨['0'], 1⟩
  else
    let leading := leadingExponent d.magnitude
    let lengths := (List.range 17).map (· + 1)
    (lengths.findSome? (d.ofLength? leading)).getD ⟨['0'], 1⟩

end Airlock.Double
