import Airlock.Number.Notation

/-!
# Numbers

A number is an integer from -2^63 up to below 2^64, or a finite double. The two kinds stay apart:
the integer one and the double one are different numbers.
-/

set_option autoImplicit false

namespace Airlock

/-- An integer that fits in 64 bits, with or without a sign. -/
structure Integer where
  val : Int
  inRange : -0x8000000000000000 ≤ val ∧ val < 0x10000000000000000
  deriving DecidableEq

namespace Integer

def ofInt? (n : Int) : Option Integer :=
  if inRange : -0x8000000000000000 ≤ n ∧ n < 0x10000000000000000 then some ⟨n, inRange⟩ else none

def ofInt64 (n : Int64) : Integer :=
  ⟨n.toInt, by have := Int64.le_toInt n; have := Int64.toInt_lt n; omega⟩

def ofUInt64 (n : UInt64) : Integer :=
  ⟨n.toNat, by have := n.toNat_lt; omega⟩

/-- The signed 64-bit integer of that value, if there is one. -/
def toInt64? (n : Integer) : Option Int64 :=
  if n.val < 0x8000000000000000 then some (Int64.ofInt n.val) else none

/-- The unsigned 64-bit integer of that value, if there is one. -/
def toUInt64? (n : Integer) : Option UInt64 :=
  if 0 ≤ n.val then some (UInt64.ofNat n.val.toNat) else none

def text (n : Integer) : List Char :=
  if n.val < 0 then '-' :: Nat.toDigits 10 n.val.natAbs else Nat.toDigits 10 n.val.natAbs

end Integer

inductive Number where
  | integer (n : Integer)
  | double (d : Double)
  deriving DecidableEq

def Number.text : Number → List Char
  | .integer n => n.text
  | .double d => d.text

end Airlock
