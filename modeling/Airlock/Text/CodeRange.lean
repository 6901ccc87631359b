/-!
# Sets of characters as ranges of code points

A property of characters that a standard fixes by a table is kept as the list of its maximal
ranges, in increasing order. Membership does not rely on the order.
-/

set_option autoImplicit false

namespace Airlock.Text

/-- Ranges of code points, both ends included. -/
abbrev CodeRanges := List (Nat × Nat)

/-- A character belongs to a table when one of its ranges holds its code point. -/
def CodeRanges.holds (ranges : CodeRanges) (c : Char) : Bool :=
  ranges.any fun range => range.1 ≤ c.toNat && c.toNat ≤ range.2

theorem CodeRanges.holds_iff {ranges : CodeRanges} {c : Char} :
    ranges.holds c = true ↔ ∃ range ∈ ranges, range.1 ≤ c.toNat ∧ c.toNat ≤ range.2 := by
  simp [CodeRanges.holds]

end Airlock.Text
