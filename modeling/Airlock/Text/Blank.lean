import Airlock.Text.CodeRange

/-!
# Blanks and trimming

Blank is the Unicode property White_Space. It holds of U+0085 and of the no-break space, and fails
on U+200B and U+FEFF, which show nothing either.
-/

set_option autoImplicit false

namespace Airlock.Text

def blankRanges : CodeRanges := [
    (0x9, 0xD), (0x20, 0x20), (0x85, 0x85), (0xA0, 0xA0), (0x1680, 0x1680), (0x2000, 0x200A),
    (0x2028, 0x2029), (0x202F, 0x202F), (0x205F, 0x205F), (0x3000, 0x3000)
]

def isBlank (c : Char) : Bool :=
  blankRanges.holds c

/-- The text without the blanks at its two ends; blanks inside stay. -/
def trim (text : List Char) : List Char :=
  ((text.dropWhile isBlank).reverse.dropWhile isBlank).reverse

end Airlock.Text
