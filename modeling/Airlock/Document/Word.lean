import Airlock.Text.Lines

/-!
# Words in a text

A word is a run of letters, numbers and underscores inside a line that cannot be made longer. Which
characters are letters and numbers is left to a predicate. Characters are counted as code points. A
position touches a word when it stands before, inside or right behind it; a position beyond the end
of a line stands at the end.
-/

set_option autoImplicit false

namespace Airlock.Document

variable (alphanumeric : Char → Bool)

def isWordPart (c : Char) : Bool :=
  alphanumeric c || c = '_'

/-- A line and a character in it, both counted from zero. -/
structure Position where
  line : Nat
  character : Nat
  deriving DecidableEq, Repr

/-- A word and where it stands in its line; `stop` is the place right behind it. -/
structure Word where
  text : List Char
  start : Nat
  stop : Nat
  deriving DecidableEq, Repr

def wordIn (line : List Char) (character : Nat) : Option Word :=
  let cursor := min character line.length
  let before := ((line.take cursor).reverse.takeWhile (isWordPart alphanumeric)).reverse
  let behind := (line.drop cursor).takeWhile (isWordPart alphanumeric)
  let start := cursor - before.length
  let stop := cursor + behind.length
  if start < stop then some ⟨before ++ behind, start, stop⟩ else none

/-- The word that a position in a text touches. A line that is not there has no words. -/
def touchedWord (text : List Char) (position : Position) : Option Word :=
  (Text.lines text)[position.line]?.bind fun line => wordIn alphanumeric line position.character

structure Span where
  line : Nat
  start : Nat
  stop : Nat
  deriving DecidableEq, Repr

/-- Whether a text begins with the word and the word ends there. -/
def beginsWithWord (word : List Char) (text : List Char) : Bool :=
  word.isPrefixOf text &&
    (match text.drop word.length with
      | [] => true
      | next :: _ => !isWordPart alphanumeric next)

/-- Where the word stands alone in the rest of a line, which begins at `index`. `bounded` says that
no character of a word comes just before; the next `passed` characters belong to the occurrence
found last. -/
def placesFrom (word : List Char) (line index : Nat) (bounded : Bool) (passed : Nat) :
    List Char → List Span
  | [] => []
  | c :: rest =>
    let bounded' := !isWordPart alphanumeric c
    if 0 < passed then placesFrom word line (index + 1) bounded' (passed - 1) rest
    else if bounded && beginsWithWord alphanumeric word (c :: rest) then
      ⟨line, index, index + word.length⟩
        :: placesFrom word line (index + 1) bounded' (word.length - 1) rest
    else placesFrom word line (index + 1) bounded' 0 rest

/-- Where the word stands alone in lines of which the first has the given number. -/
def placesInLines (word : List Char) (number : Nat) : List (List Char) → List Span
  | [] => []
  | line :: rest =>
    placesFrom alphanumeric word number 0 true 0 line ++ placesInLines word (number + 1) rest

/-- Every place in a text where the word stands alone. -/
def places (text word : List Char) : List Span :=
  placesInLines alphanumeric word 0 (Text.lines text)

end Airlock.Document
