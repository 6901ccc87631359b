/-!
# Lines of a text

A line ends at a line feed, and a carriage return just before that line feed belongs to the ending.
A last line without a line feed is a line too and keeps a carriage return it ends in. No line
follows a line feed at the end of the text, so the empty text has no lines.
-/

set_option autoImplicit false

namespace Airlock.Text

/-- A line taken in reverse, without the carriage return it ends in, if there is one. -/
def dropReturn : List Char → List Char
  | [] => []
  | c :: taken => if c = '\r' then taken else c :: taken

/-- The lines of a text whose first line begins with `taken`, which is held in reverse. -/
def linesFrom (taken : List Char) : List Char → List (List Char)
  | [] => if taken.isEmpty then [] else [taken.reverse]
  | c :: rest =>
    if c = '\n' then (dropReturn taken).reverse :: linesFrom [] rest
    else linesFrom (c :: taken) rest

def lines (text : List Char) : List (List Char) :=
  linesFrom [] text

end Airlock.Text
