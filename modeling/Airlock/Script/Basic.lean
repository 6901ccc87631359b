import Airlock.Script.Entry
import Airlock.Text.Blank
import Airlock.Text.Lines

/-!
# Scripts

A script has one entry a line. Blank lines and lines whose first character other than a blank is a
number sign are skipped, but count. The first line that is no entry, or whose method is empty, gives
the fault of the script; a script without entries is at fault only when no line is.
-/

set_option autoImplicit false

namespace Airlock

namespace Script

/-- Why a text is no script. The reason of a line is worded already. -/
inductive Fault where
  | badLine (line : Nat) (reason : String)
  | emptyMethod (line : Nat)
  | empty
  deriving DecidableEq, Repr

def Fault.message : Fault → String
  | .badLine line reason => "line " ++ toString line ++ ": " ++ reason
  | .emptyMethod line => "line " ++ toString line ++ ": method is empty"
  | .empty => "script has no messages"

def isSilent (line : List Char) : Bool :=
  line.isEmpty || line.head? = some '#'

/-- The entry of the line with that number, if the line says anything. -/
def readLine (number : Nat) (line : List Char) : Except Fault (Option Entry) :=
  let trimmed := Text.trim line
  if isSilent trimmed then .ok none
  else
    let bytes := Text.Utf8.encode trimmed
    match Entry.parse bytes with
    | .error fault => .error (.badLine number (fault.message bytes))
    | .ok entry => if entry.method.isEmpty then .error (.emptyMethod number) else .ok (some entry)

/-- The entries of lines of which the first has the given number. -/
def readLines (number : Nat) : List (List Char) → Except Fault (List Entry)
  | [] => .ok []
  | line :: rest => do
    let entry? ← readLine number line
    let entries ← readLines (number + 1) rest
    return entry?.toList ++ entries

/-- The entries of a script, of which there is at least one. -/
def parse (text : List Char) : Except Fault (List Entry) := do
  let entries ← readLines 1 (Text.lines text)
  if entries.isEmpty then throw .empty
  return entries

end Script

end Airlock
