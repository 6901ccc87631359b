/-!
# TOML values and documents under construction

A document grows line by line. Each table remembers how it came about, because a table that a header
names is complete where it stands, one that dotted keys made may only grow by dotted keys, and one
that a longer header merely passed through may still be named by a header of its own.
-/

set_option autoImplicit false

namespace Airlock.Toml

/-- A value. Of a floating-point number and of a date or time only the kind is kept. -/
inductive Item where
  | string (s : List Char)
  | integer (n : Int)
  | float
  | bool (b : Bool)
  | moment
  | array (items : List Item)
  | table (entries : List (List Char × Item))

inductive Origin where
  /-- named by a header, or the document itself -/
  | named
  /-- passed through by a header -/
  | passed
  /-- made by dotted keys -/
  | dotted
  deriving DecidableEq

inductive Node where
  | leaf (item : Item)
  | table (origin : Origin) (entries : List (List Char × Node))
  /-- tables named by headers in double brackets, the latest first -/
  | tables (latest : List (List Char × Node)) (before : List (List (List Char × Node)))

/-- The entries of a table under construction, in the order they came. -/
abbrev Entries := List (List Char × Node)

namespace Entries

def get? (entries : Entries) (key : List Char) : Option Node :=
  entries.lookup key

/-- Puts a node under a key, in place of the one there or at the end. -/
def put (entries : Entries) (key : List Char) (node : Node) : Entries :=
  match entries with
  | [] => [(key, node)]
  | (k, held) :: rest => if k = key then (key, node) :: rest else (k, held) :: put rest key node

/-- Adds a value under a dotted key to a table of the given origin. No part of the key may lead
into a table that a header names or through a value, and the last part has to be new. The table that
takes the value must be the one of the line's own header, or have been made by dotted keys. -/
def addValue (entries : Entries) (origin : Origin) (nested : Bool) (item : Item) :
    List (List Char) → Option Entries
  | [] => none
  | [key] =>
    if (origin == .dotted) != nested then none
    else
      match entries.get? key with
      | some _ => none
      | none => some (entries.put key (.leaf item))
  | key :: path =>
    match entries.get? key with
    | none => do
      let inner ← addValue [] .dotted true item path
      return entries.put key (.table .dotted inner)
    | some (.table .named _) => none
    | some (.table inner held) => do
      let grown ← addValue held inner true item path
      return entries.put key (.table inner grown)
    | some (.tables latest before) => do
      let grown ← addValue latest .named true item path
      return entries.put key (.tables grown before)
    | some (.leaf _) => none

/-- Changes the table that a path of header keys leads to; tables on the way come into being. In a
sequence of tables the path goes on in the latest one. -/
def changeAt (entries : Entries) (origin : Origin) (change : Entries → Origin → Option Entries) :
    List (List Char) → Option Entries
  | [] => change entries origin
  | key :: path =>
    match entries.get? key with
    | none => do
      let inner ← changeAt [] .passed change path
      return entries.put key (.table .passed inner)
    | some (.table inner held) => do
      let grown ← changeAt held inner change path
      return entries.put key (.table inner grown)
    | some (.tables latest before) => do
      let grown ← changeAt latest .named change path
      return entries.put key (.tables grown before)
    | some (.leaf _) => none

def nameTable (key : List Char) (entries : Entries) (_ : Origin) : Option Entries :=
  match entries.get? key with
  | none => some (entries.put key (.table .named []))
  | some (.table .passed held) => some (entries.put key (.table .named held))
  | some _ => none

def nameNext (key : List Char) (entries : Entries) (_ : Origin) : Option Entries :=
  match entries.get? key with
  | none => some (entries.put key (.tables [] []))
  | some (.tables latest before) => some (entries.put key (.tables [] (latest :: before)))
  | some _ => none

end Entries

mutual

def Node.item : Node → Item
  | .leaf item => item
  | .table _ entries => .table (itemsOf entries)
  | .tables latest before => .array (tablesOf before [.table (itemsOf latest)])

def itemsOf : List (List Char × Node) → List (List Char × Item)
  | [] => []
  | (key, node) :: rest => (key, node.item) :: itemsOf rest

/-- Tables held latest first, in the order they came, in front of those given. -/
def tablesOf : List (List (List Char × Node)) → List Item → List Item
  | [], done => done
  | entries :: rest, done => tablesOf rest (.table (itemsOf entries) :: done)

end

end Airlock.Toml
