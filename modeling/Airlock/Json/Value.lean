import Airlock.Number.Basic

/-!
# JSON values

An object is a list of members. Reading keeps them in increasing order of keys, each key once; the
order is that of code points, which is the order of the UTF-8 bytes. `Value.WellFormed` states this
for a value and everything inside it.
-/

set_option autoImplicit false

namespace Airlock

inductive Value where
  | null
  | bool (b : Bool)
  | number (n : Number)
  | string (s : String)
  | array (items : List Value)
  | object (members : List (String × Value))
  deriving Inhabited

/-- The members of an object, in increasing order of keys. -/
abbrev Members := List (String × Value)

namespace Members

/-- Puts a member in its place by key. A member with that key is replaced. -/
def insert (members : Members) (key : String) (value : Value) : Members :=
  match members with
  | [] => [(key, value)]
  | (k, v) :: rest =>
    if key < k then (key, value) :: (k, v) :: rest
    else if key = k then (key, value) :: rest
    else (k, v) :: insert rest key value

def get? (members : Members) (key : String) : Option Value :=
  match members with
  | [] => none
  | (k, v) :: rest => if k = key then some v else get? rest key

/-- Members given in any order, put in order; of two with one key the later counts. -/
def ofList (members : List (String × Value)) : Members :=
  members.foldl (fun held member => held.insert member.1 member.2) []

def Ordered (members : Members) : Prop :=
  members.Pairwise fun a b => a.1 < b.1

end Members

namespace Value

def ofMembers (members : List (String × Value)) : Value :=
  .object (Members.ofList members)

/-- A natural number below 2^64; larger ones wrap. -/
def ofNat (n : Nat) : Value :=
  .number (.integer (.ofUInt64 (UInt64.ofNat n)))

def isNull : Value → Bool
  | .null => true
  | _ => false

def kind : Value → String
  | .null => "null"
  | .bool _ => "bool"
  | .number _ => "number"
  | .string _ => "string"
  | .array _ => "array"
  | .object _ => "object"

mutual

/-- How many containers are nested in a value, itself counted. A scalar has none. -/
def nesting : Value → Nat
  | .array items => nestingOfItems items + 1
  | .object members => nestingOfMembers members + 1
  | _ => 0

def nestingOfItems : List Value → Nat
  | [] => 0
  | item :: rest => max item.nesting (nestingOfItems rest)

def nestingOfMembers : List (String × Value) → Nat
  | [] => 0
  | (_, value) :: rest => max value.nesting (nestingOfMembers rest)

end

mutual

/-- Every object in the value has its members in order. -/
def WellFormed : Value → Prop
  | .array items => ItemsWellFormed items
  | .object members => Members.Ordered members ∧ MembersWellFormed members
  | _ => True

def ItemsWellFormed : List Value → Prop
  | [] => True
  | item :: rest => item.WellFormed ∧ ItemsWellFormed rest

def MembersWellFormed : List (String × Value) → Prop
  | [] => True
  | (_, value) :: rest => value.WellFormed ∧ MembersWellFormed rest

end

end Value

end Airlock
