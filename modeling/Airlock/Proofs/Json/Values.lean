import Airlock.Json.Value

/-!
# Members in order and doubles in a value

Members that come in increasing order of keys are put behind those before them. Other doubles in the
place of the doubles of a value leave its shape as it is.
-/

set_option autoImplicit false

namespace Airlock

/-! ## Members in order -/

namespace Members

theorem ordered_of_keys {members : Members} (keys : (members.map (·.1)).Pairwise (· < ·)) :
    Members.Ordered members :=
  List.pairwise_map.mp keys

theorem Ordered.of_same_keys {members others : Members} (ordered : Members.Ordered members)
    (same : others.map (·.1) = members.map (·.1)) : Members.Ordered others :=
  ordered_of_keys (same ▸ List.pairwise_map.mpr ordered)

private theorem insert_last {members : Members} {key : String} (value : Value)
    (below : ∀ member ∈ members, member.1 < key) :
    members.insert key value = members ++ [(key, value)] := by
  induction members with
  | nil => rfl
  | cons member members ih =>
    obtain ⟨k, v⟩ := member
    have less : k < key := below (k, v) List.mem_cons_self
    have notLess : ¬ key < k := String.lt_asymm less
    have different : key ≠ k := fun same => String.lt_irrefl k (same ▸ less)
    rw [insert, if_neg notLess, if_neg different,
      ih fun member inside => below member (List.mem_cons_of_mem _ inside)]
    rfl

theorem insert_ordered {before after : Members} {key : String} {value : Value}
    (ordered : Members.Ordered (before ++ (key, value) :: after)) :
    before.insert key value = before ++ [(key, value)] := by
  refine insert_last value ?_
  intro member inside
  exact (List.pairwise_append.mp ordered).2.2 member inside (key, value) List.mem_cons_self

private theorem foldl_insert_ordered (before members : Members)
    (ordered : Members.Ordered (before ++ members)) :
    members.foldl (fun held member => held.insert member.1 member.2) before =
      before ++ members := by
  induction members generalizing before with
  | nil => simp
  | cons member members ih =>
    have regroup : before ++ member :: members = (before ++ [member]) ++ members := by simp
    rw [List.foldl_cons, insert_ordered ordered, ih (before ++ [member]) (regroup ▸ ordered),
      regroup]

theorem ofList_ordered {members : Members} (ordered : Members.Ordered members) :
    ofList members = members :=
  foldl_insert_ordered [] members ordered

end Members

/-! ## Doubles in a value -/

namespace Value

mutual

def doubles : Value → List Double
  | .number (.double d) => [d]
  | .array items => doublesOfItems items
  | .object members => doublesOfMembers members
  | _ => []

def doublesOfItems : List Value → List Double
  | [] => []
  | item :: rest => item.doubles ++ doublesOfItems rest

def doublesOfMembers : List (String × Value) → List Double
  | [] => []
  | (_, value) :: rest => value.doubles ++ doublesOfMembers rest

end

mutual

/-- The value with every double replaced. -/
def mapDoubles (f : Double → Double) : Value → Value
  | .number (.double d) => .number (.double (f d))
  | .array items => .array (mapDoublesOfItems f items)
  | .object members => .object (mapDoublesOfMembers f members)
  | value => value

def mapDoublesOfItems (f : Double → Double) : List Value → List Value
  | [] => []
  | item :: rest => item.mapDoubles f :: mapDoublesOfItems f rest

def mapDoublesOfMembers (f : Double → Double) : List (String × Value) → List (String × Value)
  | [] => []
  | (key, value) :: rest => (key, value.mapDoubles f) :: mapDoublesOfMembers f rest

end

variable {f : Double → Double}

mutual

theorem mapDoubles_eq_self : ∀ {value : Value}, (∀ d ∈ value.doubles, f d = d) →
    value.mapDoubles f = value
  | .null, _ | .bool _, _ | .string _, _ | .number (.integer _), _ => by simp only [mapDoubles]
  | .number (.double d), fixed => by
    simp only [mapDoubles, fixed d List.mem_cons_self]
  | .array items, fixed => by
    simp only [mapDoubles, mapDoublesOfItems_eq_self fixed]
  | .object members, fixed => by
    simp only [mapDoubles, mapDoublesOfMembers_eq_self fixed]

private theorem mapDoublesOfItems_eq_self :
    ∀ {items : List Value}, (∀ d ∈ doublesOfItems items, f d = d) →
    mapDoublesOfItems f items = items
  | [], _ => rfl
  | item :: items, fixed => by
    simp only [doublesOfItems, List.mem_append, or_imp, forall_and] at fixed
    simp only [mapDoublesOfItems, mapDoubles_eq_self fixed.1, mapDoublesOfItems_eq_self fixed.2]

private theorem mapDoublesOfMembers_eq_self : ∀ {members : List (String × Value)},
    (∀ d ∈ doublesOfMembers members, f d = d) → mapDoublesOfMembers f members = members
  | [], _ => rfl
  | (key, value) :: members, fixed => by
    simp only [doublesOfMembers, List.mem_append, or_imp, forall_and] at fixed
    simp only [mapDoublesOfMembers, mapDoubles_eq_self fixed.1,
      mapDoublesOfMembers_eq_self fixed.2]

end

end Value

end Airlock
