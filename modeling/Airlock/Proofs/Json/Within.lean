import Airlock.Json.Reader
import Airlock.Proofs.Json.Values

/-!
# What the reader of JSON can come to

A value that was read has the members of all its objects in order and nests no deeper than the room
it was read in. The machine keeps this of everything it holds: what an open container has gathered
fits into the room that is left inside it.
-/

set_option autoImplicit false

namespace Airlock

/-- Of two computations in a row that succeed the first one does, and the second one with what the
first comes to. -/
theorem ok_of_bind {ε α β : Type} {first : Except ε α} {next : α → Except ε β} {result : β}
    (succeeds : first >>= next = .ok result) :
    ∃ middle, first = .ok middle ∧ next middle = .ok result := by
  cases first with
  | error fault => cases succeeds
  | ok middle => exact ⟨middle, rfl, succeeds⟩

/-! ## Values within a room -/

/-- The value is well-formed, and its containers can all be opened in the room. -/
structure Value.Within (room : Nat) (value : Value) : Prop where
  wellFormed : value.WellFormed
  shallow : value.nesting ≤ room

/-- The members are in order, and the value of each is within the room. -/
structure Members.Within (room : Nat) (members : Members) : Prop where
  ordered : members.Ordered
  values : ∀ member ∈ members, member.2.Within room

namespace Value

variable {room : Nat}

theorem itemsWellFormed_iff {items : List Value} :
    ItemsWellFormed items ↔ ∀ item ∈ items, item.WellFormed := by
  induction items with
  | nil => simp [ItemsWellFormed]
  | cons item items ih => simp [ItemsWellFormed, ih]

private theorem nestingOfItems_le_iff {items : List Value} :
    nestingOfItems items ≤ room ↔ ∀ item ∈ items, item.nesting ≤ room := by
  induction items with
  | nil => simp [nestingOfItems]
  | cons item items ih => rw [nestingOfItems, Nat.max_le, ih, List.forall_mem_cons]

theorem membersWellFormed_iff {members : Members} :
    MembersWellFormed members ↔ ∀ member ∈ members, member.2.WellFormed := by
  induction members with
  | nil => simp [MembersWellFormed]
  | cons member members ih =>
    obtain ⟨key, value⟩ := member
    simp only [MembersWellFormed, List.forall_mem_cons, ih]

private theorem nestingOfMembers_le_iff {members : Members} :
    nestingOfMembers members ≤ room ↔ ∀ member ∈ members, member.2.nesting ≤ room := by
  induction members with
  | nil => simp [nestingOfMembers]
  | cons member members ih =>
    obtain ⟨key, value⟩ := member
    simp only [nestingOfMembers, Nat.max_le, List.forall_mem_cons, ih]

theorem Within.mono {value : Value} {wider : Nat} (within : value.Within room)
    (wide : room ≤ wider) : value.Within wider :=
  ⟨within.wellFormed, Nat.le_trans within.shallow wide⟩

theorem within_array {items : List Value} :
    (array items).Within (room + 1) ↔ ∀ item ∈ items, item.Within room := by
  constructor
  · intro within item inside
    have shallow : nestingOfItems items ≤ room := Nat.le_of_succ_le_succ within.shallow
    exact ⟨itemsWellFormed_iff.mp within.wellFormed item inside,
      nestingOfItems_le_iff.mp shallow item inside⟩
  · intro within
    refine ⟨itemsWellFormed_iff.mpr ?_, Nat.succ_le_succ (nestingOfItems_le_iff.mpr ?_)⟩
    · exact fun item inside => (within item inside).wellFormed
    · exact fun item inside => (within item inside).shallow

theorem within_object {members : Members} :
    (object members).Within (room + 1) ↔ members.Within room := by
  constructor
  · intro within
    have shallow : nestingOfMembers members ≤ room := Nat.le_of_succ_le_succ within.shallow
    refine ⟨within.wellFormed.1, fun member inside => ⟨?_, ?_⟩⟩
    · exact membersWellFormed_iff.mp within.wellFormed.2 member inside
    · exact nestingOfMembers_le_iff.mp shallow member inside
  · intro within
    refine ⟨⟨within.ordered, membersWellFormed_iff.mpr ?_⟩, Nat.succ_le_succ ?_⟩
    · exact fun member inside => (within.values member inside).wellFormed
    · exact nestingOfMembers_le_iff.mpr fun member inside => (within.values member inside).shallow

theorem within_null : null.Within room := ⟨trivial, Nat.zero_le _⟩

theorem within_bool (b : Bool) : (bool b).Within room := ⟨trivial, Nat.zero_le _⟩

theorem within_number (n : Number) : (number n).Within room := ⟨trivial, Nat.zero_le _⟩

theorem within_string (s : String) : (string s).Within room := ⟨trivial, Nat.zero_le _⟩

end Value

namespace Members

theorem mem_insert {members : Members} {key : String} {value : Value} {member : String × Value}
    (inside : member ∈ members.insert key value) : member = (key, value) ∨ member ∈ members := by
  induction members with
  | nil => exact .inl (List.mem_singleton.mp inside)
  | cons head rest ih =>
    obtain ⟨k, v⟩ := head
    simp only [insert] at inside
    split at inside
    · simpa using inside
    split at inside
    · cases List.mem_cons.mp inside with
      | inl same => exact .inl same
      | inr behind => exact .inr (List.mem_cons_of_mem _ behind)
    · cases List.mem_cons.mp inside with
      | inl same => exact .inr (same ▸ List.mem_cons_self)
      | inr behind => exact (ih behind).imp_right (List.mem_cons_of_mem _)

private theorem Ordered.insert {members : Members} (ordered : members.Ordered) (key : String)
    (value : Value) : (members.insert key value).Ordered := by
  induction members with
  | nil => exact List.pairwise_singleton _ _
  | cons head rest ih =>
    obtain ⟨k, v⟩ := head
    obtain ⟨least, restOrdered⟩ := List.pairwise_cons.mp ordered
    simp only [Members.insert]
    split
    next less =>
      refine List.pairwise_cons.mpr ⟨fun member inside => ?_, ordered⟩
      obtain rfl | behind := List.mem_cons.mp inside
      · exact less
      · exact String.lt_trans less (least member behind)
    next notLess =>
      split
      next same => exact List.pairwise_cons.mpr ⟨same ▸ least, restOrdered⟩
      next different =>
        refine List.pairwise_cons.mpr ⟨fun member inside => ?_, ih restOrdered⟩
        obtain rfl | behind := mem_insert inside
        · refine Decidable.byContradiction fun notMore => different ?_
          exact String.le_antisymm (String.not_lt.mp notMore) (String.not_lt.mp notLess)
        · exact least member behind

theorem mem_of_get? {members : Members} {key : String} {value : Value}
    (found : members.get? key = some value) : (key, value) ∈ members := by
  induction members with
  | nil => cases found
  | cons head rest ih =>
    obtain ⟨k, v⟩ := head
    simp only [get?] at found
    split at found
    next same =>
      cases found
      exact same ▸ List.mem_cons_self
    next => exact List.mem_cons_of_mem _ (ih found)

variable {room : Nat} {members : Members}

theorem within_nil : Members.Within room [] := ⟨.nil, nofun⟩

theorem Within.insert (within : members.Within room) (key : String) {value : Value}
    (fits : value.Within room) : (members.insert key value).Within room := by
  refine ⟨within.ordered.insert key value, fun member inside => ?_⟩
  obtain rfl | held := mem_insert inside
  · exact fits
  · exact within.values member held

theorem Within.get? (within : members.Within room) {key : String} {value : Value}
    (found : Members.get? members key = some value) : value.Within room :=
  within.values (key, value) (mem_of_get? found)

end Members

namespace Json

/-! ## What the machine holds -/

/-- Of the room, the open containers leave so much inside the innermost one, and what each of them
has gathered is within what is left inside it. -/
inductive Leaves (room : Nat) : List Frame → Nat → Prop where
  | none : Leaves room [] room
  | items {stack : List Frame} {left : Nat} {before : List Value}
      (outer : Leaves room stack (left + 1)) (within : ∀ item ∈ before, item.Within left) :
      Leaves room (.items before :: stack) left
  | members {stack : List Frame} {left : Nat} {before : Members} {key : String}
      (outer : Leaves room stack (left + 1)) (within : before.Within left) :
      Leaves room (.members before key :: stack) left

private theorem Leaves.length {room left : Nat} {stack : List Frame}
    (leaves : Leaves room stack left) :
    stack.length + left = room := by
  induction leaves with
  | none => simp
  | items _ _ ih | members _ _ ih =>
    rw [List.length_cons]
    omega

/-- Another container can be opened, so there is room inside the innermost one. -/
theorem Leaves.opening {room left : Nat} {stack : List Frame} (leaves : Leaves room stack left)
    (vacant : stack.length < room) : ∃ inner, left = inner + 1 := by
  have all := leaves.length
  exact Nat.exists_eq_add_one.mpr (by omega)

/-- Everything that the machine has gathered fits where it stands. -/
inductive Machine.Fits (room : Nat) : Machine → Prop where
  | value {stack : List Frame} {left : Nat} (leaves : Leaves room stack left) :
      Fits room ⟨.value, stack⟩
  | firstItem {stack : List Frame} {left : Nat} (leaves : Leaves room stack (left + 1)) :
      Fits room ⟨.firstItem, .items [] :: stack⟩
  | nextItem {stack : List Frame} {left : Nat} (leaves : Leaves room stack left) :
      Fits room ⟨.nextItem, stack⟩
  | firstKey {stack : List Frame} {left : Nat} (leaves : Leaves room stack (left + 1)) :
      Fits room ⟨.firstKey, stack⟩
  | nextKey {stack : List Frame} {left : Nat} {before : Members}
      (leaves : Leaves room stack (left + 1)) (within : before.Within left) :
      Fits room ⟨.nextKey before, stack⟩
  | key {stack : List Frame} {left : Nat} {before : Members} {scan : TextScan}
      (leaves : Leaves room stack (left + 1)) (within : before.Within left) :
      Fits room ⟨.key before scan, stack⟩
  | colon {stack : List Frame} {left : Nat} {before : Members} {key : String}
      (leaves : Leaves room stack (left + 1)) (within : before.Within left) :
      Fits room ⟨.colon before key, stack⟩
  | text {stack : List Frame} {left : Nat} {scan : TextScan} (leaves : Leaves room stack left) :
      Fits room ⟨.text scan, stack⟩
  | number {stack : List Frame} {left : Nat} {scan : NumberScan} (leaves : Leaves room stack left) :
      Fits room ⟨.number scan, stack⟩
  | word {stack : List Frame} {left : Nat} {due : Bytes} {meant : Value}
      (leaves : Leaves room stack left) (within : meant.Within left) :
      Fits room ⟨.word due meant, stack⟩
  | behind {stack : List Frame} {left : Nat} {value : Value} (leaves : Leaves room stack left)
      (within : value.Within left) : Fits room ⟨.behind value, stack⟩

inductive Step.Fits (room : Nat) : Step → Prop where
  | more {machine : Machine} (fits : machine.Fits room) : Fits room (.more machine)
  | complete {value : Value} (within : value.Within room) : Fits room (.complete value)

/-- A step that is taken leads to what fits. -/
def Leads (room : Nat) (outcome : Except Fault Step) : Prop :=
  ∀ next, outcome = .ok next → next.Fits room

namespace Leads

variable {room : Nat}

private theorem more {machine : Machine} (fits : machine.Fits room) :
    Leads room (.ok (.more machine)) := by
  rintro _ ⟨⟩
  exact .more fits

private theorem complete {value : Value} (within : value.Within room) :
    Leads room (.ok (.complete value)) := by
  rintro _ ⟨⟩
  exact .complete within

private theorem error {fault : Fault} : Leads room (.error fault) :=
  nofun

private theorem ite {condition : Prop} [Decidable condition] {first second : Except Fault Step}
    (holds : condition → Leads room first) (fails : ¬ condition → Leads room second) :
    Leads room (if condition then first else second) := by
  by_cases decided : condition
  · simpa only [decided, if_true] using holds decided
  · simpa only [decided, if_false] using fails decided

end Leads

/-! ## Single bytes -/

namespace Machine

variable {room left : Nat} {stack : List Frame} (b : UInt8) (rest : Bytes)

private theorem openContainer_leads (leaves : Leaves room stack left) {opened : Machine}
    (fits : ∀ inner, Leaves room stack (inner + 1) → opened.Fits room) :
    Leads room (openContainer room stack opened rest) := by
  refine .ite (fun vacant => ?_) fun _ => .error
  obtain ⟨inner, rfl⟩ := leaves.opening vacant
  exact .more (fits inner leaves)

private theorem beginValue_leads (leaves : Leaves room stack left) :
    Leads room (beginValue room stack b rest) :=
  .ite (fun _ => .more (.text leaves)) fun _ =>
    .ite (fun _ => .more (.number leaves)) fun _ =>
    .ite (fun _ => .more (.number leaves)) fun _ =>
    .ite (fun _ => openContainer_leads rest leaves fun _ vacant => .firstItem vacant) fun _ =>
    .ite (fun _ => openContainer_leads rest leaves fun _ vacant => .firstKey vacant) fun _ =>
    .ite (fun _ => .more (.word leaves Value.within_null)) fun _ =>
    .ite (fun _ => .more (.word leaves (Value.within_bool true))) fun _ =>
    .ite (fun _ => .more (.word leaves (Value.within_bool false))) fun _ => .error

/-- Behind a value the innermost container takes it in, and is closed or goes on. -/
theorem behindValue_leads (leaves : Leaves room stack left) {value : Value}
    (within : value.Within left) : Leads room (behindValue value stack b rest) := by
  cases leaves with
  | none => exact .complete within
  | @items outer _ before leavesOuter gathered =>
    have taken : ∀ item ∈ value :: before, item.Within left :=
      List.forall_mem_cons.mpr ⟨within, gathered⟩
    refine .ite (fun _ => .more (.behind (.items leavesOuter gathered) within)) fun _ =>
      .ite (fun _ => .more (.nextItem (.items leavesOuter taken))) fun _ =>
      .ite (fun _ => .more (.behind leavesOuter ?_)) fun _ => .error
    exact Value.within_array.mpr fun item inside => taken item (List.mem_reverse.mp inside)
  | @members outer _ before key leavesOuter gathered =>
    have taken := gathered.insert key within
    exact .ite (fun _ => .more (.behind (.members leavesOuter gathered) within)) fun _ =>
      .ite (fun _ => .more (.nextKey leavesOuter taken)) fun _ =>
      .ite (fun _ => .more (.behind leavesOuter (Value.within_object.mpr taken))) fun _ => .error

private theorem step_leads {machine : Machine} (fits : machine.Fits room) :
    Leads room (machine.step room b rest) := by
  cases fits with
  | value leaves =>
    exact .ite (fun _ => .more (.value leaves)) fun _ => beginValue_leads b rest leaves
  | @firstItem stack left leaves =>
    have empty : Leaves room (.items [] :: stack) left := .items leaves nofun
    exact .ite (fun _ => .more (.firstItem leaves)) fun _ =>
      .ite (fun _ => .more (.behind leaves (Value.within_array.mpr nofun))) fun _ =>
      beginValue_leads b rest empty
  | nextItem leaves =>
    exact .ite (fun _ => .more (.nextItem leaves)) fun _ => .ite (fun _ => .error) fun _ =>
      beginValue_leads b rest leaves
  | @firstKey _ left leaves =>
    have empty : (Value.object []).Within (left + 1) := Value.within_object.mpr Members.within_nil
    exact .ite (fun _ => .more (.firstKey leaves)) fun _ =>
      .ite (fun _ => .more (.behind leaves empty)) fun _ =>
      .ite (fun _ => .more (.key leaves Members.within_nil)) fun _ => .error
  | nextKey leaves within =>
    exact .ite (fun _ => .more (.nextKey leaves within)) fun _ =>
      .ite (fun _ => .more (.key leaves within)) fun _ => .ite (fun _ => .error) fun _ => .error
  | @key stack _ before scan leaves within =>
    simp only [step]
    cases scan.step b rest with
    | error fault => exact .error
    | ok taken =>
      cases taken with
      | more next => exact .more (.key leaves within)
      | done key => exact .more (.colon leaves within)
  | colon leaves within =>
    exact .ite (fun _ => .more (.colon leaves within)) fun _ =>
      .ite (fun _ => .more (.value (.members leaves within))) fun _ => .error
  | @text stack _ scan leaves =>
    simp only [step]
    cases scan.step b rest with
    | error fault => exact .error
    | ok taken =>
      cases taken with
      | more next => exact .more (.text leaves)
      | done text => exact .more (.behind leaves (Value.within_string text))
  | @number stack _ scan leaves =>
    simp only [step]
    cases scan.step b with
    | more next => exact .more (.number leaves)
    | fails cause => exact .error
    | ends =>
      dsimp only
      cases scan.finish with
      | ok number => exact behindValue_leads b rest leaves (Value.within_number number)
      | error cause => exact .error
  | @word stack _ due meant leaves within =>
    match due with
    | [] => exact behindValue_leads b rest leaves within
    | [last] => exact .ite (fun _ => .more (.behind leaves within)) fun _ => .error
    | next :: other :: others => exact .ite (fun _ => .more (.word leaves within)) fun _ => .error
  | behind leaves within => exact behindValue_leads b rest leaves within

/-! ## Whole texts -/

private theorem endBehindValue_within (leaves : Leaves room stack left) {value result : Value}
    (within : value.Within left) (ended : endBehindValue value stack = .ok result) :
    result.Within room := by
  cases leaves with
  | none =>
    cases ended
    exact within
  | items | members => cases ended

private theorem finish_within {machine : Machine} (fits : machine.Fits room) {value : Value}
    (finished : machine.finish = .ok value) : value.Within room := by
  cases fits with
  | behind leaves within => exact endBehindValue_within leaves within finished
  | @number stack _ scan leaves =>
    simp only [finish] at finished
    cases read : scan.finish with
    | ok number =>
      rw [read] at finished
      exact endBehindValue_within leaves (Value.within_number number) finished
    | error cause =>
      rw [read] at finished
      cases finished
  | value | firstItem | nextItem | firstKey | nextKey | key | colon | text | word => cases finished

private theorem run_within {machine : Machine} (fits : machine.Fits room) {bytes behind : Bytes}
    {value : Value} (read : machine.run room bytes = .ok (value, behind)) : value.Within room := by
  induction bytes generalizing machine with
  | nil =>
    simp only [run] at read
    cases finished : machine.finish with
    | ok result =>
      rw [finished] at read
      cases read
      exact finish_within fits finished
    | error cause =>
      rw [finished] at read
      cases read
  | cons b rest ih =>
    simp only [run] at read
    have leads := step_leads b rest fits
    cases stepped : machine.step room b rest with
    | error fault =>
      rw [stepped] at read
      cases read
    | ok next =>
      rw [stepped] at read
      cases leads next stepped with
      | more nextFits => exact ih nextFits read
      | complete within =>
        cases read
        exact within

end Machine

theorem readValue_within {outer : Nat} {bytes behind : Bytes} {value : Value}
    (read : readValue outer bytes = .ok (value, behind)) : value.Within (maxOpen - outer) :=
  Machine.run_within (.value .none) read

theorem decode_within {bytes : Bytes} {value : Value} (read : decode bytes = .ok value) :
    value.Within maxOpen := by
  obtain ⟨⟨result, behind⟩, began, ended⟩ := ok_of_bind read
  obtain ⟨_, _, same⟩ := ok_of_bind ended
  cases same
  exact readValue_within began

end Json

end Airlock
