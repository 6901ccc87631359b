import Mathlib.Data.List.Forall2
import Airlock.Json.Shape
import Airlock.Proofs.Json.Within

/-!
# Records in their two spellings

A record is spelled as an object that has a member for each of its fields, or as an array of just
its fields in their order. A record with no optional field is read from a value exactly if the value
is one of the two and every field is read from its part. What else an object holds does not matter;
an array that is too long is no record. Objects have each key once here, for otherwise a second
member of the name of a field could be at fault.
-/

set_option autoImplicit false

namespace Airlock

/-! ## Parts of a value -/

/-- The value has parts under names: it is an object with a member of each name, or an array of as
many items as there are names. -/
inductive Value.Holds (names : List String) : Value → List Value → Prop where
  | members {members : Members} {parts : List Value}
      (named : List.Forall₂ (fun name part => members.get? name = some part) names parts) :
      Holds names (.object members) parts
  | items {items : List Value} (all : items.length = names.length) :
      Holds names (.array items) items

/-- A value has at most one list of parts under names. -/
theorem Value.Holds.unique {names : List String} {value : Value} {parts others : List Value}
    (holds : value.Holds names parts) (also : value.Holds names others) : others = parts := by
  cases holds with
  | items => cases also with | items => rfl
  | members named =>
    cases also with
    | members namedAlso =>
      refine List.right_unique_forall₂' (fun name part other found foundAlso => ?_) namedAlso named
      exact Option.some.inj (found.symm.trans foundAlso)

private theorem Members.Ordered.get?_eq_some_iff {members : Members} (ordered : members.Ordered)
    {key : String} {value : Value} : members.get? key = some value ↔ (key, value) ∈ members := by
  refine ⟨mem_of_get?, fun inside => ?_⟩
  induction members with
  | nil => cases inside
  | cons head rest ih =>
    obtain ⟨least, restOrdered⟩ := List.pairwise_cons.mp ordered
    obtain rfl | behind := List.mem_cons.mp inside
    · exact if_pos rfl
    · have different : head.1 ≠ key := String.ne_of_lt (least (key, value) behind)
      exact (if_neg different).trans (ih restOrdered behind)

/-- The parts of a well-formed value are well-formed. -/
theorem Value.WellFormed.part {value part : Value} {names : List String} {parts : List Value}
    (wellFormed : value.WellFormed) (holds : value.Holds names parts) (inside : part ∈ parts) :
    part.WellFormed := by
  cases holds with
  | items => exact itemsWellFormed_iff.mp wellFormed part inside
  | members named =>
    obtain ⟨index, bound, rfl⟩ := List.mem_iff_getElem.mp inside
    have found := named.get (named.length_eq ▸ bound) bound
    exact membersWellFormed_iff.mp wellFormed.2 _ (Members.mem_of_get? found)

theorem Value.WellFormed.two {value part other : Value} {names : List String}
    (wellFormed : value.WellFormed) (holds : value.Holds names [part, other]) :
    part.WellFormed ∧ other.WellFormed :=
  ⟨wellFormed.part holds List.mem_cons_self,
    wellFormed.part holds (List.mem_cons_of_mem _ List.mem_cons_self)⟩

/-- The value is a natural number. -/
def Value.Counts (value : Value) (n : Nat) : Prop :=
  ∃ k : Integer, value = .number (.integer k) ∧ k.val = n

namespace Json

/-! ## Decoders -/

namespace Decoder

variable {value : Value}

theorem string_eq_ok_iff {s : String} : string value = .ok s ↔ value = .string s := by
  cases value <;> simp [string, unexpected]

/-- An integer without a sign is read as itself, for it is below 2^64. -/
theorem size_eq_ok_iff {n : UInt64} : size value = .ok n ↔ value.Counts n.toNat := by
  constructor
  · intro read
    unfold size at read
    split at read
    · rename_i k
      have inRange := k.inRange
      unfold Integer.toUInt64? at read
      split at read
      · rename_i held fits
        obtain ⟨natural, same⟩ := Option.ite_none_right_eq_some.mp fits
        cases same
        cases read
        have small : k.val.toNat < 2 ^ 64 := by omega
        refine ⟨k, rfl, ?_⟩
        rw [UInt64.toNat_ofNat_of_lt' small, Int.toNat_of_nonneg natural]
      · cases read
    · cases read
  · rintro ⟨k, rfl, same⟩
    have natural : k.toUInt64? = some n := by
      rw [Integer.toUInt64?, if_pos (by omega), same, Int.toNat_natCast, UInt64.ofNat_toNat]
    rw [size, natural]

theorem size_of_counts {n : Nat} (counts : value.Counts n) :
    ∃ held : UInt64, size value = .ok held ∧ held.toNat = n := by
  obtain ⟨k, rfl, same⟩ := counts
  have inRange := k.inRange
  have held : (UInt64.ofNat n).toNat = n := UInt64.toNat_ofNat_of_lt' (by omega : n < 2 ^ 64)
  exact ⟨UInt64.ofNat n, size_eq_ok_iff.mpr ⟨k, rfl, by rw [held, same]⟩, held⟩

theorem list_eq_ok_iff {α : Type} {decoder : Decoder α} {all : List α} :
    list decoder value = .ok all ↔ ∃ items, value = .array items ∧
      List.Forall₂ (fun item given => decoder item = .ok given) items all := by
  have read_items (items : List Value) : items.mapM decoder = .ok all ↔
      List.Forall₂ (fun item given => decoder item = .ok given) items all := by
    induction items generalizing all with
    | nil => cases all <;> simp [pure, Except.pure]
    | cons item items ih =>
      rw [List.mapM_cons]
      cases reads : decoder item with
      | error fault => cases all <;> simp [bind, Except.bind, reads]
      | ok given =>
        show (items.mapM decoder >>= _) = _ ↔ _
        cases all with
        | nil => cases items.mapM decoder <;> simp [bind, Except.bind, pure, Except.pure]
        | cons first others =>
          rw [List.forall₂_cons, ← ih, reads]
          cases items.mapM decoder <;> simp [bind, Except.bind, pure, Except.pure]
  cases value with
  | array items => simpa [list] using read_items items
  | null | bool _ | number _ | string _ | object _ => simp [list, unexpected]

end Decoder

/-! ## Checking a record -/

private theorem check_eq_ok_iff {α : Type} {read : Except ShapeError α} :
    read.map (fun _ => ()) = .ok () ↔ ∃ given, read = .ok given := by
  cases read with
  | ok given => exact iff_of_true rfl ⟨given, rfl⟩
  | error fault => exact iff_of_false nofun nofun

namespace Fields

private theorem checkMembers_of_get? {fields : List Field} {members rest : Members}
    (ordered : members.Ordered) (within : rest ⊆ members)
    (pass : ∀ field ∈ fields, ∀ part ∈ members.get? field.name, field.check part = .ok ()) :
    checkMembers fields rest = .ok () := by
  induction rest with
  | nil => rfl
  | cons member rest ih =>
    obtain ⟨key, part⟩ := member
    obtain ⟨here, behind⟩ := List.cons_subset.mp within
    rw [checkMembers]
    split
    · rename_i field found
      obtain rfl : field.name = key := by simpa using List.find?_some found
      rw [pass field (List.mem_of_find?_eq_some found) part (ordered.get?_eq_some_iff.mpr here)]
      exact ih behind
    · exact ih behind

/-- Items pass for fields that all have to be there if each of them passes for its own. -/
theorem checkItems_eq_ok_iff {expected : String} {length index : Nat} {fields : List Field}
    {items : List Value} (strict : ∀ field ∈ fields, field.optional = false) :
    checkItems expected length index fields items = .ok () ↔
      List.Forall₂ (fun field item => field.check item = .ok ()) fields items := by
  induction fields generalizing index items with
  | nil => cases items <;> simp [checkItems]
  | cons field fields ih =>
    obtain ⟨first, others⟩ := List.forall_mem_cons.mp strict
    cases items with
    | nil => simp [checkItems, first]
    | cons item items =>
      rw [checkItems, List.forall₂_cons, ← @ih (index + 1) items others]
      cases field.check item <;> simp

/-! ## Reading a record -/

variable {α β γ : Type} {name key other : String} {decoder : Decoder α} {further : Decoder β}
  {combine : α → β → γ} {value : Value}

private theorem required_eq_ok_iff {held : String → Option Value} {given : α} :
    (required key decoder).build held = .ok given ↔
      ∃ part, held key = some part ∧ decoder part = .ok given := by
  unfold required
  dsimp only
  cases held key <;> simp

private theorem both_eq_ok_iff {first : Fields α} {second : Fields β} {held : String → Option Value}
    {given : γ} : (both first second combine).build held = .ok given ↔
      ∃ a b, first.build held = .ok a ∧ second.build held = .ok b ∧ combine a b = given := by
  show (first.build held >>= _) = _ ↔ _
  cases first.build held with
  | error fault => simp [bind, Except.bind]
  | ok a =>
    show (second.build held >>= _) = _ ↔ _
    cases second.build held <;> simp [bind, Except.bind, pure, Except.pure]

private theorem read_object_iff {record : Fields α} {members : Members} {given : α} :
    record.read name (.object members) = .ok given ↔
      checkMembers record.fields members = .ok () ∧ record.build members.get? = .ok given := by
  show (checkMembers _ _ >>= _) = _ ↔ _
  cases checkMembers record.fields members <;> simp [bind, Except.bind]

private theorem read_array_iff {record : Fields α} {items : List Value} {given : α}
    (strict : ∀ field ∈ record.fields, field.optional = false) :
    record.read name (.array items) = .ok given ↔
      List.Forall₂ (fun field item => field.check item = .ok ()) record.fields items ∧
        record.build (fun key => ((record.fields.map (·.name)).zip items).lookup key) =
          .ok given := by
  have checked : checkItems (expectedElements name record.fields.length) items.length 0
      record.fields items = .ok () ↔ _ := checkItems_eq_ok_iff strict
  rw [← checked]
  show (checkItems _ _ _ _ _ >>= _) = _ ↔ _
  cases checkItems _ items.length 0 record.fields items <;> simp [bind, Except.bind]

/-- A record of one field is read exactly if the value has the one part and the field is read from
it. -/
theorem read_one_iff (wellFormed : value.WellFormed) {given : α} :
    (required key decoder).read name value = .ok given ↔
      ∃ part, value.Holds [key] [part] ∧ decoder part = .ok given := by
  have strict : ∀ field ∈ (required key decoder).fields, field.optional = false := by
    simp [required]
  constructor
  · intro read
    cases value with
    | object members =>
      obtain ⟨part, found, reads⟩ := required_eq_ok_iff.mp (read_object_iff.mp read).2
      exact ⟨part, .members (.cons found .nil), reads⟩
    | array items =>
      obtain ⟨checked, built⟩ := (read_array_iff strict).mp read
      obtain ⟨part, found, reads⟩ := required_eq_ok_iff.mp built
      obtain _ | ⟨_, ⟨⟩⟩ := checked
      rw [required, List.map_cons, List.zip_cons_cons, List.lookup_cons, beq_self_eq_true] at found
      cases found
      exact ⟨part, .items rfl, reads⟩
    | null | bool _ | number _ | string _ => cases read
  · rintro ⟨part, holds, reads⟩
    have checks : (decoder part).map (fun _ => ()) = .ok () := check_eq_ok_iff.mpr ⟨given, reads⟩
    cases holds with
    | members named =>
      obtain _ | ⟨found, -⟩ := named
      refine read_object_iff.mpr ⟨checkMembers_of_get? wellFormed.1 (List.Subset.refl _) ?_,
        required_eq_ok_iff.mpr ⟨part, found, reads⟩⟩
      simpa [required, found] using checks
    | items =>
      refine (read_array_iff strict).mpr ⟨.cons checks .nil, ?_⟩
      exact required_eq_ok_iff.mpr ⟨part, by simp [required], reads⟩

/-- A record of two fields is read exactly if the value has the two parts and each field is read
from its own. -/
theorem read_two_iff (wellFormed : value.WellFormed) (different : key ≠ other) {given : γ} :
    (both (required key decoder) (required other further) combine).read name value = .ok given ↔
      ∃ first second a b, value.Holds [key, other] [first, second] ∧ decoder first = .ok a ∧
        further second = .ok b ∧ combine a b = given := by
  have strict : ∀ field ∈ (both (required key decoder) (required other further) combine).fields,
      field.optional = false := by
    simp [both, required]
  have apart : (other == key) = false := beq_false_of_ne different.symm
  constructor
  · intro read
    cases value with
    | object members =>
      obtain ⟨a, b, one, two, combined⟩ := both_eq_ok_iff.mp (read_object_iff.mp read).2
      obtain ⟨first, foundFirst, readsFirst⟩ := required_eq_ok_iff.mp one
      obtain ⟨second, foundSecond, readsSecond⟩ := required_eq_ok_iff.mp two
      exact ⟨first, second, a, b, .members (.cons foundFirst (.cons foundSecond .nil)), readsFirst,
        readsSecond, combined⟩
    | array items =>
      obtain ⟨checked, built⟩ := (read_array_iff strict).mp read
      obtain ⟨a, b, one, two, combined⟩ := both_eq_ok_iff.mp built
      obtain ⟨first, foundFirst, readsFirst⟩ := required_eq_ok_iff.mp one
      obtain ⟨second, foundSecond, readsSecond⟩ := required_eq_ok_iff.mp two
      obtain _ | ⟨_, _ | ⟨_, ⟨⟩⟩⟩ := checked
      simp only [both, required, List.cons_append, List.nil_append, List.map_cons, List.map_nil,
        List.zip_cons_cons, List.lookup_cons, beq_self_eq_true, apart] at foundFirst foundSecond
      cases foundFirst
      cases foundSecond
      exact ⟨first, second, a, b, .items rfl, readsFirst, readsSecond, combined⟩
    | null | bool _ | number _ | string _ => cases read
  · rintro ⟨first, second, a, b, holds, readsFirst, readsSecond, combined⟩
    have checksFirst : (decoder first).map (fun _ => ()) = .ok () :=
      check_eq_ok_iff.mpr ⟨a, readsFirst⟩
    have checksSecond : (further second).map (fun _ => ()) = .ok () :=
      check_eq_ok_iff.mpr ⟨b, readsSecond⟩
    cases holds with
    | members named =>
      obtain _ | ⟨foundFirst, _ | ⟨foundSecond, -⟩⟩ := named
      refine read_object_iff.mpr ⟨checkMembers_of_get? wellFormed.1 (List.Subset.refl _) ?_,
        both_eq_ok_iff.mpr ⟨a, b, required_eq_ok_iff.mpr ⟨first, foundFirst, readsFirst⟩,
          required_eq_ok_iff.mpr ⟨second, foundSecond, readsSecond⟩, combined⟩⟩
      simpa [both, required, foundFirst, foundSecond] using ⟨checksFirst, checksSecond⟩
    | items =>
      refine (read_array_iff strict).mpr ⟨.cons checksFirst (.cons checksSecond .nil), ?_⟩
      refine both_eq_ok_iff.mpr ⟨a, b, required_eq_ok_iff.mpr ⟨first, ?_, readsFirst⟩,
        required_eq_ok_iff.mpr ⟨second, ?_, readsSecond⟩, combined⟩
      · simp [both, required]
      · simp [both, required, List.lookup_cons, apart]

end Fields

end Json

end Airlock
