import Airlock.Proofs.MessagePack.RoundTrip
import Airlock.Proofs.MessagePack.Surplus

/-!
# MessagePack cut short

A length field holds 32 bits. A value whose texts and containers are all short enough for that is
refused or read exactly up to its end, whatever the order of its members and its nesting; and what
is read does not change with more bytes behind it. So no such value is read from a part of its bytes.
-/

set_option autoImplicit false

namespace Airlock

/-! ## Values whose lengths fit their fields -/

namespace Value

mutual

/-- Every text has fewer than 2^32 bytes, and every array and object fewer than 2^32 parts. -/
def Counted : Value → Prop
  | .string s => (Text.Utf8.ofString s).length < 0x100000000
  | .array items => items.length < 0x100000000 ∧ ItemsCounted items
  | .object members => members.length < 0x100000000 ∧ MembersCounted members
  | _ => True

def ItemsCounted : List Value → Prop
  | [] => True
  | item :: rest => item.Counted ∧ ItemsCounted rest

def MembersCounted : List (String × Value) → Prop
  | [] => True
  | (key, value) :: rest =>
    (Text.Utf8.ofString key).length < 0x100000000 ∧ value.Counted ∧ MembersCounted rest

end

mutual

def decideCounted : ∀ value : Value, Decidable value.Counted
  | .null | .bool _ | .number _ => inferInstanceAs (Decidable True)
  | .string s => inferInstanceAs (Decidable ((Text.Utf8.ofString s).length < 0x100000000))
  | .array items =>
    @instDecidableAnd _ _ (inferInstanceAs (Decidable (items.length < 0x100000000)))
      (decideItemsCounted items)
  | .object members =>
    @instDecidableAnd _ _ (inferInstanceAs (Decidable (members.length < 0x100000000)))
      (decideMembersCounted members)

def decideItemsCounted : ∀ items : List Value, Decidable (ItemsCounted items)
  | [] => inferInstanceAs (Decidable True)
  | item :: rest => @instDecidableAnd _ _ (decideCounted item) (decideItemsCounted rest)

def decideMembersCounted : ∀ members : List (String × Value), Decidable (MembersCounted members)
  | [] => inferInstanceAs (Decidable True)
  | (key, value) :: rest =>
    @instDecidableAnd _ _
      (inferInstanceAs (Decidable ((Text.Utf8.ofString key).length < 0x100000000)))
      (@instDecidableAnd _ _ (decideCounted value) (decideMembersCounted rest))

end

instance : DecidablePred Counted :=
  decideCounted

end Value

namespace MessagePack

/-! ## Written values up to their end -/

/-- The reading fails, or it leaves `rest`. -/
def FailsOrLeaves {α : Type} (rest : Bytes) (read : Option (α × Bytes)) : Prop :=
  ∀ result left, read = some (result, left) → left = rest

namespace FailsOrLeaves

variable {α : Type} {rest : Bytes}

private theorem none : FailsOrLeaves rest (none : Option (α × Bytes)) :=
  nofun

private theorem some {result : α} : FailsOrLeaves rest (some (result, rest)) := by
  rintro _ _ ⟨⟩
  rfl

private theorem map {β : Type} {read : Option (α × Bytes)} (leaves : FailsOrLeaves rest read)
    (change : α → β) :
    FailsOrLeaves rest (read.map fun (result, rest) => (change result, rest)) := by
  intro result left mapped
  obtain ⟨⟨before, behind⟩, found, same⟩ := Option.map_eq_some_iff.mp mapped
  cases same
  exact leaves before left found

end FailsOrLeaves

mutual

private theorem readValue_encode_leaves :
    ∀ (value : Value), value.Counted → ∀ (room : Nat) (rest : Bytes),
    FailsOrLeaves rest (readValue room (encode value ++ rest))
  | .null, _, room, rest => by
    rw [@readValue_of_head _ rest (.scalar .null) rfl room]
    exact .some
  | .bool b, _, room, rest => by
    rw [@readValue_of_head _ rest (.scalar (.bool b)) (by cases b <;> rfl) room]
    exact .some
  | .number n, _, room, rest => by
    rw [encode, readValue_of_head (head?_number n rest)]
    exact .some
  | .string s, counted, room, rest => by
    rw [encode, readValue_of_head (head?_text counted rest), readBehind, readString_ofString]
    exact .some
  | .array items, counted, 0, rest => by
    rw [readValue_of_head (head?_array counted.1 rest), readBehind]
    exact .none
  | .array items, counted, room + 1, rest => by
    rw [readValue_of_head (head?_array counted.1 rest), readBehind]
    exact (readItems_encodeItems_leaves items counted.2 room [] rest).map Value.array
  | .object members, counted, 0, rest => by
    rw [readValue_of_head (head?_object counted.1 rest), readBehind]
    exact .none
  | .object members, counted, room + 1, rest => by
    rw [readValue_of_head (head?_object counted.1 rest), readBehind]
    exact (readMembers_encodeMembers_leaves members counted.2 room [] rest).map Value.object

private theorem readItems_encodeItems_leaves : ∀ (items : List Value), Value.ItemsCounted items →
    ∀ (room : Nat) (before : List Value) (rest : Bytes),
    FailsOrLeaves rest (readItems (readValue room) before items.length (encodeItems items ++ rest))
  | [], _, _, _, _ => .some
  | item :: items, counted, room, before, rest => by
    have first := readValue_encode_leaves item counted.1 room (encodeItems items ++ rest)
    rw [encodeItems, List.append_assoc, List.length_cons, readItems]
    cases read : readValue room (encode item ++ (encodeItems items ++ rest)) with
    | none => exact .none
    | some result =>
      obtain ⟨taken, left⟩ := result
      obtain rfl := first taken left read
      exact readItems_encodeItems_leaves items counted.2 room (taken :: before) rest

private theorem readMembers_encodeMembers_leaves : ∀ (members : List (String × Value)),
    Value.MembersCounted members → ∀ (room : Nat) (before : Members) (rest : Bytes),
    FailsOrLeaves rest
      (readMembers (readValue room) before members.length (encodeMembers members ++ rest))
  | [], _, _, _, _ => .some
  | (key, value) :: members, counted, room, before, rest => by
    have first := readValue_encode_leaves value counted.2.1 room (encodeMembers members ++ rest)
    rw [encodeMembers, List.append_assoc, List.append_assoc, List.length_cons, readMembers,
      readKey_text counted.1]
    simp only []
    cases read : readValue room (encode value ++ (encodeMembers members ++ rest)) with
    | none => exact .none
    | some result =>
      obtain ⟨taken, left⟩ := result
      obtain rfl := first taken left read
      exact readMembers_encodeMembers_leaves members counted.2.2 room (before.insert key taken) rest

end

/-! ## Whole payloads -/

/-- No value is read from a part of its bytes. -/
theorem decode?_truncated {value : Value} (counted : value.Counted) {part missing : Bytes}
    (cut : missing ≠ []) (whole : part ++ missing = encode value) : decode? part = none := by
  cases read : readValue maxOpen part with
  | none => rw [decode?, read, Option.map_none]
  | some result =>
    obtain ⟨found, rest⟩ := result
    have longer : readValue maxOpen (part ++ missing) = some (found, rest ++ missing) :=
      readValue_surplus maxOpen part found rest read
    have leaves := readValue_encode_leaves value counted maxOpen []
    rw [List.append_nil, ← whole] at leaves
    exact absurd (List.append_eq_nil_iff.mp (leaves found _ longer)).2 cut

end MessagePack

end Airlock
