import Airlock.Proofs.Json.Within
import Airlock.Script.Basic

/-!
# Entries that can be sent

The params of an entry were read inside the entry, so the message that they are sent in nests no
deeper than JSON can. The fields come in any order and one at a time; whatever was gathered of them
so far is within the room that is left inside an entry.
-/

set_option autoImplicit false

namespace Airlock

private theorem ok_of_map {ε α β : Type} {first : Except ε α} {f : α → β} {result : β}
    (succeeds : first.map f = .ok result) : ∃ middle, first = .ok middle ∧ f middle = result := by
  cases first with
  | error fault => cases succeeds
  | ok middle =>
    cases succeeds
    exact ⟨middle, rfl, rfl⟩

namespace Script

/-- The room that is left inside the object or the array that an entry is. -/
def entryRoom : Nat := Json.maxOpen - 1

def Draft.Within (draft : Draft) : Prop :=
  ∀ params ∈ draft.params?, params.Within entryRoom

def Entry.Within (entry : Entry) : Prop :=
  entry.params.Within entryRoom

private theorem ofReader_ok {α : Type} {result : Except Json.Fault α} {value : α}
    (read : ofReader result = .ok value) : result = .ok value := by
  cases result with
  | error fault => cases read
  | ok found =>
    cases read
    rfl

/-! ## Fields -/

variable {draft next : Draft} {entry : Entry} {bytes rest : Bytes}

private theorem Draft.within_empty : Draft.Within {} := by
  intro params held
  cases held

private theorem Draft.Within.complete (within : draft.Within) (made : draft.entry? = some entry) :
    entry.Within := by
  obtain ⟨method, -, rfl⟩ := Option.map_eq_some_iff.mp made
  show (draft.params?.getD .null).Within entryRoom
  cases held : draft.params? with
  | none => exact Value.within_null
  | some params => exact within params held

private theorem Draft.Within.readField (within : draft.Within) {name : String}
    (read : draft.readField name bytes = .ok (next, rest)) : next.Within := by
  unfold Draft.readField at read
  split at read
  · obtain ⟨⟨method, _⟩, -, same⟩ := ok_of_map read
    cases same
    exact within
  split at read
  · obtain ⟨⟨params, _⟩, valued, same⟩ := ok_of_map read
    cases same
    rintro _ ⟨⟩
    exact Json.readValue_within (ofReader_ok valued)
  split at read
  · obtain ⟨⟨notify, _⟩, -, same⟩ := ok_of_map read
    cases same
    exact within
  · obtain ⟨_, -, same⟩ := ok_of_map read
    cases same
    exact within

/-! ## Objects and arrays -/

private theorem Draft.Within.readMembers (within : draft.Within) {first : Bool} {bound : Nat}
    (read : readMembers draft first bound bytes = .ok (entry, rest)) : entry.Within := by
  induction bound generalizing draft first bytes with
  | zero => cases read
  | succ bound ih =>
    rw [Script.readMembers] at read
    obtain ⟨opened?, -, read⟩ := ok_of_bind read
    cases opened? with
    | none =>
      dsimp only at read
      cases made : draft.entry? with
      | none =>
        rw [made] at read
        cases read
      | some found =>
        rw [made] at read
        cases read
        exact within.complete made
    | some opened =>
      obtain ⟨⟨name, behind⟩, -, read⟩ := ok_of_bind read
      dsimp only at read
      split at read
      · cases read
      · obtain ⟨valued, -, read⟩ := ok_of_bind read
        obtain ⟨⟨later, further⟩, field, read⟩ := ok_of_bind read
        exact ih (within.readField field) read

private theorem Draft.Within.readItems (within : draft.Within) {first : Bool} {names : List String}
    (read : readItems draft first names bytes = .ok (next, rest)) : next.Within := by
  induction names generalizing draft first bytes with
  | nil =>
    cases read
    exact within
  | cons name names ih =>
    rw [Script.readItems] at read
    obtain ⟨item?, -, read⟩ := ok_of_bind read
    cases item? with
    | none =>
      cases read
      exact within
    | some item =>
      obtain ⟨⟨later, further⟩, field, read⟩ := ok_of_bind read
      exact ih (within.readField field) read

private theorem readArray_within (read : readArray bytes = .ok (entry, rest)) : entry.Within := by
  obtain ⟨⟨draft, behind⟩, items, read⟩ := ok_of_bind read
  have within : draft.Within := Draft.within_empty.readItems items
  dsimp only at read
  cases made : draft.entry? with
  | none =>
    rw [made] at read
    cases read
  | some found =>
    rw [made] at read
    obtain ⟨closed, -, same⟩ := ok_of_bind read
    cases same
    exact within.complete made

private theorem mismatch_fails {α : Type} (expected : String) (bytes : Bytes) (value : α) :
    mismatch expected bytes ≠ .ok value := by
  unfold mismatch
  split
  · nofun
  split
  · nofun
  split
  · nofun
  split <;> nofun

private theorem Entry.parse_within {text : Bytes} (read : Entry.parse text = .ok entry) :
    entry.Within := by
  have ends {found : Entry} {behind : Bytes}
      (read : (do ofReader (Json.expectEnd behind); return found) = Except.ok entry) :
      found = entry := by
    obtain ⟨_, -, same⟩ := ok_of_bind read
    cases same
    rfl
  unfold Entry.parse at read
  dsimp only at read
  split at read
  · cases read
  split at read
  · obtain ⟨⟨found, behind⟩, array, read⟩ := ok_of_bind read
    exact ends read ▸ readArray_within array
  split at read
  · obtain ⟨⟨found, behind⟩, object, read⟩ := ok_of_bind read
    exact ends read ▸ Draft.within_empty.readMembers object
  · obtain ⟨found, mistaken, -⟩ := ok_of_bind read
    exact absurd mistaken (mismatch_fails _ _ found)

/-! ## Scripts -/

private theorem readLine_within {number : Nat} {line : List Char}
    (read : readLine number line = .ok (some entry)) : entry.Within := by
  unfold readLine at read
  dsimp only at read
  split at read
  · cases read
  split at read
  · cases read
  next found parsed =>
    split at read
    · cases read
    · cases read
      exact Entry.parse_within parsed

private theorem readLines_within {number : Nat} {lines : List (List Char)} {entries : List Entry}
    (read : readLines number lines = .ok entries) : ∀ entry ∈ entries, entry.Within := by
  induction lines generalizing number entries with
  | nil =>
    cases read
    exact List.forall_mem_nil _
  | cons line lines ih =>
    obtain ⟨found?, here, read⟩ := ok_of_bind read
    obtain ⟨later, further, same⟩ := ok_of_bind read
    cases same
    cases found? with
    | none => exact ih further
    | some first => exact List.forall_mem_cons.mpr ⟨readLine_within here, ih further⟩

/-- The params of every entry of a script fit into a message. -/
theorem parse_within {text : List Char} {entries : List Entry} (read : parse text = .ok entries) :
    ∀ entry ∈ entries, entry.Within := by
  obtain ⟨found, lines, read⟩ := ok_of_bind read
  dsimp only at read
  split at read
  · cases read
  · cases read
    exact readLines_within lines

end Script

end Airlock
