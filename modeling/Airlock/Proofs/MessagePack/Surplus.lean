import Airlock.MessagePack.Reader

/-!
# MessagePack with more behind it

How much a value takes is told by its heads alone, so the bytes behind it change nothing but what is
left of them. The reader of a whole payload leaves them unread.
-/

set_option autoImplicit false

namespace Airlock.MessagePack

variable {extra : Bytes}

/-- Where one reading succeeds the other one does, and leaves more behind. -/
def Extends {α : Type} (extra : Bytes) (read readMore : Option (α × Bytes)) : Prop :=
  ∀ result rest, read = some (result, rest) → readMore = some (result, rest ++ extra)

namespace Extends

variable {α : Type}

private theorem some (result : α) (rest : Bytes) :
    Extends extra (some (result, rest)) (some (result, rest ++ extra)) := by
  rintro _ _ ⟨⟩
  rfl

private theorem none {readMore : Option (α × Bytes)} : Extends extra none readMore :=
  nofun

private theorem ite {condition : Prop} [Decidable condition]
    {first second firstMore secondMore : Option (α × Bytes)}
    (holds : Extends extra first firstMore) (fails : Extends extra second secondMore) :
    Extends extra (if condition then first else second)
      (if condition then firstMore else secondMore) := by
  by_cases decided : condition
  · simpa only [decided, if_true] using holds
  · simpa only [decided, if_false] using fails

private theorem map {β : Type} {read readMore : Option (α × Bytes)}
    (agrees : Extends extra read readMore)
    (change : α → β) :
    Extends extra (read.map fun (result, rest) => (change result, rest))
      (readMore.map fun (result, rest) => (change result, rest)) := by
  intro result rest mapped
  obtain ⟨⟨before, left⟩, found, same⟩ := Option.map_eq_some_iff.mp mapped
  rw [agrees before left found]
  cases same
  rfl

end Extends

/-! ## Heads and texts -/

private theorem takeExactly_surplus (count : Nat) (bytes : Bytes) :
    Extends extra (takeExactly count bytes) (takeExactly count (bytes ++ extra)) := by
  intro taken rest read
  unfold takeExactly at read ⊢
  dsimp only at read ⊢
  split at read
  next enough =>
    cases read
    have within : count ≤ bytes.length := by
      rw [List.length_take] at enough
      omega
    rw [List.take_append_of_le_length within, List.drop_append_of_le_length within, if_pos enough]
  next => cases read

private theorem readField_surplus (width : Nat) (bytes : Bytes) (head : Nat → Head) :
    Extends extra (readField width bytes head) (readField width (bytes ++ extra) head) :=
  ((takeExactly_surplus width bytes).map ofBigEndian).map head

private theorem readHead_surplus (tag : UInt8) (bytes : Bytes) :
    Extends extra (readHead tag bytes) (readHead tag (bytes ++ extra)) := by
  unfold readHead readUnsigned readSigned
  dsimp only
  repeat' apply Extends.ite
  all_goals first
    | exact .some _ bytes
    | exact readField_surplus _ bytes _
    | exact .none

private theorem readString_surplus (length : Nat) (bytes : Bytes) :
    Extends extra (readString length bytes) (readString length (bytes ++ extra)) := by
  intro text rest read
  simp only [readString, bind, Option.bind] at read ⊢
  cases found : takeExactly length bytes with
  | none => simp [found] at read
  | some result =>
    obtain ⟨taken, left⟩ := result
    rw [takeExactly_surplus length bytes taken left found]
    cases spelled : Text.Utf8.toString? taken with
    | none => simp [found, spelled] at read
    | some spelling =>
      simp only [found, spelled, pure, Option.some.injEq, Prod.mk.injEq] at read
      simp [spelled, read]

private theorem readKey_surplus (first : Bool) (bytes : Bytes) :
    Extends extra (readKey first bytes) (readKey first (bytes ++ extra)) := by
  intro key rest read
  cases bytes with
  | nil => cases read
  | cons tag bytes =>
    rw [List.cons_append]
    simp only [readKey] at read ⊢
    cases headed : readHead tag bytes with
    | none => simp [headed] at read
    | some result =>
      obtain ⟨head, behind⟩ := result
      rw [readHead_surplus tag bytes head behind headed]
      simp only [headed] at read ⊢
      cases head with
      | text length => exact readString_surplus length behind key rest read
      | binary length =>
        exact Extends.ite .none (readString_surplus length behind) key rest read
      | _ => cases read

/-! ## Values -/

section

variable {read : Bytes → Option (Value × Bytes)}

private theorem readItems_surplus
    (agrees : ∀ bytes, Extends extra (read bytes) (read (bytes ++ extra))) (count : Nat)
    (before : List Value) (bytes : Bytes) :
    Extends extra (readItems read before count bytes)
      (readItems read before count (bytes ++ extra)) := by
  induction count generalizing before bytes with
  | zero => exact .some _ bytes
  | succ count ih =>
    intro items rest found
    unfold readItems at found ⊢
    cases first : read bytes with
    | none => simp [first] at found
    | some result =>
      obtain ⟨item, behind⟩ := result
      rw [agrees bytes item behind first]
      simp only [first] at found
      exact ih (item :: before) behind items rest found

private theorem readMembers_surplus
    (agrees : ∀ bytes, Extends extra (read bytes) (read (bytes ++ extra))) (count : Nat)
    (before : Members) (bytes : Bytes) :
    Extends extra (readMembers read before count bytes)
      (readMembers read before count (bytes ++ extra)) := by
  induction count generalizing before bytes with
  | zero => exact .some _ bytes
  | succ count ih =>
    intro members rest found
    unfold readMembers at found ⊢
    cases first : readKey before.isEmpty bytes with
    | none => simp [first] at found
    | some result =>
      obtain ⟨key, behind⟩ := result
      rw [readKey_surplus before.isEmpty bytes key behind first]
      simp only [first] at found ⊢
      cases second : read behind with
      | none => simp [second] at found
      | some result =>
        obtain ⟨value, further⟩ := result
        rw [agrees behind value further second]
        simp only [second] at found
        exact ih (before.insert key value) further members rest found

end

/-- A value is read the same with more bytes behind it. -/
theorem readValue_surplus : ∀ (room : Nat) (bytes : Bytes),
    Extends extra (readValue room bytes) (readValue room (bytes ++ extra))
  | _, [] => fun _ _ read => by simp [readValue] at read
  | room, tag :: bytes => by
    intro value rest read
    rw [List.cons_append]
    simp only [readValue] at read ⊢
    cases headed : readHead tag bytes with
    | none => simp [headed] at read
    | some result =>
      obtain ⟨head, behind⟩ := result
      rw [readHead_surplus tag bytes head behind headed]
      simp only [headed] at read ⊢
      cases head with
      | scalar value =>
        cases read
        rfl
      | text length => exact (readString_surplus length behind).map .string value rest read
      | binary => cases read
      | array count =>
        cases room with
        | zero => cases read
        | succ room =>
          have agrees : Extends extra _ _ :=
            readItems_surplus (readValue_surplus room) count [] behind
          exact agrees.map .array value rest read
      | map count =>
        cases room with
        | zero => cases read
        | succ room =>
          have agrees : Extends extra _ _ :=
            readMembers_surplus (readValue_surplus room) count [] behind
          exact agrees.map .object value rest read

theorem decode?_surplus {bytes : Bytes} {value : Value} (read : decode? bytes = some value) :
    decode? (bytes ++ extra) = some value := by
  obtain ⟨⟨found, rest⟩, complete, rfl⟩ := Option.map_eq_some_iff.mp read
  rw [decode?, readValue_surplus maxOpen bytes found rest complete]
  rfl

end Airlock.MessagePack
