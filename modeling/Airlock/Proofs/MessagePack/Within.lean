import Airlock.MessagePack.Reader
import Airlock.Proofs.Json.Within

/-!
# What the reader of MessagePack can come to

Whatever its keys and widths, a value that was read has the members of all its maps in order, and
nests no deeper than the room it was read in. The room is what the recursion goes down on.
-/

set_option autoImplicit false

namespace Airlock.MessagePack

variable {room : Nat}

/-! ## Heads -/

private theorem ofInt_within (n : Int) : (ofInt n).Within room := by
  unfold ofInt
  split
  · exact Value.within_number _
  · exact Value.within_null

private theorem ofDouble?_within (d? : Option Double) : (ofDouble? d?).Within room := by
  cases d? with
  | none => exact Value.within_null
  | some d => exact Value.within_number _

/-- A value that is all head fits; text and containers are still to come. -/
inductive Head.Within (room : Nat) : Head → Prop where
  | scalar {value : Value} (within : value.Within room) : Within room (.scalar value)
  | text {length : Nat} : Within room (.text length)
  | binary {length : Nat} : Within room (.binary length)
  | array {count : Nat} : Within room (.array count)
  | map {count : Nat} : Within room (.map count)

/-- A head that is read holds no value but one within the room. -/
def Heads (room : Nat) (read : Option (Head × Bytes)) : Prop :=
  ∀ head rest, read = some (head, rest) → head.Within room

namespace Heads

private theorem some {head : Head} (within : head.Within room) (rest : Bytes) :
    Heads room (some (head, rest)) := by
  rintro _ _ ⟨⟩
  exact within

private theorem none : Heads room none :=
  nofun

private theorem field {make : Nat → Head} (within : ∀ n, (make n).Within room) (width : Nat)
    (bytes : Bytes) : Heads room (readField width bytes make) := by
  intro head rest read
  obtain ⟨⟨n, behind⟩, _, same⟩ := Option.map_eq_some_iff.mp read
  cases same
  exact within n

private theorem ite {condition : Prop} [Decidable condition] {first second : Option (Head × Bytes)}
    (holds : Heads room first) (fails : Heads room second) :
    Heads room (if condition then first else second) := by
  by_cases decided : condition
  · simpa only [decided, if_true] using holds
  · simpa only [decided, if_false] using fails

end Heads

private theorem readHead_within (tag : UInt8) (bytes : Bytes) :
    Heads room (readHead tag bytes) := by
  unfold readHead readUnsigned readSigned
  dsimp only
  repeat' apply Heads.ite
  all_goals first
    | exact .none
    | exact .some (.scalar (ofInt_within _)) bytes
    | exact .some (.scalar Value.within_null) bytes
    | exact .some (.scalar (Value.within_bool _)) bytes
    | exact .some .text bytes
    | exact .some .array bytes
    | exact .some .map bytes
    | exact .field (fun _ => .scalar (ofInt_within _)) _ bytes
    | exact .field (fun _ => .scalar (ofDouble?_within _)) _ bytes
    | exact .field (fun _ => .text) _ bytes
    | exact .field (fun _ => .binary) _ bytes
    | exact .field (fun _ => .array) _ bytes
    | exact .field (fun _ => .map) _ bytes

/-! ## Items and members -/

section

variable {read : Bytes → Option (Value × Bytes)}

private theorem readItems_within
    (within : ∀ bytes value rest, read bytes = some (value, rest) → value.Within room)
    {before items : List Value} {count : Nat} {bytes rest : Bytes}
    (gathered : ∀ item ∈ before, item.Within room)
    (taken : readItems read before count bytes = some (items, rest)) :
    ∀ item ∈ items, item.Within room := by
  induction count generalizing before bytes with
  | zero =>
    cases taken
    exact fun item inside => gathered item (List.mem_reverse.mp inside)
  | succ count ih =>
    simp only [readItems] at taken
    cases first : read bytes with
    | none => simp [first] at taken
    | some result =>
      obtain ⟨item, behind⟩ := result
      simp only [first] at taken
      exact ih (List.forall_mem_cons.mpr ⟨within bytes item behind first, gathered⟩) taken

private theorem readMembers_within
    (within : ∀ bytes value rest, read bytes = some (value, rest) → value.Within room)
    {before members : Members} {count : Nat} {bytes rest : Bytes} (gathered : before.Within room)
    (taken : readMembers read before count bytes = some (members, rest)) :
    members.Within room := by
  induction count generalizing before bytes with
  | zero =>
    cases taken
    exact gathered
  | succ count ih =>
    simp only [readMembers] at taken
    cases keyed : readKey before.isEmpty bytes with
    | none => simp [keyed] at taken
    | some result =>
      obtain ⟨key, behind⟩ := result
      simp only [keyed] at taken
      cases valued : read behind with
      | none => simp [valued] at taken
      | some result =>
        obtain ⟨value, further⟩ := result
        simp only [valued] at taken
        exact ih (gathered.insert key (within behind value further valued)) taken

end

/-! ## Values -/

private theorem readValue_within : ∀ (room : Nat) (bytes : Bytes) (value : Value) (rest : Bytes),
    readValue room bytes = some (value, rest) → value.Within room
  | _, [], _, _, read => by simp [readValue] at read
  | room, tag :: bytes, value, rest, read => by
    simp only [readValue] at read
    cases headed : readHead tag bytes with
    | none => simp [headed] at read
    | some result =>
      obtain ⟨head, behind⟩ := result
      simp only [headed] at read
      cases head with
      | scalar scalar =>
        cases read
        cases readHead_within tag bytes _ _ headed with
        | scalar within => exact within
      | text length =>
        obtain ⟨⟨text, _⟩, _, same⟩ := Option.map_eq_some_iff.mp read
        cases same
        exact Value.within_string text
      | binary => cases read
      | array count =>
        cases room with
        | zero => cases read
        | succ room =>
          obtain ⟨⟨items, _⟩, taken, same⟩ := Option.map_eq_some_iff.mp read
          cases same
          exact Value.within_array.mpr
            (readItems_within (readValue_within room) (List.forall_mem_nil _) taken)
      | map count =>
        cases room with
        | zero => cases read
        | succ room =>
          obtain ⟨⟨members, _⟩, taken, same⟩ := Option.map_eq_some_iff.mp read
          cases same
          exact Value.within_object.mpr
            (readMembers_within (readValue_within room) Members.within_nil taken)

theorem decode?_within {bytes : Bytes} {value : Value} (read : decode? bytes = some value) :
    value.Within maxOpen := by
  obtain ⟨⟨result, rest⟩, found, same⟩ := Option.map_eq_some_iff.mp read
  cases same
  exact readValue_within maxOpen bytes result rest found

end Airlock.MessagePack
