import Airlock.Proofs.Json.Values
import Airlock.Proofs.MessagePack.Heads
import Airlock.Proofs.Text.Utf8

/-!
# MessagePack values written and read back

A written value is read back from whatever bytes it begins, as long as its containers fit into the
room and its lengths into their fields. The lengths of a value are bounded by the length of its
bytes, so it is enough that these are fewer than 2^32.
-/

set_option autoImplicit false

namespace Airlock.MessagePack

/-! ## Lengths -/

private theorem length_textHead_pos (length : Nat) : 0 < (textHead length).length := by
  unfold textHead
  dsimp only
  split
  · simp
  · split
    · simp
    · split <;> simp

private theorem length_arrayHead_pos (count : Nat) : 0 < (arrayHead count).length := by
  unfold arrayHead
  dsimp only
  split
  · simp
  · split <;> simp

private theorem length_mapHead_pos (count : Nat) : 0 < (mapHead count).length := by
  unfold mapHead
  dsimp only
  split
  · simp
  · split <;> simp

private theorem length_text_pos (s : String) : 0 < (text s).length := by
  have head := length_textHead_pos (Text.Utf8.ofString s).length
  simp only [text, List.length_append]
  omega

private theorem length_number_pos (n : Number) : 0 < (number n).length := by
  have read := head?_number n []
  cases written : number n with
  | nil =>
    rw [written] at read
    cases read
  | cons b rest => simp

theorem length_encode_pos (value : Value) : 0 < (encode value).length := by
  cases value with
  | null => simp [encode]
  | bool b => simp [encode]
  | number n => exact length_number_pos n
  | string s => exact length_text_pos s
  | array items =>
    have head := length_arrayHead_pos items.length
    simp only [encode, List.length_append]
    omega
  | object members =>
    have head := length_mapHead_pos members.length
    simp only [encode, List.length_append]
    omega

private theorem length_le_encodeItems (items : List Value) :
    items.length ≤ (encodeItems items).length := by
  induction items with
  | nil => simp
  | cons item items ih =>
    have first := length_encode_pos item
    simp only [encodeItems, List.length_cons, List.length_append]
    omega

private theorem length_le_encodeMembers (members : List (String × Value)) :
    members.length ≤ (encodeMembers members).length := by
  induction members with
  | nil => simp
  | cons member members ih =>
    have first := length_text_pos member.1
    simp only [encodeMembers, List.length_cons, List.length_append]
    omega

private theorem length_ofString_le_text (s : String) :
    (Text.Utf8.ofString s).length ≤ (text s).length := by
  rw [text, List.length_append]
  exact Nat.le_add_left ..

private theorem length_le_encode_array (items : List Value) :
    items.length ≤ (encode (.array items)).length := by
  rw [encode, List.length_append]
  exact Nat.le_trans (length_le_encodeItems items) (Nat.le_add_left ..)

private theorem length_le_encode_object (members : List (String × Value)) :
    members.length ≤ (encode (.object members)).length := by
  rw [encode, List.length_append]
  exact Nat.le_trans (length_le_encodeMembers members) (Nat.le_add_left ..)

/-! ## Texts and keys -/

theorem readString_ofString (s : String) (rest : Bytes) :
    readString (Text.Utf8.ofString s).length (Text.Utf8.ofString s ++ rest) = some (s, rest) := by
  rw [readString, takeExactly_append rfl]
  simp [Text.Utf8.toString?_ofString]

theorem head?_text {s : String} (fits : (Text.Utf8.ofString s).length < 0x100000000)
    (rest : Bytes) :
    head? (text s ++ rest) =
      some (.text (Text.Utf8.ofString s).length, Text.Utf8.ofString s ++ rest) := by
  rw [text, List.append_assoc, head?_textHead fits]

theorem readKey_text {s : String} (fits : (Text.Utf8.ofString s).length < 0x100000000)
    (first : Bool) (rest : Bytes) : readKey first (text s ++ rest) = some (s, rest) := by
  have head := head?_text fits rest
  cases bytes : text s ++ rest with
  | nil =>
    rw [bytes] at head
    cases head
  | cons tag behind =>
    rw [bytes, head?] at head
    simp only [readKey, head]
    exact readString_ofString s rest

/-! ## Values by their head -/

/-- The value that a head announces, and what follows it. -/
def readBehind : Nat → Head → Bytes → Option (Value × Bytes)
  | _, .scalar value, rest => some (value, rest)
  | _, .text length, rest => (readString length rest).map fun (s, rest) => (.string s, rest)
  | _, .binary _, _ | 0, .array _, _ | 0, .map _, _ => none
  | room + 1, .array count, rest =>
    (readItems (readValue room) [] count rest).map fun (items, rest) => (.array items, rest)
  | room + 1, .map count, rest =>
    (readMembers (readValue room) [] count rest).map fun (members, rest) => (.object members, rest)

theorem readValue_of_head {bytes rest : Bytes} {head : Head}
    (begins : head? bytes = some (head, rest)) (room : Nat) :
    readValue room bytes = readBehind room head rest := by
  cases bytes with
  | nil => cases begins
  | cons tag behind =>
    rw [head?] at begins
    cases head <;> cases room <;> simp only [readValue, begins, readBehind]

theorem head?_array {items : List Value} (fits : items.length < 0x100000000) (rest : Bytes) :
    head? (encode (.array items) ++ rest) =
      some (.array items.length, encodeItems items ++ rest) := by
  rw [encode, List.append_assoc, head?_arrayHead fits]

theorem head?_object {members : List (String × Value)} (fits : members.length < 0x100000000)
    (rest : Bytes) :
    head? (encode (.object members) ++ rest) =
      some (.map members.length, encodeMembers members ++ rest) := by
  rw [encode, List.append_assoc, head?_mapHead fits]

/-! ## Values within the room -/

mutual

/-- A written value is read as the value when its nesting fits into the room. -/
theorem readValue_encode : ∀ (value : Value), value.WellFormed →
    (encode value).length < 0x100000000 → ∀ (room : Nat), value.nesting ≤ room → ∀ (rest : Bytes),
    readValue room (encode value ++ rest) = some (value, rest)
  | .null, _, _, room, _, rest => @readValue_of_head _ rest (.scalar .null) rfl room
  | .bool true, _, _, room, _, rest => @readValue_of_head _ rest (.scalar (.bool true)) rfl room
  | .bool false, _, _, room, _, rest => @readValue_of_head _ rest (.scalar (.bool false)) rfl room
  | .number n, _, _, room, _, rest => readValue_of_head (head?_number n rest) room
  | .string s, _, short, room, _, rest => by
    have fits := Nat.lt_of_le_of_lt (length_ofString_le_text s) short
    rw [encode, readValue_of_head (head?_text fits rest), readBehind, readString_ofString]
    rfl
  | .array items, _, _, 0, fits, _ => by
    simp only [Value.nesting] at fits
    omega
  | .array items, wellFormed, short, room + 1, fits, rest => by
    have count := Nat.lt_of_le_of_lt (length_le_encode_array items) short
    rw [readValue_of_head (head?_array count rest), readBehind]
    simp only [Value.WellFormed] at wellFormed
    simp only [Value.nesting] at fits
    simp only [encode, List.length_append] at short
    rw [readItems_encodeItems items wellFormed (by omega) room (by omega) [] rest]
    rfl
  | .object members, _, _, 0, fits, _ => by
    simp only [Value.nesting] at fits
    omega
  | .object members, wellFormed, short, room + 1, fits, rest => by
    have count := Nat.lt_of_le_of_lt (length_le_encode_object members) short
    rw [readValue_of_head (head?_object count rest), readBehind]
    simp only [Value.WellFormed] at wellFormed
    simp only [Value.nesting] at fits
    simp only [encode, List.length_append] at short
    rw [readMembers_encodeMembers members wellFormed.2 (by omega) room (by omega) []
      wellFormed.1 rest]
    rfl

private theorem readItems_encodeItems : ∀ (items : List Value), Value.ItemsWellFormed items →
    (encodeItems items).length < 0x100000000 → ∀ (room : Nat), Value.nestingOfItems items ≤ room →
    ∀ (before : List Value) (rest : Bytes),
    readItems (readValue room) before items.length (encodeItems items ++ rest) =
      some (before.reverse ++ items, rest)
  | [], _, _, _, _, before, rest => by simp [encodeItems, readItems]
  | item :: items, wellFormed, short, room, fits, before, rest => by
    simp only [Value.ItemsWellFormed] at wellFormed
    simp only [Value.nestingOfItems] at fits
    simp only [encodeItems, List.length_append] at short
    rw [encodeItems, List.append_assoc, List.length_cons, readItems,
      readValue_encode item wellFormed.1 (by omega) room (by omega)]
    simp only []
    rw [readItems_encodeItems items wellFormed.2 (by omega) room (by omega) (item :: before) rest]
    simp

private theorem readMembers_encodeMembers : ∀ (members : List (String × Value)),
    Value.MembersWellFormed members → (encodeMembers members).length < 0x100000000 → ∀ (room : Nat),
    Value.nestingOfMembers members ≤ room → ∀ (before : Members),
    Members.Ordered (before ++ members) → ∀ (rest : Bytes),
    readMembers (readValue room) before members.length (encodeMembers members ++ rest) =
      some (before ++ members, rest)
  | [], _, _, _, _, before, _, rest => by simp [encodeMembers, readMembers]
  | (key, value) :: members, wellFormed, short, room, fits, before, ordered, rest => by
    simp only [Value.MembersWellFormed] at wellFormed
    simp only [Value.nestingOfMembers] at fits
    simp only [encodeMembers, List.length_append] at short
    rw [encodeMembers, List.append_assoc, List.append_assoc, List.length_cons, readMembers,
      readKey_text (Nat.lt_of_le_of_lt (length_ofString_le_text key) (by omega))]
    simp only []
    rw [readValue_encode value wellFormed.1 (by omega) room (by omega)]
    simp only []
    have regroup : before ++ (key, value) :: members = (before ++ [(key, value)]) ++ members := by
      simp
    rw [Members.insert_ordered ordered,
      readMembers_encodeMembers members wellFormed.2 (by omega) room (by omega)
        (before ++ [(key, value)]) (regroup ▸ ordered) rest, regroup]

end

/-! ## Values beyond the room -/

mutual

/-- A written value whose nesting does not fit into the room is refused. -/
theorem readValue_encode_tooDeep : ∀ (value : Value), value.WellFormed →
    (encode value).length < 0x100000000 → ∀ (room : Nat), room < value.nesting → ∀ (rest : Bytes),
    readValue room (encode value ++ rest) = none
  | .null, _, _, _, deep, _ | .bool _, _, _, _, deep, _ | .number _, _, _, _, deep, _
  | .string _, _, _, _, deep, _ => by
    simp only [Value.nesting] at deep
    omega
  | .array items, _, short, 0, _, rest => by
    have count := Nat.lt_of_le_of_lt (length_le_encode_array items) short
    rw [readValue_of_head (head?_array count rest), readBehind]
  | .array items, wellFormed, short, room + 1, deep, rest => by
    have count := Nat.lt_of_le_of_lt (length_le_encode_array items) short
    rw [readValue_of_head (head?_array count rest), readBehind]
    simp only [Value.WellFormed] at wellFormed
    simp only [Value.nesting] at deep
    simp only [encode, List.length_append] at short
    rw [readItems_encodeItems_tooDeep items wellFormed (by omega) room (by omega) [] rest]
    rfl
  | .object members, _, short, 0, _, rest => by
    have count := Nat.lt_of_le_of_lt (length_le_encode_object members) short
    rw [readValue_of_head (head?_object count rest), readBehind]
  | .object members, wellFormed, short, room + 1, deep, rest => by
    have count := Nat.lt_of_le_of_lt (length_le_encode_object members) short
    rw [readValue_of_head (head?_object count rest), readBehind]
    simp only [Value.WellFormed] at wellFormed
    simp only [Value.nesting] at deep
    simp only [encode, List.length_append] at short
    rw [readMembers_encodeMembers_tooDeep members wellFormed.2 (by omega) room (by omega) []
      rest]
    rfl

private theorem readItems_encodeItems_tooDeep :
    ∀ (items : List Value), Value.ItemsWellFormed items →
    (encodeItems items).length < 0x100000000 → ∀ (room : Nat), room < Value.nestingOfItems items →
    ∀ (before : List Value) (rest : Bytes),
    readItems (readValue room) before items.length (encodeItems items ++ rest) = none
  | [], _, _, _, deep, _, _ => by
    simp only [Value.nestingOfItems] at deep
    omega
  | item :: items, wellFormed, short, room, deep, before, rest => by
    simp only [Value.ItemsWellFormed] at wellFormed
    simp only [Value.nestingOfItems] at deep
    simp only [encodeItems, List.length_append] at short
    rw [encodeItems, List.append_assoc, List.length_cons, readItems]
    by_cases fits : item.nesting ≤ room
    · rw [readValue_encode item wellFormed.1 (by omega) room fits]
      exact readItems_encodeItems_tooDeep items wellFormed.2 (by omega) room (by omega)
        (item :: before) rest
    · rw [readValue_encode_tooDeep item wellFormed.1 (by omega) room (by omega)]

private theorem readMembers_encodeMembers_tooDeep : ∀ (members : List (String × Value)),
    Value.MembersWellFormed members → (encodeMembers members).length < 0x100000000 → ∀ (room : Nat),
    room < Value.nestingOfMembers members → ∀ (before : Members) (rest : Bytes),
    readMembers (readValue room) before members.length (encodeMembers members ++ rest) = none
  | [], _, _, _, deep, _, _ => by
    simp only [Value.nestingOfMembers] at deep
    omega
  | (key, value) :: members, wellFormed, short, room, deep, before, rest => by
    simp only [Value.MembersWellFormed] at wellFormed
    simp only [Value.nestingOfMembers] at deep
    simp only [encodeMembers, List.length_append] at short
    rw [encodeMembers, List.append_assoc, List.append_assoc, List.length_cons, readMembers,
      readKey_text (Nat.lt_of_le_of_lt (length_ofString_le_text key) (by omega))]
    simp only []
    by_cases fits : value.nesting ≤ room
    · rw [readValue_encode value wellFormed.1 (by omega) room fits]
      exact readMembers_encodeMembers_tooDeep members wellFormed.2 (by omega) room (by omega)
        (before.insert key value) rest
    · rw [readValue_encode_tooDeep value wellFormed.1 (by omega) room (by omega)]

end

/-! ## Whole payloads -/

theorem decode?_encode {value : Value} (wellFormed : value.WellFormed)
    (short : (encode value).length < 0x100000000) (fits : value.nesting ≤ maxOpen) :
    decode? (encode value) = some value := by
  have read := readValue_encode value wellFormed short maxOpen fits []
  rw [List.append_nil] at read
  rw [decode?, read]
  rfl

theorem decode?_encode_tooDeep {value : Value} (wellFormed : value.WellFormed)
    (short : (encode value).length < 0x100000000) (deep : maxOpen < value.nesting) :
    decode? (encode value) = none := by
  have read := readValue_encode_tooDeep value wellFormed short maxOpen deep []
  rw [List.append_nil] at read
  rw [decode?, read]
  rfl

end Airlock.MessagePack
