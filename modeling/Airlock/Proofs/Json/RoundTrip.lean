import Airlock.Proofs.Json.Doubles
import Airlock.Proofs.Json.Strings
import Airlock.Proofs.Json.Values

/-!
# JSON values written and read back

The machine takes the printed text of a value in one stride: from a mode in which a value is due to
the mode behind that value, with the same containers open around it. Only the doubles of the value
may have become others on the way. A value that nests deeper than the room left by those containers
stops the machine at the bracket that is one too many.
-/

set_option autoImplicit false

namespace Airlock.Json

open Text (Utf8.encode Utf8.encode_append)

/-! ## Bytes of printed text -/

private theorem encode_stringText (text : String) (rest : Bytes) :
    Utf8.encode (stringText text) ++ rest =
      byte '"' :: (Utf8.encode (text.toList.flatMap escapedChar ++ ['"']) ++ rest) := by
  rw [stringText, List.cons_append, encode_ascii (by decide), List.cons_append]

namespace Machine

variable (room : Nat) (stack : List Frame)

/-! ## Single bytes -/

private theorem run_comma_item (value : Value) (before : List Value) (rest : Bytes) :
    run room ⟨.behind value, .items before :: stack⟩ (byte ',' :: rest) =
      run room ⟨.nextItem, .items (value :: before) :: stack⟩ rest :=
  rfl

theorem run_close_items (value : Value) (before : List Value) (rest : Bytes) :
    run room ⟨.behind value, .items before :: stack⟩ (byte ']' :: rest) =
      run room ⟨.behind (.array (value :: before).reverse), stack⟩ rest :=
  rfl

private theorem run_comma_member (value : Value) (before : Members) (key : String) (rest : Bytes) :
    run room ⟨.behind value, .members before key :: stack⟩ (byte ',' :: rest) =
      run room ⟨.nextKey (before.insert key value), stack⟩ rest :=
  rfl

theorem run_close_members (value : Value) (before : Members) (key : String) (rest : Bytes) :
    run room ⟨.behind value, .members before key :: stack⟩ (byte '\x7d' :: rest) =
      run room ⟨.behind (.object (before.insert key value)), stack⟩ rest :=
  rfl

theorem run_open_array {mode : Mode} (due : ValueDue mode) (open_ : stack.length < room)
    (rest : Bytes) :
    run room ⟨mode, stack⟩ (byte '[' :: rest) = run room ⟨.firstItem, .items [] :: stack⟩ rest := by
  rw [run, step_valueDue due room stack rfl (by decide)]
  have opened : beginValue room stack (byte '[') rest =
      openContainer room stack ⟨.firstItem, .items [] :: stack⟩ rest := rfl
  rw [opened, openContainer, if_pos open_]

theorem run_open_object {mode : Mode} (due : ValueDue mode) (open_ : stack.length < room)
    (rest : Bytes) :
    run room ⟨mode, stack⟩ (byte '\x7b' :: rest) = run room ⟨.firstKey, stack⟩ rest := by
  rw [run, step_valueDue due room stack rfl (by decide)]
  have opened : beginValue room stack (byte '\x7b') rest =
      openContainer room stack ⟨.firstKey, stack⟩ rest := rfl
  rw [opened, openContainer, if_pos open_]

/-! ## Scalars and keys -/

theorem run_string {mode : Mode} (due : ValueDue mode) (text : String) (rest : Bytes) :
    run room ⟨mode, stack⟩ (Utf8.encode (stringText text) ++ rest) =
      run room ⟨.behind (.string text), stack⟩ rest := by
  rw [encode_stringText, run, step_valueDue due room stack rfl (by decide)]
  have opened (behind : Bytes) : beginValue room stack (byte '"') behind =
      .ok (.more ⟨.text (.start behind), stack⟩) := rfl
  have read := readText_printed text rest
  rw [readText] at read
  simp only [opened, run_text, read]

/-- A mode in which a key may begin, behind the members given. -/
inductive KeyDue : Mode → Members → Prop where
  | firstKey : KeyDue .firstKey []
  | nextKey {before : Members} : KeyDue (.nextKey before) before

private theorem run_keyText {mode : Mode} {before : Members} (due : KeyDue mode before)
    (key : String)
    (rest : Bytes) :
    run room ⟨mode, stack⟩ (Utf8.encode (stringText key) ++ byte ':' :: rest) =
      run room ⟨.value, .members before key :: stack⟩ rest := by
  have opened (behind : Bytes) : step room ⟨mode, stack⟩ (byte '"') behind =
      .ok (.more ⟨.key before (.start behind), stack⟩) := by
    cases due <;> rfl
  have read := readText_printed key (byte ':' :: rest)
  rw [readText] at read
  rw [encode_stringText, run]
  simp only [opened, run_key, read]
  rfl

theorem run_null {mode : Mode} (due : ValueDue mode) (rest : Bytes) :
    run room ⟨mode, stack⟩ (Utf8.encode (text .null) ++ rest) =
      run room ⟨.behind .null, stack⟩ rest := by
  cases due <;> rfl

theorem run_bool {mode : Mode} (due : ValueDue mode) (b : Bool) (rest : Bytes) :
    run room ⟨mode, stack⟩ (Utf8.encode (text (.bool b)) ++ rest) =
      run room ⟨.behind (.bool b), stack⟩ rest := by
  cases b <;> cases due <;> rfl

/-! ## First parts of a container -/

theorem run_array_first {mode : Mode} (due : ValueDue mode) (vacant : stack.length < room)
    (item : Value) (items : List Value) (rest : Bytes) :
    run room ⟨mode, stack⟩ (Utf8.encode (text (.array (item :: items))) ++ rest) =
      run room ⟨.firstItem, .items [] :: stack⟩
        (Utf8.encode (text item) ++ (Utf8.encode (itemsText items) ++ rest)) := by
  simp only [text]
  rw [encode_ascii (by decide), List.cons_append, run_open_array room stack due vacant,
    Utf8.encode_append, List.append_assoc]

theorem run_itemsText_next (item next : Value) (before items : List Value) (rest : Bytes) :
    run room ⟨.behind item, .items before :: stack⟩
        (Utf8.encode (itemsText (next :: items)) ++ rest) =
      run room ⟨.nextItem, .items (item :: before) :: stack⟩
        (Utf8.encode (text next) ++ (Utf8.encode (itemsText items) ++ rest)) := by
  simp only [itemsText]
  rw [encode_ascii (by decide), List.cons_append, run_comma_item, Utf8.encode_append,
    List.append_assoc]

private theorem run_memberText {mode : Mode} {before : Members} (due : KeyDue mode before)
    (key : String)
    (value : Value) (members : List (String × Value)) (rest : Bytes) :
    run room ⟨mode, stack⟩
        (Utf8.encode (stringText key ++ ':' :: (text value ++ membersText members)) ++ rest) =
      run room ⟨.value, .members before key :: stack⟩
        (Utf8.encode (text value) ++ (Utf8.encode (membersText members) ++ rest)) := by
  rw [Utf8.encode_append, List.append_assoc, encode_ascii (by decide), List.cons_append,
    run_keyText room stack due key, Utf8.encode_append, List.append_assoc]

theorem run_object_first {mode : Mode} (due : ValueDue mode) (vacant : stack.length < room)
    (key : String) (value : Value) (members : List (String × Value)) (rest : Bytes) :
    run room ⟨mode, stack⟩ (Utf8.encode (text (.object ((key, value) :: members))) ++ rest) =
      run room ⟨.value, .members [] key :: stack⟩
        (Utf8.encode (text value) ++ (Utf8.encode (membersText members) ++ rest)) := by
  simp only [text]
  rw [encode_ascii (by decide), List.cons_append, run_open_object room stack due vacant,
    run_memberText room stack .firstKey]

theorem run_membersText_insert (before : Members) (key next : String) (value nextValue : Value)
    (members : List (String × Value)) (rest : Bytes) :
    run room ⟨.behind value, .members before key :: stack⟩
        (Utf8.encode (membersText ((next, nextValue) :: members)) ++ rest) =
      run room ⟨.value, .members (before.insert key value) next :: stack⟩
        (Utf8.encode (text nextValue) ++ (Utf8.encode (membersText members) ++ rest)) := by
  simp only [membersText]
  rw [encode_ascii (by decide), List.cons_append, run_comma_member,
    run_memberText room stack .nextKey]

private theorem run_membersText_next {before : Members} {key next : String}
    {value nextValue : Value}
    {members : List (String × Value)}
    (ordered : Members.Ordered (before ++ (key, value) :: (next, nextValue) :: members))
    (rest : Bytes) :
    run room ⟨.behind value, .members before key :: stack⟩
        (Utf8.encode (membersText ((next, nextValue) :: members)) ++ rest) =
      run room ⟨.value, .members (before ++ [(key, value)]) next :: stack⟩
        (Utf8.encode (text nextValue) ++ (Utf8.encode (membersText members) ++ rest)) := by
  rw [run_membersText_insert, Members.insert_ordered ordered]

/-! ## Values within the room -/

theorem follow_itemsText (items : List Value) (rest : Bytes) :
    Follow (Utf8.encode (itemsText items) ++ rest) := by
  cases items with
  | nil =>
    simp only [itemsText]
    rw [encode_ascii (by decide)]
    exact .delimiter (by decide)
  | cons item items =>
    simp only [itemsText]
    rw [encode_ascii (by decide)]
    exact .delimiter (by decide)

theorem follow_membersText (members : List (String × Value)) (rest : Bytes) :
    Follow (Utf8.encode (membersText members) ++ rest) := by
  cases members with
  | nil =>
    simp only [membersText]
    rw [encode_ascii (by decide)]
    exact .delimiter (by decide)
  | cons member members =>
    simp only [membersText]
    rw [encode_ascii (by decide)]
    exact .delimiter (by decide)

mutual

/-- A printed value is taken, with its doubles as their texts are read, when its nesting fits into
the room. -/
theorem run_reread : ∀ (value : Value), value.WellFormed → ∀ {mode : Mode}, ValueDue mode →
    ∀ (stack : List Frame), stack.length + value.nesting ≤ room → ∀ {rest : Bytes}, Follow rest →
    run room ⟨mode, stack⟩ (Utf8.encode (text value) ++ rest) =
      run room ⟨.behind (value.mapDoubles Double.reread), stack⟩ rest
  | .null, _, _, due, stack, _, rest, _ => run_null room stack due rest
  | .bool b, _, _, due, stack, _, rest, _ => run_bool room stack due b rest
  | .number (.integer n), _, _, due, stack, _, _, follow =>
    run_spells (spells_integer n) due room stack follow
  | .number (.double d), _, _, due, stack, _, _, follow =>
    run_spells d.spells_text due room stack follow
  | .string s, _, _, due, stack, _, rest, _ => run_string room stack due s rest
  | .array [], _, mode, due, stack, fits, rest, _ => by
    simp only [Value.nesting] at fits
    simp only [text]
    rw [encode_ascii (by decide), List.cons_append,
      run_open_array room stack due (by omega)]
    rfl
  | .array (item :: items), wellFormed, mode, due, stack, fits, rest, _ => by
    simp only [Value.WellFormed, Value.ItemsWellFormed] at wellFormed
    simp only [Value.nesting, Value.nestingOfItems] at fits
    rw [run_array_first room stack due (by omega),
      run_reread item wellFormed.1 .firstItem (.items [] :: stack)
        (by simp only [List.length_cons]; omega) (follow_itemsText items rest),
      run_itemsText_reread items wellFormed.2 _ [] stack (by omega) rest]
    rfl
  | .object [], _, mode, due, stack, fits, rest, _ => by
    simp only [Value.nesting] at fits
    simp only [text]
    rw [encode_ascii (by decide), List.cons_append,
      run_open_object room stack due (by omega)]
    rfl
  | .object ((key, value) :: members), wellFormed, mode, due, stack, fits, rest, _ => by
    simp only [Value.WellFormed, Value.MembersWellFormed] at wellFormed
    simp only [Value.nesting, Value.nestingOfMembers] at fits
    have ordered : Members.Ordered ((key, value.mapDoubles Double.reread) :: members) :=
      wellFormed.1.of_same_keys rfl
    rw [run_object_first room stack due (by omega),
      run_reread value wellFormed.2.1 .value (.members [] key :: stack)
        (by simp only [List.length_cons]; omega) (follow_membersText members rest),
      run_membersText_reread members wellFormed.2.2 [] key _ ordered stack (by omega) rest]
    rfl

/-- Behind an item, the printed items after it and the bracket complete the array. -/
theorem run_itemsText_reread : ∀ (items : List Value), Value.ItemsWellFormed items →
    ∀ (item : Value) (before : List Value) (stack : List Frame),
    stack.length + 1 + Value.nestingOfItems items ≤ room → ∀ (rest : Bytes),
    run room ⟨.behind item, .items before :: stack⟩ (Utf8.encode (itemsText items) ++ rest) =
      run room ⟨.behind (.array ((item :: before).reverse ++
        Value.mapDoublesOfItems Double.reread items)), stack⟩ rest
  | [], _, item, before, stack, _, rest => by
    simp only [itemsText, Value.mapDoublesOfItems]
    rw [encode_ascii (by decide), List.cons_append, run_close_items, List.append_nil]
    rfl
  | next :: items, wellFormed, item, before, stack, fits, rest => by
    simp only [Value.ItemsWellFormed] at wellFormed
    simp only [Value.nestingOfItems] at fits
    rw [run_itemsText_next,
      run_reread next wellFormed.1 .nextItem (.items (item :: before) :: stack)
        (by simp only [List.length_cons]; omega) (follow_itemsText items rest),
      run_itemsText_reread items wellFormed.2 _ (item :: before) stack (by omega) rest]
    simp [Value.mapDoublesOfItems]

/-- Behind a member's value, the printed members after it and the brace complete the object. -/
theorem run_membersText_reread : ∀ (members : List (String × Value)),
    Value.MembersWellFormed members → ∀ (before : Members) (key : String) (value : Value),
    Members.Ordered (before ++ (key, value) :: members) → ∀ (stack : List Frame),
    stack.length + 1 + Value.nestingOfMembers members ≤ room → ∀ (rest : Bytes),
    run room ⟨.behind value, .members before key :: stack⟩
        (Utf8.encode (membersText members) ++ rest) =
      run room ⟨.behind (.object (before ++ (key, value) ::
        Value.mapDoublesOfMembers Double.reread members)), stack⟩ rest
  | [], _, before, key, value, ordered, stack, _, rest => by
    simp only [membersText, Value.mapDoublesOfMembers]
    rw [encode_ascii (by decide), List.cons_append, run_close_members,
      Members.insert_ordered ordered]
    rfl
  | (next, nextValue) :: members, wellFormed, before, key, value, ordered, stack, fits, rest => by
    simp only [Value.MembersWellFormed] at wellFormed
    simp only [Value.nestingOfMembers] at fits
    have behind : Members.Ordered ((before ++ [(key, value)]) ++
        (next, nextValue.mapDoubles Double.reread) :: members) :=
      ordered.of_same_keys (by simp)
    rw [run_membersText_next room stack ordered,
      run_reread nextValue wellFormed.1 .value (.members (before ++ [(key, value)]) next :: stack)
        (by simp only [List.length_cons]; omega) (follow_membersText members rest),
      run_membersText_reread members wellFormed.2 (before ++ [(key, value)]) next _ behind stack
        (by omega) rest]
    simp [Value.mapDoublesOfMembers]

end

/-- A printed value is taken as the value itself when its doubles are read back. -/
theorem run_printed {value : Value} (wellFormed : value.WellFormed)
    (back : ∀ d ∈ value.doubles, d.ReadsBack) {mode : Mode} (due : ValueDue mode)
    (fits : stack.length + value.nesting ≤ room) {rest : Bytes} (follow : Follow rest) :
    run room ⟨mode, stack⟩ (Utf8.encode (text value) ++ rest) =
      run room ⟨.behind value, stack⟩ rest := by
  rw [run_reread room value wellFormed due stack fits follow,
    Value.mapDoubles_eq_self fun d inside => (back d inside).reread]

/-! ## Values beyond the room -/

/-- The reading stopped at a container that is one too many. -/
def TooDeep (outcome : Except Fault (Value × Bytes)) : Prop :=
  ∃ rest, outcome = .error ⟨.tooDeep, rest⟩

theorem run_full_array {mode : Mode} (due : ValueDue mode) (full : ¬ stack.length < room)
    (rest : Bytes) : TooDeep (run room ⟨mode, stack⟩ (byte '[' :: rest)) := by
  rw [run, step_valueDue due room stack rfl (by decide)]
  have opened : beginValue room stack (byte '[') rest =
      openContainer room stack ⟨.firstItem, .items [] :: stack⟩ rest := rfl
  rw [opened, openContainer, if_neg full]
  exact ⟨rest, rfl⟩

theorem run_full_object {mode : Mode} (due : ValueDue mode) (full : ¬ stack.length < room)
    (rest : Bytes) : TooDeep (run room ⟨mode, stack⟩ (byte '\x7b' :: rest)) := by
  rw [run, step_valueDue due room stack rfl (by decide)]
  have opened : beginValue room stack (byte '\x7b') rest =
      openContainer room stack ⟨.firstKey, stack⟩ rest := rfl
  rw [opened, openContainer, if_neg full]
  exact ⟨rest, rfl⟩

mutual

/-- A printed value whose nesting does not fit into the room stops the machine. -/
theorem run_printed_tooDeep : ∀ (value : Value), value.WellFormed →
    (∀ d ∈ value.doubles, d.ReadsBack) → ∀ {mode : Mode}, ValueDue mode → ∀ (stack : List Frame),
    stack.length ≤ room → room < stack.length + value.nesting → ∀ (rest : Bytes),
    TooDeep (run room ⟨mode, stack⟩ (Utf8.encode (text value) ++ rest))
  | .null, _, _, _, _, _, _, deep, _ | .bool _, _, _, _, _, _, _, deep, _
  | .number _, _, _, _, _, _, _, deep, _ | .string _, _, _, _, _, _, _, deep, _ => by
    simp only [Value.nesting] at deep
    omega
  | .array [], _, _, mode, due, stack, _, deep, rest => by
    simp only [Value.nesting, Value.nestingOfItems] at deep
    simp only [text]
    rw [encode_ascii (by decide)]
    exact run_full_array room stack due (by omega) _
  | .array (item :: items), wellFormed, back, mode, due, stack, _, deep, rest => by
    simp only [Value.WellFormed, Value.ItemsWellFormed] at wellFormed
    simp only [Value.doubles, Value.doublesOfItems, List.mem_append, or_imp, forall_and] at back
    simp only [Value.nesting, Value.nestingOfItems] at deep
    by_cases vacant : stack.length < room
    · rw [run_array_first room stack due vacant]
      by_cases fits : stack.length + 1 + item.nesting ≤ room
      · rw [run_printed room (.items [] :: stack) wellFormed.1 back.1 .firstItem fits
          (follow_itemsText items rest)]
        exact run_itemsText_tooDeep items wellFormed.2 back.2 item [] stack vacant (by omega) rest
      · exact run_printed_tooDeep item wellFormed.1 back.1 .firstItem (.items [] :: stack) vacant
          (Nat.not_le.mp fits) _
    · simp only [text]
      rw [encode_ascii (by decide)]
      exact run_full_array room stack due vacant _
  | .object [], _, _, mode, due, stack, _, deep, rest => by
    simp only [Value.nesting, Value.nestingOfMembers] at deep
    simp only [text]
    rw [encode_ascii (by decide)]
    exact run_full_object room stack due (by omega) _
  | .object ((key, value) :: members), wellFormed, back, mode, due, stack, _, deep, rest => by
    simp only [Value.WellFormed, Value.MembersWellFormed] at wellFormed
    simp only [Value.doubles, Value.doublesOfMembers, List.mem_append, or_imp, forall_and] at back
    simp only [Value.nesting, Value.nestingOfMembers] at deep
    by_cases vacant : stack.length < room
    · rw [run_object_first room stack due vacant]
      by_cases fits : stack.length + 1 + value.nesting ≤ room
      · rw [run_printed room (.members [] key :: stack) wellFormed.2.1 back.1 .value fits
          (follow_membersText members rest)]
        exact run_membersText_tooDeep members wellFormed.2.2 back.2 [] key value wellFormed.1 stack
          vacant (by omega) rest
      · exact run_printed_tooDeep value wellFormed.2.1 back.1 .value (.members [] key :: stack)
          vacant (Nat.not_le.mp fits) _
    · simp only [text]
      rw [encode_ascii (by decide)]
      exact run_full_object room stack due vacant _

private theorem run_itemsText_tooDeep : ∀ (items : List Value), Value.ItemsWellFormed items →
    (∀ d ∈ Value.doublesOfItems items, d.ReadsBack) → ∀ (item : Value) (before : List Value)
    (stack : List Frame), stack.length + 1 ≤ room →
    room < stack.length + 1 + Value.nestingOfItems items → ∀ (rest : Bytes),
    TooDeep (run room ⟨.behind item, .items before :: stack⟩
      (Utf8.encode (itemsText items) ++ rest))
  | [], _, _, _, _, _, vacant, deep, _ => by
    simp only [Value.nestingOfItems] at deep
    omega
  | next :: items, wellFormed, back, item, before, stack, vacant, deep, rest => by
    simp only [Value.ItemsWellFormed] at wellFormed
    simp only [Value.doublesOfItems, List.mem_append, or_imp, forall_and] at back
    simp only [Value.nestingOfItems] at deep
    rw [run_itemsText_next]
    by_cases fits : stack.length + 1 + next.nesting ≤ room
    · rw [run_printed room (.items (item :: before) :: stack) wellFormed.1 back.1 .nextItem
        fits (follow_itemsText items rest)]
      exact run_itemsText_tooDeep items wellFormed.2 back.2 next (item :: before) stack vacant
        (by omega) rest
    · exact run_printed_tooDeep next wellFormed.1 back.1 .nextItem
        (.items (item :: before) :: stack) vacant (Nat.not_le.mp fits) _

private theorem run_membersText_tooDeep : ∀ (members : List (String × Value)),
    Value.MembersWellFormed members → (∀ d ∈ Value.doublesOfMembers members, d.ReadsBack) →
    ∀ (before : Members) (key : String) (value : Value),
    Members.Ordered (before ++ (key, value) :: members) → ∀ (stack : List Frame),
    stack.length + 1 ≤ room → room < stack.length + 1 + Value.nestingOfMembers members →
    ∀ (rest : Bytes),
    TooDeep (run room ⟨.behind value, .members before key :: stack⟩
      (Utf8.encode (membersText members) ++ rest))
  | [], _, _, _, _, _, _, _, vacant, deep, _ => by
    simp only [Value.nestingOfMembers] at deep
    omega
  | (next, nextValue) :: members, wellFormed, back, before, key, value, ordered, stack, vacant,
      deep, rest => by
    simp only [Value.MembersWellFormed] at wellFormed
    simp only [Value.doublesOfMembers, List.mem_append, or_imp, forall_and] at back
    simp only [Value.nestingOfMembers] at deep
    have regroup : before ++ (key, value) :: (next, nextValue) :: members =
        (before ++ [(key, value)]) ++ (next, nextValue) :: members := by simp
    rw [run_membersText_next room stack ordered]
    by_cases fits : stack.length + 1 + nextValue.nesting ≤ room
    · rw [run_printed room (.members (before ++ [(key, value)]) next :: stack) wellFormed.1 back.1
        .value fits (follow_membersText members rest)]
      exact run_membersText_tooDeep members wellFormed.2 back.2 (before ++ [(key, value)]) next
        nextValue (regroup ▸ ordered) stack vacant (by omega) rest
    · exact run_printed_tooDeep nextValue wellFormed.1 back.1 .value
        (.members (before ++ [(key, value)]) next :: stack) vacant (Nat.not_le.mp fits) _

end

end Machine

/-! ## Whole texts -/

theorem decode_encode_reread {value : Value} (wellFormed : value.WellFormed)
    (fits : value.nesting ≤ maxOpen) :
    decode (encode value) = .ok (value.mapDoubles Double.reread) := by
  have read : readValue 0 (encode value) = .ok (value.mapDoubles Double.reread, []) := by
    have printed := Machine.run_reread maxOpen value wellFormed .value [] (by simpa) .nothing
    rw [List.append_nil] at printed
    exact printed
  rw [decode, read]
  rfl

theorem decode_encode {value : Value} (wellFormed : value.WellFormed)
    (back : ∀ d ∈ value.doubles, d.ReadsBack) (fits : value.nesting ≤ maxOpen) :
    decode (encode value) = .ok value := by
  rw [decode_encode_reread wellFormed fits,
    Value.mapDoubles_eq_self fun d inside => (back d inside).reread]

theorem decode_encode_tooDeep {value : Value} (wellFormed : value.WellFormed)
    (back : ∀ d ∈ value.doubles, d.ReadsBack) (deep : maxOpen < value.nesting) :
    ∃ rest, decode (encode value) = .error ⟨.tooDeep, rest⟩ := by
  have ⟨rest, stopped⟩ := Machine.run_printed_tooDeep maxOpen value wellFormed back .value []
    (Nat.zero_le _) (by simpa) []
  rw [List.append_nil] at stopped
  have read : readValue 0 (encode value) = .error ⟨.tooDeep, rest⟩ := stopped
  exact ⟨rest, by rw [decode, read]; rfl⟩

end Airlock.Json
