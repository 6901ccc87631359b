import Airlock.Proofs.Json.Surplus
import Airlock.Proofs.Json.Within

/-!
# JSON texts cut short

Whatever its members, its doubles and its nesting, a printed value is refused or taken exactly up to
its end. Inside an object no number is at the top, so a text that is read as an object is read the
same with any text behind it. An object that was read from a part of its printed text would then be
read with the rest left over.
-/

set_option autoImplicit false

namespace Airlock.Json

open Text (Utf8.encode Utf8.encode_append)

namespace Machine

variable (room : Nat)

/-! ## Printed values up to their end -/

/-- The reading fails, or it goes on behind some value at `rest`. -/
def FailsOrTakes (stack : List Frame) (rest : Bytes) (outcome : Except Fault (Value × Bytes)) :
    Prop :=
  (∃ fault, outcome = .error fault) ∨
    ∃ value, outcome = run room ⟨.behind value, stack⟩ rest

private theorem TooDeep.fails {outcome : Except Fault (Value × Bytes)} (deep : TooDeep outcome)
    (stack : List Frame) (rest : Bytes) : FailsOrTakes room stack rest outcome :=
  .inl ⟨_, deep.choose_spec⟩

mutual

private theorem run_printed_takes : ∀ (value : Value) {mode : Mode}, ValueDue mode →
    ∀ (stack : List Frame) {rest : Bytes}, Follow rest →
    FailsOrTakes room stack rest (run room ⟨mode, stack⟩ (Utf8.encode (text value) ++ rest))
  | .null, _, due, stack, rest, _ => .inr ⟨_, run_null room stack due rest⟩
  | .bool b, _, due, stack, rest, _ => .inr ⟨_, run_bool room stack due b rest⟩
  | .number (.integer n), _, due, stack, _, follow =>
    .inr ⟨_, run_spells (spells_integer n) due room stack follow⟩
  | .number (.double d), _, due, stack, _, follow =>
    .inr ⟨_, run_spells d.spells_text due room stack follow⟩
  | .string s, _, due, stack, rest, _ => .inr ⟨_, run_string room stack due s rest⟩
  | .array [], mode, due, stack, rest, _ => by
    simp only [text]
    rw [encode_ascii (by decide), List.cons_append]
    by_cases vacant : stack.length < room
    · rw [run_open_array room stack due vacant]
      exact .inr ⟨.array [], rfl⟩
    · exact (run_full_array room stack due vacant _).fails room stack rest
  | .array (item :: items), mode, due, stack, rest, _ => by
    by_cases vacant : stack.length < room
    · rw [run_array_first room stack due vacant]
      obtain ⟨fault, fails⟩ | ⟨taken, goesOn⟩ :=
        run_printed_takes item .firstItem (.items [] :: stack) (follow_itemsText items rest)
      · exact .inl ⟨fault, fails⟩
      · rw [goesOn]
        exact run_itemsText_takes items taken [] stack rest
    · simp only [text]
      rw [encode_ascii (by decide)]
      exact (run_full_array room stack due vacant _).fails room stack rest
  | .object [], mode, due, stack, rest, _ => by
    simp only [text]
    rw [encode_ascii (by decide), List.cons_append]
    by_cases vacant : stack.length < room
    · rw [run_open_object room stack due vacant]
      exact .inr ⟨.object [], rfl⟩
    · exact (run_full_object room stack due vacant _).fails room stack rest
  | .object ((key, value) :: members), mode, due, stack, rest, _ => by
    by_cases vacant : stack.length < room
    · rw [run_object_first room stack due vacant]
      obtain ⟨fault, fails⟩ | ⟨taken, goesOn⟩ := run_printed_takes value .value
        (.members [] key :: stack) (follow_membersText members rest)
      · exact .inl ⟨fault, fails⟩
      · rw [goesOn]
        exact run_membersText_takes members [] key taken stack rest
    · simp only [text]
      rw [encode_ascii (by decide)]
      exact (run_full_object room stack due vacant _).fails room stack rest

private theorem run_itemsText_takes : ∀ (items : List Value) (item : Value) (before : List Value)
    (stack : List Frame) (rest : Bytes),
    FailsOrTakes room stack rest (run room ⟨.behind item, .items before :: stack⟩
      (Utf8.encode (itemsText items) ++ rest))
  | [], item, before, stack, rest => by
    simp only [itemsText]
    rw [encode_ascii (by decide), List.cons_append, run_close_items]
    exact .inr ⟨_, rfl⟩
  | next :: items, item, before, stack, rest => by
    rw [run_itemsText_next]
    obtain ⟨fault, fails⟩ | ⟨taken, goesOn⟩ := run_printed_takes next .nextItem
      (.items (item :: before) :: stack) (follow_itemsText items rest)
    · exact .inl ⟨fault, fails⟩
    · rw [goesOn]
      exact run_itemsText_takes items taken (item :: before) stack rest

private theorem run_membersText_takes : ∀ (members : List (String × Value)) (before : Members)
    (key : String) (value : Value) (stack : List Frame) (rest : Bytes),
    FailsOrTakes room stack rest (run room ⟨.behind value, .members before key :: stack⟩
      (Utf8.encode (membersText members) ++ rest))
  | [], before, key, value, stack, rest => by
    simp only [membersText]
    rw [encode_ascii (by decide), List.cons_append, run_close_members]
    exact .inr ⟨_, rfl⟩
  | (next, nextValue) :: members, before, key, value, stack, rest => by
    rw [run_membersText_insert]
    obtain ⟨fault, fails⟩ | ⟨taken, goesOn⟩ := run_printed_takes nextValue .value
      (.members (before.insert key value) next :: stack) (follow_membersText members rest)
    · exact .inl ⟨fault, fails⟩
    · rw [goesOn]
      exact run_membersText_takes members (before.insert key value) next taken stack rest

end

/-! ## Inside an object -/

/-- Where a value is due or a number is being read, some container is open. -/
inductive Enclosed : Machine → Prop where
  | within {mode : Mode} {frame : Frame} {outer : List Frame} : Enclosed ⟨mode, frame :: outer⟩
  | firstKey {stack : List Frame} : Enclosed ⟨.firstKey, stack⟩
  | nextKey {before : Members} {stack : List Frame} : Enclosed ⟨.nextKey before, stack⟩
  | key {before : Members} {scan : TextScan} {stack : List Frame} :
      Enclosed ⟨.key before scan, stack⟩
  | colon {before : Members} {key : String} {stack : List Frame} :
      Enclosed ⟨.colon before key, stack⟩
  | behind {value : Value} {stack : List Frame} : Enclosed ⟨.behind value, stack⟩

/-- A step that is taken leads to an enclosed machine or to the end. -/
def StaysEnclosed (outcome : Except Fault Step) : Prop :=
  ∀ next, outcome = .ok (.more next) → next.Enclosed

namespace StaysEnclosed

private theorem more {machine : Machine} (enclosed : machine.Enclosed) :
    StaysEnclosed (.ok (.more machine)) := by
  rintro _ ⟨⟩
  exact enclosed

private theorem complete {value : Value} : StaysEnclosed (.ok (.complete value)) :=
  nofun

private theorem error {fault : Fault} : StaysEnclosed (.error fault) :=
  nofun

private theorem ite {condition : Prop} [Decidable condition] {first second : Except Fault Step}
    (holds : StaysEnclosed first) (fails : StaysEnclosed second) :
    StaysEnclosed (if condition then first else second) := by
  by_cases decided : condition
  · simpa only [decided, if_true] using holds
  · simpa only [decided, if_false] using fails

end StaysEnclosed

section

variable (b : UInt8) (rest : Bytes) {frame : Frame} {outer : List Frame}

private theorem beginValue_enclosed : StaysEnclosed (beginValue room (frame :: outer) b rest) := by
  unfold beginValue openContainer
  repeat' apply StaysEnclosed.ite
  all_goals first
    | exact .error
    | exact .more .within

private theorem behindValue_enclosed (value : Value) (stack : List Frame) :
    StaysEnclosed (behindValue value stack b rest) := by
  match stack with
  | [] => exact .complete
  | .items before :: outer =>
    exact .ite (.more .behind) (.ite (.more .within) (.ite (.more .behind) .error))
  | .members before key :: outer =>
    exact .ite (.more .behind) (.ite (.more .nextKey) (.ite (.more .behind) .error))

private theorem step_within (mode : Mode) :
    StaysEnclosed (step room ⟨mode, frame :: outer⟩ b rest) := by
  have begins : StaysEnclosed (beginValue room (frame :: outer) b rest) :=
    beginValue_enclosed room b rest
  cases mode with
  | value => exact .ite (.more .within) begins
  | firstItem => exact .ite (.more .within) (.ite (.more .behind) begins)
  | nextItem => exact .ite (.more .within) (.ite .error begins)
  | firstKey =>
    exact .ite (.more .within) (.ite (.more .behind) (.ite (.more .key) .error))
  | nextKey before => exact .ite (.more .within) (.ite (.more .key) (.ite .error .error))
  | key before scan | text scan =>
    simp only [step]
    cases scan.step b rest with
    | error fault => exact .error
    | ok taken => cases taken <;> exact .more .within
  | colon before key => exact .ite (.more .within) (.ite (.more .within) .error)
  | number scan =>
    simp only [step]
    cases scan.step b with
    | more next => exact .more .within
    | fails cause => exact .error
    | ends =>
      dsimp only
      cases scan.finish with
      | ok number => exact behindValue_enclosed b rest _ _
      | error cause => exact .error
  | word due meant =>
    cases due with
    | nil => exact behindValue_enclosed b rest _ _
    | cons next others =>
      cases others
      all_goals exact .ite (.more .within) .error
  | behind value => exact behindValue_enclosed b rest value _

private theorem step_enclosed {machine : Machine} (enclosed : machine.Enclosed) :
    StaysEnclosed (machine.step room b rest) := by
  cases enclosed with
  | within => exact step_within room b rest _
  | firstKey => exact .ite (.more .firstKey) (.ite (.more .behind) (.ite (.more .key) .error))
  | nextKey => exact .ite (.more .nextKey) (.ite (.more .key) (.ite .error .error))
  | @key before scan stack =>
    simp only [step]
    cases scan.step b rest with
    | error fault => exact .error
    | ok taken =>
      cases taken with
      | more next => exact .more .key
      | done key => exact .more .colon
  | colon => exact .ite (.more .colon) (.ite (.more .within) .error)
  | behind => exact behindValue_enclosed b rest _ _

end

variable (extra : Bytes)

/-- An enclosed number is not the whole text. -/
theorem run_nil_enclosed {machine : Machine} (enclosed : machine.Enclosed) {value : Value}
    {rest : Bytes} (read : machine.run room [] = .ok (value, rest)) (scan : NumberScan) :
    machine.mode ≠ .number scan := by
  cases enclosed with
  | @within mode frame outer =>
    rintro rfl
    have ended : finish ⟨.number scan, frame :: outer⟩ = .ok value := by
      simp only [run] at read
      cases finished : finish ⟨.number scan, frame :: outer⟩ with
      | ok found =>
        rw [finished] at read
        cases read
        rfl
      | error cause =>
        rw [finished] at read
        cases read
    simp only [finish] at ended
    cases found : scan.finish with
    | ok number =>
      rw [found] at ended
      cases frame <;> cases ended
    | error cause =>
      rw [found] at ended
      cases ended
  | firstKey | nextKey | key | colon | behind => rintro ⟨⟩

/-- Text that is read from inside an object is read the same with more text behind it. -/
theorem run_append_enclosed {bytes rest : Bytes} {value : Value} {machine : Machine}
    (enclosed : machine.Enclosed) (read : machine.run room bytes = .ok (value, rest)) :
    (machine.append extra).run room (bytes ++ extra) = .ok (value, rest ++ extra) := by
  induction bytes generalizing machine with
  | nil => exact run_nil_append extra room (run_nil_enclosed room enclosed read) read
  | cons b bytes ih =>
    have agrees := step_append extra room b bytes machine
    rw [List.cons_append, run]
    rw [run] at read
    cases stepped : machine.step room b bytes with
    | error fault => simp [stepped] at read
    | ok found =>
      rw [agrees found stepped]
      simp only [stepped] at read
      cases found with
      | complete value =>
        cases read
        rfl
      | more next => exact ih (step_enclosed room b bytes enclosed next stepped) read

end Machine

/-! ## Whole texts -/

/-- A printed value is refused, or nothing of its text is left over. -/
theorem readValue_encode_all {value found : Value} {rest : Bytes}
    (read : readValue 0 (encode value) = .ok (found, rest)) : rest = [] := by
  have printed := Machine.run_printed_takes maxOpen value .value [] .nothing
  rw [List.append_nil] at printed
  have begun : readValue 0 (encode value) =
      Machine.run maxOpen ⟨.value, []⟩ (Utf8.encode (text value)) := rfl
  rw [← begun, read] at printed
  obtain ⟨fault, fails⟩ | ⟨taken, goesOn⟩ := printed
  · cases fails
  · cases goesOn
    rfl

private theorem readValue_object_append {bytes rest : Bytes} {found : Value} (extra : Bytes)
    (read : readValue 0 (byte '\x7b' :: bytes) = .ok (found, rest)) :
    readValue 0 (byte '\x7b' :: (bytes ++ extra)) = .ok (found, rest ++ extra) :=
  Machine.run_append_enclosed maxOpen extra .firstKey read

private theorem encode_object_brace (members : Members) :
    ∃ behind, encode (.object members) = byte '\x7b' :: behind := by
  cases members with
  | nil => exact ⟨_, rfl⟩
  | cons member members =>
    rw [encode]
    simp only [text]
    exact ⟨_, encode_ascii (by decide) _⟩

/-- No printed object is read from a part of its text. -/
theorem decode_truncated {members : Members} {part missing : Bytes} (cut : missing ≠ [])
    (whole : part ++ missing = encode (.object members)) : ∃ fault, decode part = .error fault := by
  cases read : decode part with
  | error fault => exact ⟨fault, rfl⟩
  | ok found =>
    obtain ⟨⟨value, rest⟩, began, -⟩ := ok_of_bind read
    exfalso
    obtain ⟨behind, brace⟩ := encode_object_brace members
    cases part with
    | nil => cases began
    | cons b part =>
      rw [brace, List.cons_append] at whole
      obtain ⟨rfl, rfl⟩ := List.cons.inj whole
      have longer := readValue_object_append missing began
      rw [← brace] at longer
      exact cut (List.append_eq_nil_iff.mp (readValue_encode_all longer)).2

end Airlock.Json
