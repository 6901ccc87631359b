import Airlock.Json.Printer
import Airlock.Json.Reader
import Airlock.Proofs.Text.Utf8

/-!
# Numbers written and read back

The reader looks at the byte behind a number before it takes the number to be complete. A printed
number is therefore told apart by the scan it ends in, and the byte behind a printed value ends every
scan that may end.
-/

set_option autoImplicit false

namespace Airlock.Json

theorem encode_ascii {c : Char} (ascii : c.toNat < 0x80) (text : List Char) :
    Text.Utf8.encode (c :: text) = byte c :: Text.Utf8.encode text := by
  have single : UInt8.ofNat c.toNat = byte c := rfl
  simp [Text.Utf8.encode, Text.Utf8.utf8EncodeChar_ascii ascii, single]

/-! ## Scans over bytes -/

namespace NumberScan

/-- The scan that the first byte of a number begins. -/
def begin? (b : UInt8) : Option NumberScan :=
  if b = byte '-' then some .sign
  else if isDigitByte b then some (.ofDigit false b)
  else none

/-- The scan behind bytes that all belong to the number. -/
def over? (scan : NumberScan) : Bytes → Option NumberScan
  | [] => some scan
  | b :: rest =>
    match scan.step b with
    | .more next => over? next rest
    | .ends | .fails _ => none

theorem over?_append {scan middle : NumberScan} {bytes : Bytes}
    (taken : scan.over? bytes = some middle) (rest : Bytes) :
    scan.over? (bytes ++ rest) = middle.over? rest := by
  induction bytes generalizing scan with
  | nil =>
    cases taken
    rfl
  | cons b bytes ih =>
    simp only [over?] at taken
    simp only [List.cons_append, over?]
    cases next : scan.step b with
    | more next' =>
      simp only [next] at taken
      exact ih taken
    | ends => simp [next] at taken
    | fails cause => simp [next] at taken

end NumberScan

def Spells (n : Number) : Bytes → Prop
  | [] => False
  | b :: rest => ∃ first last, NumberScan.begin? b = some first ∧ first.over? rest = some last ∧
      last.finish = .ok n

/-- What may stand behind a printed value: nothing, a comma or a closing bracket. -/
inductive Follow : Bytes → Prop where
  | nothing : Follow []
  | delimiter {b : UInt8} {rest : Bytes} :
      b ∈ [byte ',', byte ']', byte '\x7d'] → Follow (b :: rest)

namespace NumberScan

private theorem stepOpen_delimiter {b : UInt8} (delimiter : b ∈ [byte ',', byte ']', byte '\x7d'])
    (onDigit onPoint : NumberStep) (onMark : NumberScan) :
    stepOpen b onDigit onPoint onMark = .ends := by
  simp only [List.mem_cons, List.not_mem_nil, or_false] at delimiter
  obtain rfl | rfl | rfl := delimiter <;> rfl

private theorem step_delimiter {scan : NumberScan} {n : Number} (complete : scan.finish = .ok n)
    {b : UInt8}
    (delimiter : b ∈ [byte ',', byte ']', byte '\x7d']) : scan.step b = .ends := by
  have notDigit : isDigitByte b = false := by
    simp only [List.mem_cons, List.not_mem_nil, or_false] at delimiter
    obtain rfl | rfl | rfl := delimiter <;> rfl
  cases scan with
  | sign | point | mark | markSign => simp [finish] at complete
  | zero | integer | long | fraction | fractionRest => exact stepOpen_delimiter delimiter ..
  | power | powerRest => simp [step, notDigit]

end NumberScan

namespace Machine

/-- A mode in which a value may begin. -/
inductive ValueDue : Mode → Prop where
  | value : ValueDue .value
  | firstItem : ValueDue .firstItem
  | nextItem : ValueDue .nextItem

theorem step_valueDue {mode : Mode} (due : ValueDue mode) (room : Nat) (stack : List Frame)
    {b : UInt8} (notBlank : isBlankByte b = false) (notBracket : b ≠ byte ']') (rest : Bytes) :
    step room ⟨mode, stack⟩ b rest = beginValue room stack b rest := by
  cases due with
  | value => simp [step, notBlank]
  | firstItem => simp [step, notBlank, notBracket]
  | nextItem => simp [step, notBlank, notBracket]

private theorem beginValue_number {b : UInt8} {first : NumberScan}
    (begins : NumberScan.begin? b = some first) (room : Nat) (stack : List Frame) (rest : Bytes) :
    beginValue room stack b rest = .ok (.more ⟨.number first, stack⟩) := by
  unfold NumberScan.begin? at begins
  unfold beginValue
  split at begins
  case isTrue minus =>
    subst minus
    cases begins
    rfl
  case isFalse notMinus =>
    split at begins
    case isTrue digit =>
      have notQuote : b ≠ byte '"' := by
        intro same
        subst same
        exact absurd digit (by decide)
      cases begins
      simp [notQuote, notMinus, digit]
    case isFalse => cases begins

private theorem begin?_visible {b : UInt8} {first : NumberScan}
    (begins : NumberScan.begin? b = some first) : isBlankByte b = false ∧ b ≠ byte ']' := by
  constructor
  · cases blank : isBlankByte b with
    | false => rfl
    | true =>
      simp only [isBlankByte, Bool.or_eq_true, decide_eq_true_eq] at blank
      obtain ((rfl | rfl) | rfl) | rfl := blank <;> cases begins
  · intro same
    subst same
    cases begins

private theorem run_number {scan last : NumberScan} {bytes : Bytes}
    (taken : scan.over? bytes = some last)
    (room : Nat) (stack : List Frame) (rest : Bytes) :
    run room ⟨.number scan, stack⟩ (bytes ++ rest) = run room ⟨.number last, stack⟩ rest := by
  induction bytes generalizing scan with
  | nil =>
    cases taken
    rfl
  | cons b bytes ih =>
    simp only [NumberScan.over?] at taken
    rw [List.cons_append, run]
    cases next : scan.step b with
    | more next' =>
      simp only [next] at taken
      simp only [step, next]
      exact ih taken
    | ends => simp [next] at taken
    | fails cause => simp [next] at taken

private theorem run_number_end {last : NumberScan} {n : Number} (complete : last.finish = .ok n)
    (room : Nat) (stack : List Frame) {rest : Bytes} (follow : Follow rest) :
    run room ⟨.number last, stack⟩ rest = run room ⟨.behind (.number n), stack⟩ rest := by
  cases follow with
  | nothing => simp [run, finish, complete]
  | delimiter delimiter =>
    rw [run, run]
    simp [step, NumberScan.step_delimiter complete delimiter, complete]

/-- Where a value is due, the bytes of a number are taken as the number. -/
theorem run_spells {n : Number} {bytes : Bytes} (spells : Spells n bytes) {mode : Mode}
    (due : ValueDue mode) (room : Nat) (stack : List Frame) {rest : Bytes} (follow : Follow rest) :
    run room ⟨mode, stack⟩ (bytes ++ rest) = run room ⟨.behind (.number n), stack⟩ rest := by
  cases bytes with
  | nil => cases spells
  | cons b bytes =>
    obtain ⟨first, last, begins, taken, complete⟩ := spells
    have visible := begin?_visible begins
    rw [List.cons_append, run, step_valueDue due room stack visible.1 visible.2,
      beginValue_number begins]
    exact (run_number taken room stack rest).trans (run_number_end complete room stack follow)

end Machine

/-! ## Integers -/

private theorem digit_step : ∀ d < 10,
    String.utf8EncodeChar (Nat.digitChar d) = [byte (Nat.digitChar d)] ∧
      isDigitByte (byte (Nat.digitChar d)) = true ∧ digitOf (byte (Nat.digitChar d)) = d := by
  decide

private theorem digit_nonzero : ∀ d < 10, 0 < d → byte (Nat.digitChar d) ≠ byte '0' := by
  decide

private theorem encode_toDigits {n : Nat} (large : 10 ≤ n) :
    Text.Utf8.encode (Nat.toDigits 10 n) =
      Text.Utf8.encode (Nat.toDigits 10 (n / 10)) ++ [byte (Nat.digitChar (n % 10))] := by
  rw [Nat.toDigits_of_base_le (by decide) large]
  simp [Text.Utf8.encode, (digit_step (n % 10) (by omega)).1]

/-- The digits of a natural number, none of them a leading zero, are gathered into it. -/
theorem over?_toDigits (negative : Bool) {n : Nat} (positive : 0 < n)
    (fits : n < significandLimit) :
    ∃ b rest, Text.Utf8.encode (Nat.toDigits 10 n) = b :: rest ∧ isDigitByte b = true ∧
      (NumberScan.ofDigit negative b).over? rest = some (.integer negative n) := by
  induction n using Nat.strongRecOn with
  | _ n ih =>
    by_cases small : n < 10
    · obtain ⟨encoded, digit, value⟩ := digit_step n small
      refine ⟨byte (Nat.digitChar n), [], ?_, digit, ?_⟩
      · simp [Nat.toDigits_of_lt_base small, Text.Utf8.encode, encoded]
      · simp [NumberScan.ofDigit, digit_nonzero n small positive, value, NumberScan.over?]
    · obtain ⟨b, rest, encoded, digit, taken⟩ := ih (n / 10) (by omega) (by omega) (by omega)
      refine ⟨b, rest ++ [byte (Nat.digitChar (n % 10))], ?_, digit, ?_⟩
      · rw [encode_toDigits (by omega), encoded, List.cons_append]
      · obtain ⟨_, lastDigit, value⟩ := digit_step (n % 10) (by omega)
        have whole : n / 10 * 10 + n % 10 = n := by omega
        rw [NumberScan.over?_append taken]
        simp [NumberScan.over?, NumberScan.step, NumberScan.stepOpen, lastDigit,
          NumberScan.widen?, value, whole, fits]

private theorem ofInt?_val (n : Integer) : Integer.ofInt? n.val = some n :=
  dif_pos n.inRange

theorem spells_integer (n : Integer) :
    Spells (.integer n) (Text.Utf8.encode n.text) := by
  have ⟨low, high⟩ := n.inRange
  have held := ofInt?_val n
  have fits : n.val.natAbs < 0x10000000000000000 := by omega
  by_cases negative : n.val < 0
  · obtain ⟨b, rest, encoded, digit, taken⟩ :=
      @over?_toDigits true n.val.natAbs (by omega) fits
    have bytes : Text.Utf8.encode n.text = byte '-' :: b :: rest := by
      rw [Integer.text, if_pos negative]
      exact congrArg (byte '-' :: ·) encoded
    have size : -(n.val.natAbs : Int) = n.val := by omega
    rw [bytes]
    refine ⟨.sign, .integer true n.val.natAbs, rfl, ?_, ?_⟩
    · simp only [NumberScan.over?, NumberScan.step, digit, if_true]
      exact taken
    · simp only [NumberScan.finish, NumberScan.ofSignificand, size, held, if_true]
      rw [if_neg (by omega)]
  · by_cases zero : n.val = 0
    · have bytes : Text.Utf8.encode n.text = [byte '0'] := by
        simp [Integer.text, zero]
        rfl
      rw [zero] at held
      rw [bytes]
      exact ⟨.zero false, .zero false, rfl, rfl, by
        simp [NumberScan.finish, NumberScan.ofSignificand, held]⟩
    · obtain ⟨b, rest, encoded, digit, taken⟩ :=
        @over?_toDigits false n.val.natAbs (by omega) fits
      have notMinus : b ≠ byte '-' := by
        intro same
        subst same
        cases digit
      have size : (n.val.natAbs : Int) = n.val := by omega
      rw [Integer.text, if_neg negative, encoded]
      refine ⟨.ofDigit false b, _, ?_, taken, ?_⟩
      · simp [NumberScan.begin?, notMinus, digit]
      · simp [NumberScan.finish, NumberScan.ofSignificand, size, held]

/-! ## Doubles -/

def NumberByte (b : UInt8) : Prop :=
  isDigitByte b = true ∨ b ∈ [byte '-', byte '+', byte '.', byte 'e']

private theorem numberByte_visible {b : UInt8} (inside : NumberByte b) : isBlankByte b = false := by
  obtain digit | mark := inside
  · cases blank : isBlankByte b with
    | false => rfl
    | true =>
      simp only [isBlankByte, Bool.or_eq_true, decide_eq_true_eq] at blank
      obtain ((rfl | rfl) | rfl) | rfl := blank <;> cases digit
  · simp only [List.mem_cons, List.not_mem_nil, or_false] at mark
    obtain rfl | rfl | rfl | rfl := mark <;> rfl

private theorem expectEnd_numberByte {b : UInt8} (inside : NumberByte b) (rest : Bytes) :
    expectEnd (b :: rest) = .error ⟨.trailingCharacters, rest⟩ := by
  simp [expectEnd, numberByte_visible inside]

private theorem over?_of_run {scan : NumberScan} {bytes rest : Bytes} {value : Value} {room : Nat}
    (numeric : ∀ b ∈ bytes, NumberByte b)
    (read : Machine.run room ⟨.number scan, []⟩ bytes = .ok (value, rest))
    (ended : expectEnd rest = .ok ()) :
    ∃ last n, scan.over? bytes = some last ∧ last.finish = .ok n ∧ value = .number n := by
  induction bytes generalizing scan with
  | nil =>
    simp only [Machine.run, Machine.finish] at read
    cases complete : scan.finish with
    | error cause => simp [complete] at read
    | ok n =>
      simp only [complete, Machine.endBehindValue, Except.ok.injEq, Prod.mk.injEq] at read
      exact ⟨scan, n, rfl, complete, read.1.symm⟩
  | cons b bytes ih =>
    have others : ∀ b ∈ bytes, NumberByte b :=
      fun b inside => numeric b (List.mem_cons_of_mem _ inside)
    simp only [Machine.run, Machine.step] at read
    cases next : scan.step b with
    | more next' =>
      simp only [next] at read
      obtain ⟨last, n, taken, complete, same⟩ := ih others read
      exact ⟨last, n, by simp [NumberScan.over?, next, taken], complete, same⟩
    | fails cause => simp [next] at read
    | ends =>
      -- The number would be complete in front of a byte that nothing but a number has.
      cases complete : scan.finish with
      | error cause => simp [next, complete] at read
      | ok n =>
        simp only [next, complete, Machine.behindValue, Except.ok.injEq, Prod.mk.injEq] at read
        rw [← read.2, expectEnd_numberByte (numeric b List.mem_cons_self)] at ended
        cases ended

theorem spells_of_decode {n : Number} {bytes : Bytes} (numeric : ∀ b ∈ bytes, NumberByte b)
    (read : decode bytes = .ok (.number n)) : Spells n bytes := by
  cases bytes with
  | nil => cases read
  | cons b bytes =>
    have others : ∀ b ∈ bytes, NumberByte b :=
      fun b inside => numeric b (List.mem_cons_of_mem _ inside)
    have visible := numberByte_visible (numeric b List.mem_cons_self)
    cases begins : NumberScan.begin? b with
    | none =>
      -- A plus sign, a point or an exponent mark begins no value.
      have mark : b ∈ [byte '+', byte '.', byte 'e'] := by
        have inside := numeric b List.mem_cons_self
        unfold NumberScan.begin? at begins
        unfold NumberByte at inside
        split at begins
        · cases begins
        · split at begins
          · cases begins
          · simpa [*] using inside
      simp only [List.mem_cons, List.not_mem_nil, or_false] at mark
      obtain rfl | rfl | rfl := mark <;> cases read
    | some first =>
      simp only [decode, readValue, Machine.start, Machine.run,
        Machine.step_valueDue .value _ _ visible (Machine.begin?_visible begins).2,
        Machine.beginValue_number begins] at read
      cases whole : Machine.run (maxOpen - 0) ⟨.number first, []⟩ bytes with
      | error fault =>
        rw [whole] at read
        cases read
      | ok taken =>
        obtain ⟨value, rest⟩ := taken
        simp only [whole, bind, Except.bind, pure, Except.pure] at read
        cases ended : expectEnd rest with
        | error fault =>
          rw [ended] at read
          cases read
        | ok _ =>
          rw [ended] at read
          obtain ⟨last, n', taken, complete, same⟩ := over?_of_run others whole ended
          cases read
          cases same
          exact ⟨first, last, begins, taken, complete⟩

end Airlock.Json

namespace Airlock.Double

def NumberChar (c : Char) : Prop :=
  c.isDigit = true ∨ c ∈ ['-', '+', '.', 'e']

private theorem numberChar_zero : NumberChar '0' :=
  .inl rfl

private theorem numberChar_toDigits {n : Nat} {c : Char} (inside : c ∈ Nat.toDigits 10 n) :
    NumberChar c :=
  .inl (Nat.isDigit_of_mem_toDigits (by decide) (by decide) inside)

private theorem ofLength?_digits {d : Double} {leading : Int} {count : Nat} {decimal : Decimal}
    (found : d.ofLength? leading count = some decimal) : ∀ c ∈ decimal.digits, NumberChar c := by
  simp only [ofLength?, Option.map_eq_some_iff] at found
  obtain ⟨chosen, -, rfl⟩ := found
  intro c inside
  simp only [List.mem_reverse] at inside
  have whole := (List.dropWhile_sublist _).mem inside
  exact numberChar_toDigits (List.mem_reverse.mp whole)

private theorem shortest_digits (d : Double) : ∀ c ∈ d.shortest.digits, NumberChar c := by
  have single : ∀ c ∈ ['0'], NumberChar c := by
    intro c inside
    rw [List.mem_singleton] at inside
    exact inside ▸ numberChar_zero
  unfold shortest
  split
  case isTrue => exact single
  case isFalse =>
    simp only []
    cases found : ((List.range 17).map (· + 1)).findSome?
        (d.ofLength? (leadingExponent d.magnitude)) with
    | none => exact single
    | some decimal =>
      obtain ⟨count, -, chosen⟩ := List.exists_of_findSome?_eq_some found
      exact ofLength?_digits chosen

private theorem Decimal.positional_numberChar {decimal : Decimal}
    (digits : ∀ c ∈ decimal.digits, NumberChar c) : ∀ c ∈ decimal.positional, NumberChar c := by
  have point : NumberChar '.' := .inr (by decide)
  intro c inside
  unfold Decimal.positional at inside
  simp only [] at inside
  split at inside
  case isTrue =>
    simp only [List.mem_cons, List.mem_append, List.mem_replicate] at inside
    obtain rfl | rfl | ⟨-, rfl⟩ | held := inside
    · exact numberChar_zero
    · exact point
    · exact numberChar_zero
    · exact digits c held
  case isFalse =>
    split at inside
    case isTrue =>
      simp only [List.mem_cons, List.mem_append, List.mem_replicate, List.not_mem_nil,
        or_false] at inside
      obtain (held | ⟨-, rfl⟩) | rfl | rfl := inside
      · exact digits c held
      · exact numberChar_zero
      · exact point
      · exact numberChar_zero
    case isFalse =>
      simp only [List.mem_cons, List.mem_append] at inside
      obtain held | rfl | held := inside
      · exact digits c (List.mem_of_mem_take held)
      · exact point
      · exact digits c (List.mem_of_mem_drop held)

private theorem Decimal.scientific_numberChar {decimal : Decimal}
    (digits : ∀ c ∈ decimal.digits, NumberChar c) : ∀ c ∈ decimal.scientific, NumberChar c := by
  intro c inside
  simp only [Decimal.scientific, List.mem_append, List.mem_cons] at inside
  obtain (held | held) | rfl | held | held := inside
  · exact digits c (List.mem_of_mem_take held)
  · split at held
    · cases held
    · obtain rfl | held := List.mem_cons.mp held
      · exact .inr (by decide)
      · exact digits c (List.mem_of_mem_drop held)
  · exact .inr (by decide)
  · split at held
    · exact .inr (by simp [held])
    · exact .inr (by simp [held])
  · exact numberChar_toDigits held

theorem text_numberChar (d : Double) : ∀ c ∈ d.text, NumberChar c := by
  have unsigned : ∀ c ∈ d.shortest.text textStyle, NumberChar c := by
    unfold Decimal.text
    simp only []
    split
    · exact Decimal.positional_numberChar (shortest_digits d)
    · exact Decimal.scientific_numberChar (shortest_digits d)
  unfold text
  simp only []
  split
  · intro c inside
    obtain rfl | held := List.mem_cons.mp inside
    · exact .inr (by decide)
    · exact unsigned c held
  · exact unsigned

private theorem numberByte_of_mem {c : Char} (number : NumberChar c) {b : UInt8}
    (inside : b ∈ String.utf8EncodeChar c) : Json.NumberByte b := by
  obtain digit | mark := number
  · have ⟨low, high⟩ : 48 ≤ c.toNat ∧ c.toNat ≤ 57 := by
      simpa [Char.isDigit, UInt32.le_iff_toNat_le] using digit
    rw [Text.Utf8.utf8EncodeChar_ascii (by omega), List.mem_singleton] at inside
    have size : b.toNat = c.toNat := by
      rw [inside]
      exact UInt8.toNat_ofNat_of_lt' (Nat.lt_of_le_of_lt high (by decide))
    refine .inl ?_
    rw [Json.isDigitByte, Bool.and_eq_true, decide_eq_true_eq, decide_eq_true_eq,
      UInt8.le_iff_toNat_le, UInt8.le_iff_toNat_le, size]
    exact ⟨low, high⟩
  · simp only [List.mem_cons, List.not_mem_nil, or_false] at mark
    obtain rfl | rfl | rfl | rfl := mark
    all_goals
      rw [Text.Utf8.utf8EncodeChar_ascii (by decide), List.mem_singleton] at inside
      subst inside
      exact .inr (by decide)

theorem text_numberBytes (d : Double) : ∀ b ∈ Text.Utf8.encode d.text, Json.NumberByte b := by
  intro b inside
  obtain ⟨c, held, byte⟩ := List.mem_flatMap.mp inside
  exact numberByte_of_mem (text_numberChar d c held) byte

/-- The text of the double is read as the double. -/
def ReadsBack (d : Double) : Prop :=
  Json.decode (Text.Utf8.encode d.text) = .ok (.number (.double d))

end Airlock.Double
