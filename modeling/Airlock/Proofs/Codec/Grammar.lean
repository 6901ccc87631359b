import Airlock.Proofs.Codec.Header
import Airlock.Proofs.Codec.Surplus
import Airlock.Proofs.Json.Within

/-!
# The grammar of headers

A header is some lines, each ended by CR LF, and an empty line behind them. The lines are not empty,
hold no CR LF and have a colon each; at least one of them states a length, every one that is named
so does, and the last of these states the length of what comes behind. Stripping accepts exactly
these units. A payload may hold empty lines itself: the first one ends the header.
-/

set_option autoImplicit false

namespace Airlock

/-! ## Numbers as they are spelled -/

namespace Text

/-- The text is a number of 64 bits: decimal digits, with a plus sign in front of them or none. -/
def Spells (text : List Char) (n : Nat) : Prop :=
  ∃ digits, (text = digits ∨ text = '+' :: digits) ∧ digits ≠ [] ∧
    (∀ c ∈ digits, c.isDigit = true) ∧ Nat.ofDigitChars 10 digits 0 = n ∧ n < 0x10000000000000000

private theorem readDigits_ok {limit n m : Nat} {digits : List Char} (fits : n < limit)
    (read : readDigits limit n digits = .ok m) :
    (∀ c ∈ digits, c.isDigit = true) ∧ Nat.ofDigitChars 10 digits n = m ∧ m < limit := by
  induction digits generalizing n with
  | nil =>
    cases read
    exact ⟨List.forall_mem_nil _, rfl, fits⟩
  | cons c digits ih =>
    rw [readDigits] at read
    split at read
    · rename_i digit
      dsimp only at read
      split at read
      · rename_i wider
        obtain ⟨all, value, below⟩ := ih wider read
        refine ⟨List.forall_mem_cons.mpr ⟨digit, all⟩, ?_, below⟩
        rw [Nat.ofDigitChars_cons, ← value, Nat.mul_comm]
        rfl
      · cases read
    · cases read

private theorem readSize_eq_ok_iff {text : List Char} {n : Nat} :
    readSize text = .ok n ↔ Spells text n := by
  constructor
  · intro read
    unfold readSize readNat at read
    split at read
    · cases read
    · cases read
    · rename_i digits some
      obtain ⟨all, value, below⟩ := readDigits_ok (by decide) read
      exact ⟨digits, .inr rfl, fun none => some (by rw [none]), all, value, below⟩
    · rename_i some _ _
      obtain ⟨all, value, below⟩ := readDigits_ok (by decide) read
      exact ⟨text, .inl rfl, some, all, value, below⟩
  · rintro ⟨digits, spelled, some, all, value, below⟩
    have read : readDigits 0x10000000000000000 0 digits = .ok n := by
      rw [readDigits_of_isDigit all (value ▸ below), value]
    obtain ⟨c, rest, rfl⟩ := List.exists_cons_of_ne_nil some
    have notPlus : c ≠ '+' := by
      rintro rfl
      exact absurd (all '+' List.mem_cons_self) (by decide)
    rcases spelled with rfl | rfl
    · unfold readSize readNat
      split <;> simp_all
    · exact read

end Text

namespace Header

/-! ## Lines -/

abbrev lineEnd : List Char :=
  ['\r', '\n']

/-- The line has something in it and goes over no line end. -/
structure Line (line : List Char) : Prop where
  filled : line ≠ []
  whole : ¬ lineEnd <:+: line

/-- A name, a colon, and a value, in which more colons may stand. -/
structure Parts (line name value : List Char) : Prop where
  parted : line = name ++ ':' :: value
  first : ':' ∉ name

/-- The line is one that has to state the length. -/
def Measures (line : List Char) : Prop :=
  ∃ name value, Parts line name value ∧ isLengthName name = true

def States (line : List Char) (length : Nat) : Prop :=
  ∃ name value, Parts line name value ∧ isLengthName name = true ∧
    Text.Spells (Text.trim value) length

/-- The line has a colon, and it states a length if it has to. -/
structure Sound (line : List Char) : Prop where
  colon : ':' ∈ line
  stated : Measures line → ∃ stated, States line stated

/-- The last of the lines that have to state the length states this one. -/
def LastStated (lines : List (List Char)) (length : Nat) : Prop :=
  ∃ before line after, lines = before ++ line :: after ∧ States line length ∧
    ∀ other ∈ after, ¬ Measures other

/-- The lines make up the header of a payload of the given length. -/
structure Heads (lines : List (List Char)) (length : Nat) : Prop where
  each : ∀ line ∈ lines, Line line
  sound : ∀ line ∈ lines, Sound line
  last : LastStated lines length

def unitOf (lines : List (List Char)) (payload : Bytes) : Bytes :=
  Text.Utf8.encode (lineEnd.intercalate lines) ++ 13 :: 10 :: 13 :: 10 :: payload

variable {line rest name value : List Char} {lines : List (List Char)}

private theorem nameAndValue?_eq_some_iff :
    nameAndValue? line = some (name, value) ↔ Parts line name value := by
  unfold nameAndValue?
  constructor
  · intro parted
    split at parted
    · cases parted
    · rename_i c rest found
      cases parted
      have colon : c = ':' := by
        have stops := List.head?_dropWhile_not (fun c => decide (c ≠ ':')) line
        rw [found] at stops
        simpa using stops
      subst colon
      refine ⟨?_, fun inside => ?_⟩
      · rw [← found, List.takeWhile_append_dropWhile]
      · simpa using List.mem_takeWhile_imp inside
  · rintro ⟨rfl, first⟩
    have before : ∀ c ∈ name, decide (c ≠ ':') = true := by
      intro c inside
      exact decide_eq_true fun same => first (same ▸ inside)
    rw [List.dropWhile_append_of_pos before, List.takeWhile_append_of_pos before]
    simp

private theorem parts_of_colon (colon : ':' ∈ line) : ∃ name value, Parts line name value := by
  obtain ⟨name, value, parted, first⟩ := List.eq_append_cons_of_mem colon
  exact ⟨name, value, parted, first⟩

/-! ## The length that lines state -/

private theorem States.measures {length : Nat} (states : States line length) : Measures line := by
  obtain ⟨name, value, parts, named, -⟩ := states
  exact ⟨name, value, parts, named⟩

private theorem States.unique {first second : Nat} (states : States line first)
    (again : States line second) : first = second := by
  obtain ⟨name, value, parts, -, spelled⟩ := states
  obtain ⟨name', value', parts', -, spelled'⟩ := again
  have same := nameAndValue?_eq_some_iff.mpr parts'
  rw [nameAndValue?_eq_some_iff.mpr parts] at same
  cases same
  have read := Text.readSize_eq_ok_iff.mpr spelled'
  rw [Text.readSize_eq_ok_iff.mpr spelled] at read
  exact Except.ok.inj read

private theorem statedLength_states {stated? : Option Nat} {length : Nat}
    (states : States line length) :
    statedLength stated? (line :: lines) = statedLength (some length) lines := by
  obtain ⟨name, value, parts, named, spelled⟩ := states
  simp only [statedLength, nameAndValue?_eq_some_iff.mpr parts, named, if_true,
    Text.readSize_eq_ok_iff.mpr spelled]

private theorem statedLength_aside {stated? : Option Nat} (colon : ':' ∈ line)
    (aside : ¬ Measures line) :
    statedLength stated? (line :: lines) = statedLength stated? lines := by
  obtain ⟨name, value, parts⟩ := parts_of_colon colon
  have unnamed : ¬ isLengthName name = true := fun named => aside ⟨name, value, parts, named⟩
  simp only [statedLength, nameAndValue?_eq_some_iff.mpr parts, if_neg unnamed]

private theorem sound_of_statedLength {stated? result : Option Nat}
    (read : statedLength stated? (line :: lines) = .ok result) : Sound line := by
  rw [statedLength] at read
  split at read
  · cases read
  · rename_i name value found
    have parts := nameAndValue?_eq_some_iff.mp found
    refine ⟨?_, ?_⟩
    · rw [parts.parted]
      simp
    · rintro ⟨other, behind, again, named⟩
      have same := nameAndValue?_eq_some_iff.mpr again
      rw [found] at same
      cases same
      rw [if_pos named] at read
      split at read
      · rename_i length spelled
        exact ⟨length, name, value, parts, named, Text.readSize_eq_ok_iff.mp spelled⟩
      · cases read

private theorem lastStated_cons {length : Nat} :
    LastStated (line :: lines) length ↔ LastStated lines length ∨
      States line length ∧ ∀ other ∈ lines, ¬ Measures other := by
  constructor
  · rintro ⟨_ | ⟨first, before⟩, last, after, split, states, aside⟩
    · cases split
      exact .inr ⟨states, aside⟩
    · cases split
      exact .inl ⟨before, last, after, rfl, states, aside⟩
  · rintro (⟨before, last, after, rfl, states, aside⟩ | ⟨states, aside⟩)
    · exact ⟨line :: before, last, after, rfl, states, aside⟩
    · exact ⟨[], line, lines, rfl, states, aside⟩

private theorem statedLength_eq_ok_some_iff {stated? : Option Nat} {length : Nat} :
    statedLength stated? lines = .ok (some length) ↔ (∀ line ∈ lines, Sound line) ∧
      (LastStated lines length ∨ stated? = some length ∧ ∀ other ∈ lines, ¬ Measures other) := by
  induction lines generalizing stated? with
  | nil =>
    have none : ¬ LastStated [] length := by
      rintro ⟨before, line, after, split, -⟩
      simp at split
    simp [statedLength, none]
  | cons line lines ih =>
    rw [lastStated_cons, List.forall_mem_cons, List.forall_mem_cons]
    by_cases sound : Sound line
    case neg =>
      refine ⟨fun read => absurd (sound_of_statedLength read) sound, ?_⟩
      rintro ⟨⟨here, -⟩, -⟩
      exact absurd here sound
    case pos =>
      by_cases measures : Measures line
      · obtain ⟨stated, states⟩ := sound.stated measures
        have unique : States line length ↔ stated = length :=
          ⟨states.unique, fun same => same ▸ states⟩
        rw [statedLength_states states, ih]
        simp [sound, measures, unique]
      · have unstated : ¬ States line length := fun states => measures states.measures
        rw [statedLength_aside sound.colon measures, ih]
        simp [sound, measures, unstated]

/-! ## Lines parted and joined -/

private theorem whole_of_cons {c : Char} (whole : ¬ lineEnd <:+: c :: line) : ¬ lineEnd <:+: line :=
  fun inside => whole (inside.trans (List.suffix_cons c line).isInfix)

/-- A carriage return in a line is not followed by a line feed, also if it ends the line. -/
theorem not_lineFeed (whole : ¬ lineEnd <:+: '\r' :: line) (rest behind : List Char) :
    line ++ '\r' :: rest ≠ '\n' :: behind := by
  intro same
  cases line with
  | nil => cases same
  | cons c line =>
    cases same
    exact whole ⟨[], line, rfl⟩

private theorem linesFrom_line (taken rest : List Char) (whole : ¬ lineEnd <:+: line) :
    linesFrom taken (line ++ '\r' :: '\n' :: rest) =
      (taken.reverse ++ line) :: linesFrom [] rest := by
  induction line generalizing taken with
  | nil => simp [linesFrom]
  | cons c line ih =>
    rw [List.cons_append, linesFrom]
    · rw [ih (c :: taken) (whole_of_cons whole)]
      simp
    · rintro behind rfl same
      exact not_lineFeed whole _ _ same

private theorem linesFrom_last (taken : List Char) (whole : ¬ lineEnd <:+: line) :
    linesFrom taken line = [taken.reverse ++ line] := by
  induction line generalizing taken with
  | nil => simp [linesFrom]
  | cons c line ih =>
    rw [linesFrom]
    · rw [ih (c :: taken) (whole_of_cons whole)]
      simp
    · rintro behind rfl rfl
      exact whole ⟨[], behind, rfl⟩

/-- Lines that are joined are parted again. -/
theorem linesFrom_intercalate (some : lines ≠ []) (whole : ∀ line ∈ lines, ¬ lineEnd <:+: line) :
    linesFrom [] (lineEnd.intercalate lines) = lines := by
  induction lines with
  | nil => exact absurd rfl some
  | cons line lines ih =>
    rw [List.forall_mem_cons] at whole
    cases lines with
    | nil =>
      rw [List.intercalate_singleton]
      exact linesFrom_last [] whole.1
    | cons next lines =>
      rw [List.intercalate_cons_cons, List.append_assoc]
      have parted := linesFrom_line [] (lineEnd.intercalate (next :: lines)) whole.1
      rw [ih (List.cons_ne_nil _ _) whole.2] at parted
      exact parted

private theorem linesFrom_ne_nil (taken text : List Char) : linesFrom taken text ≠ [] := by
  fun_induction linesFrom taken text with
  | case1 => exact List.cons_ne_nil _ _
  | case2 => exact List.cons_ne_nil _ _
  | case3 taken c rest _ ih => exact ih

/-- The lines of a text make up the text. -/
theorem intercalate_linesFrom (taken text : List Char) :
    lineEnd.intercalate (linesFrom taken text) = taken.reverse ++ text := by
  fun_induction linesFrom taken text with
  | case1 taken => simp
  | case2 taken rest ih =>
    rw [List.intercalate_cons_of_ne_nil (linesFrom_ne_nil [] rest), ih]
    simp
  | case3 taken c rest _ ih =>
    rw [ih]
    simp

/-- What is taken of a line holds no line end, and does not end in the first half of one whose
second half comes next. -/
structure Taken (taken text : List Char) : Prop where
  whole : ¬ lineEnd <:+: taken.reverse
  apart : ∀ before behind, taken = '\r' :: before → text ≠ '\n' :: behind

private theorem taken_nil (text : List Char) : Taken [] text := by
  refine ⟨?_, nofun⟩
  intro inside
  exact List.cons_ne_nil _ _ (List.infix_nil.mp inside)

private theorem Taken.step {c : Char} {taken rest : List Char} (started : Taken taken (c :: rest))
    (apart : ∀ behind, c = '\r' → rest ≠ '\n' :: behind) : Taken (c :: taken) rest := by
  refine ⟨?_, fun before behind same => apart behind (List.cons.inj same).1⟩
  rw [List.reverse_cons, List.infix_concat_iff, List.suffix_concat_iff]
  rintro ((none | ⟨half, split, ends⟩) | inside)
  · cases none
  · have parted : ['\r'] ++ ['\n'] = half ++ [c] := split
    obtain ⟨rfl, last⟩ := List.append_inj' parted rfl
    obtain rfl := List.singleton_inj.mp last
    obtain ⟨before, same⟩ := ends
    exact started.apart before.reverse rest (by rw [← List.reverse_reverse taken, ← same]; simp) rfl
  · exact started.whole inside

private theorem linesFrom_whole {taken text : List Char} (started : Taken taken text) :
    ∀ line ∈ linesFrom taken text, ¬ lineEnd <:+: line := by
  fun_induction linesFrom taken text with
  | case1 taken => exact List.forall_mem_singleton.mpr started.whole
  | case2 taken rest ih => exact List.forall_mem_cons.mpr ⟨started.whole, ih (taken_nil rest)⟩
  | case3 taken c rest apart ih =>
    exact ih (started.step fun behind return? feed => apart behind return? feed)

/-! ## The end of the header -/

private theorem notMem_utf8EncodeChar {c other : Char} (ascii : c.toNat < 0x80)
    (different : other ≠ c) :
    UInt8.ofNat c.toNat ∉ String.utf8EncodeChar other := by
  intro inside
  have held : c ∈ [other] := Text.Utf8.mem_of_mem_encode ascii (by simpa [Text.Utf8.encode])
  exact different (List.mem_singleton.mp held).symm

/-- No terminator begins where a byte is no carriage return. -/
theorem splitFrom_pass {bytes : Bytes} (before rest : Bytes) (noReturn : 13 ∉ bytes) :
    splitFrom before (bytes ++ rest) = splitFrom (bytes.reverse ++ before) rest := by
  induction bytes generalizing before with
  | nil => rfl
  | cons b bytes ih =>
    rw [List.mem_cons, not_or] at noReturn
    rw [List.cons_append, splitFrom]
    · rw [ih (b :: before) noReturn.2]
      simp
    · intro payload same
      exact absurd same.symm noReturn.1

/-- No terminator begins where no line feed follows. -/
theorem splitFrom_return (before : Bytes) {rest : Bytes} (apart : ∀ behind, rest ≠ 10 :: behind) :
    splitFrom before (13 :: rest) = splitFrom (13 :: before) rest := by
  rw [splitFrom]
  intro payload _ same
  exact apart _ same

/-- A text whose first byte is of ASCII begins with the character of that byte. -/
theorem head_of_encode {c other : Char} {rest behind : Bytes} (ascii : c.toNat < 0x80)
    (begins : Text.Utf8.encode (other :: line) ++ rest = UInt8.ofNat c.toNat :: behind) :
    other = c := by
  by_contra different
  have none := notMem_utf8EncodeChar ascii different
  obtain ⟨b, bytes, encoded⟩ :=
    List.exists_cons_of_ne_nil (String.utf8EncodeChar_ne_nil (c := other))
  rw [Text.Utf8.encode, List.flatMap_cons, encoded] at begins
  rw [encoded, (List.cons.inj begins).1] at none
  exact none List.mem_cons_self

/-- In bytes too a carriage return in a line is not followed by a line feed. -/
theorem encode_not_lineFeed (whole : ¬ lineEnd <:+: '\r' :: line) (rest behind : Bytes) :
    Text.Utf8.encode line ++ 13 :: rest ≠ 10 :: behind := by
  intro same
  cases line with
  | nil => cases same
  | cons c line =>
    obtain rfl : c = '\n' := head_of_encode (by decide) same
    exact whole ⟨[], line, rfl⟩

private theorem encode_not_lineEnd (here : Line line) (rest behind : Bytes) :
    Text.Utf8.encode line ++ 13 :: rest ≠ 13 :: 10 :: behind := by
  intro same
  cases line with
  | nil => exact here.filled rfl
  | cons c line =>
    obtain rfl : c = '\r' := head_of_encode (by decide) same
    exact encode_not_lineFeed here.whole rest behind (List.cons.inj same).2

private theorem splitFrom_line (before rest : Bytes) (whole : ¬ lineEnd <:+: line) :
    splitFrom before (Text.Utf8.encode line ++ 13 :: rest) =
      splitFrom ((Text.Utf8.encode line).reverse ++ before) (13 :: rest) := by
  induction line generalizing before with
  | nil => rfl
  | cons c line ih =>
    have encoded : Text.Utf8.encode (c :: line) =
        String.utf8EncodeChar c ++ Text.Utf8.encode line := List.flatMap_cons
    rw [encoded, List.append_assoc, List.reverse_append, List.append_assoc]
    by_cases return? : c = '\r'
    · subst return?
      have single : String.utf8EncodeChar '\r' = [13] := rfl
      rw [single, List.singleton_append, splitFrom_return _ (encode_not_lineFeed whole rest)]
      exact ih _ (whole_of_cons whole)
    · rw [splitFrom_pass _ _ (notMem_utf8EncodeChar (c := '\r') (by decide) return?)]
      exact ih _ (whole_of_cons whole)

private theorem encode_lineEnd : Text.Utf8.encode lineEnd = [13, 10] := by decide

private theorem unitOf_singleton (line : List Char) (payload : Bytes) :
    unitOf [line] payload = Text.Utf8.encode line ++ 13 :: 10 :: 13 :: 10 :: payload := by
  rw [unitOf, List.intercalate_singleton]

private theorem unitOf_cons_cons (line next : List Char) (lines : List (List Char))
    (payload : Bytes) :
    unitOf (line :: next :: lines) payload =
      Text.Utf8.encode line ++ 13 :: 10 :: unitOf (next :: lines) payload := by
  rw [unitOf, unitOf, List.intercalate_cons_cons, Text.Utf8.encode_append, Text.Utf8.encode_append,
    encode_lineEnd]
  simp

/-- The first line is not empty, so there is no terminator in front of it. -/
theorem splitFrom_lineEnd (before payload : Bytes) (here : Line line) :
    splitFrom before (13 :: 10 :: unitOf (line :: lines) payload) =
      splitFrom (10 :: 13 :: before) (unitOf (line :: lines) payload) := by
  obtain ⟨rest, begins⟩ :
      ∃ rest, unitOf (line :: lines) payload = Text.Utf8.encode line ++ 13 :: rest := by
    cases lines with
    | nil => exact ⟨_, unitOf_singleton line payload⟩
    | cons next lines => exact ⟨_, unitOf_cons_cons line next lines payload⟩
  have apart (behind : Bytes) : unitOf (line :: lines) payload ≠ 13 :: 10 :: behind := by
    rw [begins]
    exact encode_not_lineEnd here rest behind
  rw [splitFrom, splitFrom]
  · intro payload same
    cases same
  · intro payload _ same
    exact apart payload (List.cons.inj same).2

/-- The header of some lines ends behind them, whatever the payload holds. -/
theorem splitFrom_unitOf (before payload : Bytes) (filled : lines ≠ [])
    (each : ∀ line ∈ lines, Line line) :
    splitFrom before (unitOf lines payload) =
      some (before.reverse ++ Text.Utf8.encode (lineEnd.intercalate lines), payload) := by
  induction lines generalizing before with
  | nil => exact absurd rfl filled
  | cons line lines ih =>
    rw [List.forall_mem_cons] at each
    cases lines with
    | nil =>
      rw [unitOf_singleton, splitFrom_line _ _ each.1.whole, List.intercalate_singleton]
      simp [splitFrom]
    | cons next lines =>
      rw [unitOf_cons_cons, splitFrom_line _ _ each.1.whole,
        splitFrom_lineEnd _ _ (each.2 next List.mem_cons_self),
        ih _ (List.cons_ne_nil _ _) each.2, List.intercalate_cons_cons, Text.Utf8.encode_append,
        Text.Utf8.encode_append, encode_lineEnd]
      simp

private theorem splitFrom_eq_some {before bytes head payload : Bytes}
    (found : splitFrom before bytes = some (head, payload)) :
    before.reverse ++ bytes = head ++ 13 :: 10 :: 13 :: 10 :: payload := by
  fun_induction splitFrom before bytes with
  | case1 => cases found
  | case2 before payload =>
    cases found
    rfl
  | case3 before b rest _ ih =>
    rw [← ih found]
    simp

/-! ## Units with a header -/

/-- The steps of stripping a header. -/
theorem strip_steps {unit payload : Bytes} :
    strip unit = .ok payload ↔ ∃ head text, split? unit = some (head, payload) ∧
      Text.Utf8.decode head = .ok text ∧
      statedLength none (linesFrom [] text) = .ok (some payload.length) := by
  constructor
  · intro stripped
    unfold strip at stripped
    split at stripped
    · cases stripped
    · rename_i head behind parted
      split at stripped
      · cases stripped
      · rename_i text read
        obtain ⟨stated?, stated, stripped⟩ := ok_of_bind stripped
        cases stated? with
        | none => cases stripped
        | some length =>
          dsimp only at stripped
          split at stripped
          · rename_i same
            cases stripped
            exact ⟨head, text, parted, read, same ▸ stated⟩
          · cases stripped
  · rintro ⟨head, text, parted, read, stated⟩
    simp only [strip, parted, read, stated]
    exact if_pos rfl

private theorem Heads.ne_nil {length : Nat} (heads : Heads lines length) : lines ≠ [] := by
  obtain ⟨before, line, after, rfl, -⟩ := heads.last
  simp

private theorem heads_of_statedLength {text : List Char} {length : Nat}
    (stated : statedLength none (linesFrom [] text) = .ok (some length)) :
    Heads (linesFrom [] text) length := by
  obtain ⟨sound, last⟩ := statedLength_eq_ok_some_iff.mp stated
  refine ⟨fun line inside => ⟨?_, linesFrom_whole (taken_nil text) line inside⟩, sound, ?_⟩
  · exact List.ne_nil_of_mem (sound line inside).colon
  · rcases last with last | ⟨none, -⟩
    · exact last
    · cases none

private theorem strip_eq_ok_iff {unit payload : Bytes} :
    strip unit = .ok payload ↔
      ∃ lines, Heads lines payload.length ∧ unit = unitOf lines payload := by
  rw [strip_steps]
  constructor
  · rintro ⟨head, text, parted, read, stated⟩
    refine ⟨linesFrom [] text, heads_of_statedLength stated, ?_⟩
    have joined : unit = head ++ 13 :: 10 :: 13 :: 10 :: payload := splitFrom_eq_some parted
    rw [joined, Text.Utf8.decode_eq_ok_iff.mp read, unitOf, intercalate_linesFrom]
    rfl
  · rintro ⟨lines, heads, rfl⟩
    refine ⟨_, lineEnd.intercalate lines, splitFrom_unitOf [] payload heads.ne_nil heads.each,
      Text.Utf8.decode_encode _, ?_⟩
    rw [linesFrom_intercalate heads.ne_nil fun line inside => (heads.each line inside).whole]
    exact statedLength_eq_ok_some_iff.mpr ⟨heads.sound, .inl heads.last⟩

/-- A header line about something else than the length. -/
structure Other (other : List Char) : Prop where
  line : Line other
  colon : ':' ∈ other
  aside : ¬ Measures other

/-- One line that states the length is enough, wherever it stands among the others. -/
theorem heads_of_others {before after : List (List Char)} {stating : List Char} {length : Nat}
    (others : ∀ other ∈ before ++ after, Other other) (whole : Line stating)
    (states : States stating length) : Heads (before ++ stating :: after) length := by
  have cases_of {motive : List Char → Prop} (here : motive stating)
      (aside : ∀ other ∈ before ++ after, motive other) :
      ∀ line ∈ before ++ stating :: after, motive line := by
    intro line inside
    rcases List.mem_append.mp inside with inside | inside
    · exact aside line (List.mem_append_left _ inside)
    · rcases List.mem_cons.mp inside with rfl | inside
      · exact here
      · exact aside line (List.mem_append_right _ inside)
  refine ⟨?each, ?sound, before, stating, after, rfl, states, ?last⟩
  case each =>
    exact cases_of whole fun other inside => (others other inside).line
  case sound =>
    have colon : ':' ∈ stating := by
      obtain ⟨name, value, parts, -⟩ := states
      rw [parts.parted]
      simp
    refine cases_of ⟨colon, fun _ => ⟨length, states⟩⟩ fun other inside => ?_
    exact ⟨(others other inside).colon, fun measures =>
      absurd measures (others other inside).aside⟩
  case last =>
    exact fun other inside => (others other (List.mem_append_right _ inside)).aside

end Header

namespace Codec

open Header (Heads Line Other States unitOf)

private theorem decode_unitOf {format : Format} {payload : Bytes} {lines : List (List Char)}
    (filled : payload ≠ []) (heads : Heads lines payload.length)
    (short : (unitOf lines payload).length ≤ maxUnitLength) :
    decode ⟨format, .contentLength⟩ (unitOf lines payload) = decode ⟨format, .bare⟩ payload := by
  have shorter : payload.length ≤ (unitOf lines payload).length := by
    rw [unitOf, List.length_append]
    simp only [List.length_cons]
    omega
  have stripped : Header.strip (unitOf lines payload) = .ok payload :=
    Header.strip_eq_ok_iff.mpr ⟨lines, heads, rfl⟩
  have some : unitOf lines payload ≠ [] :=
    List.ne_nil_of_length_pos (Nat.lt_of_lt_of_le (List.length_pos_iff.mpr filled) shorter)
  rw [decode_eq some short, decode_eq filled (shorter.trans short)]
  simp only [unframe, stripped]
  rfl

/-- Stripping accepts the units of the grammar and finds the one payload each of them has, also
where the payload goes on with an empty line of its own. So it does not matter which other lines
stand before or behind the one with the length: the unit is decoded to what the payload alone
would be. -/
theorem strip_grammar (unit : Bytes) :
    (∀ payload, Header.strip unit = .ok payload ↔
      ∃ lines, Heads lines payload.length ∧ unit = unitOf lines payload) ∧
    (∀ lines others payload other, Heads lines payload.length → unit = unitOf lines payload →
      Heads others other.length → unit = unitOf others other → other = payload) ∧
    ∀ (format : Format) payload before stating after, payload ≠ [] →
      (∀ other ∈ before ++ after, Other other) → Line stating → States stating payload.length →
      (unitOf (before ++ stating :: after) payload).length ≤ maxUnitLength →
      decode ⟨format, .contentLength⟩ (unitOf (before ++ stating :: after) payload) =
        decode ⟨format, .bare⟩ payload := by
  refine ⟨fun payload => Header.strip_eq_ok_iff, ?unique, ?others⟩
  case unique =>
    intro lines others payload other heads same heads' same'
    have stripped := Header.strip_eq_ok_iff.mpr ⟨lines, heads, same⟩
    have again := Header.strip_eq_ok_iff.mpr ⟨others, heads', same'⟩
    rw [stripped] at again
    exact (Except.ok.inj again).symm
  case others =>
    intro format payload before stating after filled others whole states short
    exact decode_unitOf filled (Header.heads_of_others others whole states) short

/-- The last length holds, and the payload begins with an empty line. -/
example : Header.strip (Text.Utf8.encode
    "Content-Length: 9\r\nAccept: a:b\r\n content-length :+3\r\n\r\n\r\nx".toList) =
      .ok [13, 10, 120] :=
  rfl

end Codec

end Airlock
