import Airlock.Json.Printer
import Airlock.Json.Reader
import Airlock.Proofs.Text.Utf8

/-!
# Strings written and read back

Behind an opening quote, the reader takes the printed characters of a string and its closing quote
as that string, whatever it is a part of.
-/

set_option autoImplicit false

namespace Airlock.Json

/-! ## Single characters -/

def PlainByte (b : UInt8) : Prop :=
  b ≠ byte '"' ∧ b ≠ byte '\\' ∧ ¬ b < 0x20

private theorem readTextFrom_plain {bytes : Bytes} (plain : ∀ b ∈ bytes, PlainByte b)
    (opened : Bytes) (content : List UInt8) (rest : Bytes) :
    readTextFrom ⟨opened, content, .plain⟩ (bytes ++ rest) =
      readTextFrom ⟨opened, bytes.reverse ++ content, .plain⟩ rest := by
  induction bytes generalizing content with
  | nil => rfl
  | cons b bytes ih =>
    obtain ⟨notQuote, notBackslash, notControl⟩ := plain b List.mem_cons_self
    have others : ∀ b ∈ bytes, PlainByte b := by
      intro b inside
      exact plain b (List.mem_cons_of_mem _ inside)
    rw [List.cons_append, readTextFrom]
    simp only [TextScan.step, notQuote, notBackslash, notControl, if_false]
    rw [ih others]
    simp

private theorem plainByte_of_mem {c : Char} (notQuote : c ≠ '"') (notBackslash : c ≠ '\\')
    (notControl : ¬ c.toNat < 0x20) {b : UInt8} (inside : b ∈ String.utf8EncodeChar c) :
    PlainByte b := by
  obtain ⟨rfl, ascii⟩ | high := Text.Utf8.mem_utf8EncodeChar inside
  · have size : (UInt8.ofNat c.toNat).toNat = c.toNat :=
      UInt8.toNat_ofNat_of_lt' (Nat.lt_trans ascii (by decide))
    refine ⟨fun same => notQuote ?_, fun same => notBackslash ?_, fun less => notControl ?_⟩
    · rw [← Char.toNat_inj, ← size, same]
      rfl
    · rw [← Char.toNat_inj, ← size, same]
      rfl
    · rw [← size]
      exact less
  · refine ⟨fun same => ?_, fun same => ?_, fun less => ?_⟩
    · subst same
      exact absurd high (by decide)
    · subst same
      exact absurd high (by decide)
    · have below : b.toNat < 32 := less
      omega

/-! ## Escapes -/

private theorem readTextFrom_letter {letter meant : UInt8} (notUnit : letter ≠ byte 'u')
    (escape : escapeOf? letter = some meant) (opened : Bytes) (content : List UInt8)
    (rest : Bytes) :
    readTextFrom ⟨opened, content, .plain⟩ (byte '\\' :: letter :: rest) =
      readTextFrom ⟨opened, meant :: content, .plain⟩ rest := by
  have notQuote : byte '\\' ≠ byte '"' := by decide
  simp [readTextFrom, TextScan.step, notQuote, notUnit, escape]

private theorem hexOf?_hexDigit :
    ∀ n < 16, hexOf? (byte (hexDigit n)) = some n := by
  decide

private theorem readTextFrom_unit {n : Nat} (control : n < 0x20) (opened : Bytes)
    (content : List UInt8) (rest : Bytes) :
    readTextFrom ⟨opened, content, .plain⟩
        (byte '\\' :: byte 'u' :: byte '0' :: byte '0' :: byte (hexDigit (n / 16)) ::
          byte (hexDigit (n % 16)) :: rest) =
      readTextFrom
        ⟨opened, (String.utf8EncodeChar (Char.ofNat n)).reverse ++ content, .plain⟩ rest := by
  have notQuote : byte '\\' ≠ byte '"' := by decide
  have zero : hexOf? (byte '0') = some 0 := by decide
  have unit : codeUnit? [byte '0', byte '0', byte (hexDigit (n / 16)), byte (hexDigit (n % 16))] =
      some n := by
    simp [codeUnit?, zero, hexOf?_hexDigit (n / 16) (by omega), hexOf?_hexDigit (n % 16) (by omega)]
    omega
  have notTrailing : ¬ (0xDC00 ≤ n ∧ n ≤ 0xDFFF) := by omega
  have notLeading : ¬ (0xD800 ≤ n ∧ n ≤ 0xDBFF) := by omega
  simp [readTextFrom, TextScan.step, TextScan.unit, TextScan.push, notQuote, unit, notTrailing,
    notLeading]

private theorem escapedChar_eq {c : Char}
    (unnamed : c ∉ ['"', '\\', '\x08', '\x0c', '\n', '\r', '\t']) :
    escapedChar c =
      if c.toNat < 0x20 then
        ['\\', 'u', '0', '0', hexDigit (c.toNat / 16), hexDigit (c.toNat % 16)]
      else [c] := by
  simp only [List.mem_cons, List.not_mem_nil, or_false, not_or] at unnamed
  simp [escapedChar, unnamed]

private theorem encode_hexDigit :
    ∀ n < 16, String.utf8EncodeChar (hexDigit n) = [byte (hexDigit n)] := by
  decide

/-- The printed form of a character puts its bytes behind the content. -/
theorem readTextFrom_escapedChar (opened : Bytes) (content : List UInt8) (c : Char)
    (rest : Bytes) :
    readTextFrom ⟨opened, content, .plain⟩ (Text.Utf8.encode (escapedChar c) ++ rest) =
      readTextFrom ⟨opened, (String.utf8EncodeChar c).reverse ++ content, .plain⟩ rest := by
  by_cases named : c ∈ ['"', '\\', '\x08', '\x0c', '\n', '\r', '\t']
  · simp only [List.mem_cons, List.not_mem_nil, or_false] at named
    obtain rfl | rfl | rfl | rfl | rfl | rfl | rfl := named
    all_goals exact readTextFrom_letter (by decide) (by decide) ..
  · rw [escapedChar_eq named]
    split
    case isTrue control =>
      have bytes : Text.Utf8.encode
          ['\\', 'u', '0', '0', hexDigit (c.toNat / 16), hexDigit (c.toNat % 16)] =
          [byte '\\', byte 'u', byte '0', byte '0', byte (hexDigit (c.toNat / 16)),
            byte (hexDigit (c.toNat % 16))] := by
        simp only [Text.Utf8.encode, List.flatMap_cons, List.flatMap_nil,
          encode_hexDigit (c.toNat / 16) (by omega), encode_hexDigit (c.toNat % 16) (by omega)]
        rfl
      have read := readTextFrom_unit control opened content rest
      rw [Char.ofNat_toNat] at read
      rw [bytes]
      exact read
    case isFalse printable =>
      simp only [List.mem_cons, List.not_mem_nil, or_false, not_or] at named
      have plain : ∀ b ∈ String.utf8EncodeChar c, PlainByte b :=
        fun b inside => plainByte_of_mem named.1 named.2.1 printable inside
      simpa [Text.Utf8.encode] using readTextFrom_plain plain opened content rest

/-! ## Whole strings -/

private theorem readTextFrom_escaped (opened : Bytes) (content : List UInt8) (text : List Char)
    (rest : Bytes) :
    readTextFrom ⟨opened, content, .plain⟩
        (Text.Utf8.encode (text.flatMap escapedChar) ++ rest) =
      readTextFrom ⟨opened, (Text.Utf8.encode text).reverse ++ content, .plain⟩ rest := by
  induction text generalizing content with
  | nil => rfl
  | cons c text ih =>
    have head := readTextFrom_escapedChar opened content c
      (Text.Utf8.encode (text.flatMap escapedChar) ++ rest)
    rw [ih] at head
    simpa [Text.Utf8.encode] using head

/-- The reader takes a printed string, behind its opening quote, as the string. -/
theorem readText_printed (text : String) (rest : Bytes) :
    readText (Text.Utf8.encode (text.toList.flatMap escapedChar ++ ['"']) ++ rest) =
      .ok (text, rest) := by
  have bytes : Text.Utf8.encode (text.toList.flatMap escapedChar ++ ['"']) ++ rest =
      Text.Utf8.encode (text.toList.flatMap escapedChar) ++ byte '"' :: rest := by
    simp [Text.Utf8.encode]
    rfl
  rw [bytes, readText, TextScan.start, readTextFrom_escaped]
  simp [readTextFrom, TextScan.step, TextScan.close, Text.Utf8.decode_encode]

/-! ## Strings inside a value -/

namespace Machine

theorem run_text (room : Nat) (stack : List Frame) (scan : TextScan) (bytes : Bytes) :
    run room ⟨.text scan, stack⟩ bytes =
      match readTextFrom scan bytes with
      | .ok (text, rest) => run room ⟨.behind (.string text), stack⟩ rest
      | .error fault => .error fault := by
  induction bytes generalizing scan with
  | nil => rfl
  | cons b bytes ih =>
    rw [run, readTextFrom]
    simp only [step]
    cases scan.step b bytes with
    | error fault => rfl
    | ok taken =>
      cases taken with
      | more next => exact ih next
      | done text => rfl

theorem run_key (room : Nat) (stack : List Frame) (before : Members) (scan : TextScan)
    (bytes : Bytes) :
    run room ⟨.key before scan, stack⟩ bytes =
      match readTextFrom scan bytes with
      | .ok (key, rest) => run room ⟨.colon before key, stack⟩ rest
      | .error fault => .error fault := by
  induction bytes generalizing scan with
  | nil => rfl
  | cons b bytes ih =>
    rw [run, readTextFrom]
    simp only [step]
    cases scan.step b bytes with
    | error fault => rfl
    | ok taken =>
      cases taken with
      | more next => exact ih next
      | done text => rfl

end Machine

end Airlock.Json
