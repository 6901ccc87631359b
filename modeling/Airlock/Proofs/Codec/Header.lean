import Airlock.Codec.Header
import Airlock.Proofs.Text.Utf8

/-!
# Headers attached and stripped

The header that states the length of a payload is found again in front of it, whatever the payload
holds, because the one line of the header has no carriage return.
-/

set_option autoImplicit false

namespace Airlock

namespace Text

/-! ## Decimal digits -/

theorem readDigits_of_isDigit {limit n : Nat} {digits : List Char}
    (all : ∀ c ∈ digits, c.isDigit = true) (fits : Nat.ofDigitChars 10 digits n < limit) :
    readDigits limit n digits = .ok (Nat.ofDigitChars 10 digits n) := by
  induction digits generalizing n with
  | nil => rfl
  | cons c digits ih =>
    have value : 10 * n + (c.toNat - '0'.toNat) = n * 10 + (c.toNat - 48) := by
      rw [Nat.mul_comm]
      rfl
    rw [Nat.ofDigitChars_cons, value] at fits ⊢
    have grows : n * 10 + (c.toNat - 48) ≤
        Nat.ofDigitChars 10 digits (n * 10 + (c.toNat - 48)) := by
      rw [Nat.ofDigitChars_eq_ofDigitChars_zero]
      exact Nat.le_trans (Nat.le_mul_of_pos_left _ (Nat.pow_pos (by decide))) (Nat.le_add_right ..)
    rw [readDigits, if_pos (all c List.mem_cons_self), if_pos (Nat.lt_of_le_of_lt grows fits)]
    exact ih (fun c inside => all c (List.mem_cons_of_mem _ inside)) fits

private theorem readDigits_tooLarge {limit n : Nat} {digits : List Char}
    (all : ∀ c ∈ digits, c.isDigit = true) (fits : n < limit)
    (large : limit ≤ Nat.ofDigitChars 10 digits n) :
    readDigits limit n digits = .error .tooLarge := by
  induction digits generalizing n with
  | nil => exact absurd fits (Nat.not_lt.mpr large)
  | cons c digits ih =>
    have value : 10 * n + (c.toNat - '0'.toNat) = n * 10 + (c.toNat - 48) := by
      rw [Nat.mul_comm]
      rfl
    rw [Nat.ofDigitChars_cons, value] at large
    rw [readDigits, if_pos (all c List.mem_cons_self)]
    by_cases wider : n * 10 + (c.toNat - 48) < limit
    · rw [if_pos wider]
      exact ih (fun c inside => all c (List.mem_cons_of_mem _ inside)) wider large
    · rw [if_neg wider]

private theorem isDigit_toDigits (n : Nat) : ∀ c ∈ Nat.toDigits 10 n, c.isDigit = true :=
  fun _ inside => Nat.isDigit_of_mem_toDigits (by decide) (by decide) inside

/-- Digits begin with no plus sign. -/
theorem readSize_toDigits_eq (n : Nat) :
    readSize (Nat.toDigits 10 n) = readDigits 0x10000000000000000 0 (Nat.toDigits 10 n) := by
  have all := isDigit_toDigits n
  cases digits : Nat.toDigits 10 n with
  | nil => exact absurd digits Nat.toDigits_ne_nil
  | cons c rest =>
    rw [digits] at all
    have notPlus : c ≠ '+' := by
      intro same
      subst same
      exact absurd (all '+' List.mem_cons_self) (by decide)
    rw [readSize, readNat]
    · intro empty
      cases empty
    · intro same
      cases same
      exact notPlus rfl
    · intro behind same
      cases same
      exact notPlus rfl

theorem readSize_toDigits {n : Nat} (fits : n < 0x10000000000000000) :
    readSize (Nat.toDigits 10 n) = .ok n := by
  have whole : Nat.ofDigitChars 10 (Nat.toDigits 10 n) 0 = n := Nat.ofDigitChars_ten_toDigits
  rw [readSize_toDigits_eq, readDigits_of_isDigit (isDigit_toDigits n) (whole.symm ▸ fits), whole]

theorem readSize_toDigits_tooLarge {n : Nat} (large : 0x10000000000000000 ≤ n) :
    readSize (Nat.toDigits 10 n) = .error .tooLarge := by
  have whole : Nat.ofDigitChars 10 (Nat.toDigits 10 n) 0 = n := Nat.ofDigitChars_ten_toDigits
  rw [readSize_toDigits_eq]
  exact readDigits_tooLarge (isDigit_toDigits n) (by decide) (whole.symm ▸ large)

/-! ## Trimming -/

private theorem isBlank_digit {c : Char} (digit : c.isDigit = true) : isBlank c = false := by
  have ⟨low, high⟩ : 48 ≤ c.toNat ∧ c.toNat ≤ 57 := by
    simpa [Char.isDigit, UInt32.le_iff_toNat_le] using digit
  cases blank : isBlank c with
  | false => rfl
  | true =>
    obtain ⟨range, listed, first, last⟩ := CodeRanges.holds_iff.mp blank
    simp only [blankRanges, List.mem_cons, List.not_mem_nil, or_false] at listed
    obtain rfl | rfl | rfl | rfl | rfl | rfl | rfl | rfl | rfl | rfl := listed
    all_goals
      simp only at first last
      omega

private theorem dropWhile_digits {digits : List Char} (all : ∀ c ∈ digits, c.isDigit = true) :
    digits.dropWhile isBlank = digits := by
  cases digits with
  | nil => rfl
  | cons c digits =>
    exact List.dropWhile_cons_of_neg (by simp [isBlank_digit (all c List.mem_cons_self)])

private theorem trim_toDigits (n : Nat) : trim (' ' :: Nat.toDigits 10 n) = Nat.toDigits 10 n := by
  have all := isDigit_toDigits n
  have allReversed : ∀ c ∈ (Nat.toDigits 10 n).reverse, c.isDigit = true :=
    fun c inside => all c (List.mem_reverse.mp inside)
  rw [trim, List.dropWhile_cons_of_pos (by decide), dropWhile_digits all,
    dropWhile_digits allReversed, List.reverse_reverse]

end Text

namespace Header

def line (length : Nat) : List Char :=
  lengthName.toList ++ ": ".toList ++ Nat.toDigits 10 length

private theorem splitFrom_terminator {bytes : Bytes} (before : Bytes) (noReturn : 13 ∉ bytes)
    (payload : Bytes) :
    splitFrom before (bytes ++ 13 :: 10 :: 13 :: 10 :: payload) =
      some (before.reverse ++ bytes, payload) := by
  induction bytes generalizing before with
  | nil => simp [splitFrom]
  | cons b bytes ih =>
    rw [List.mem_cons, not_or] at noReturn
    rw [List.cons_append, splitFrom]
    · rw [ih (b :: before) noReturn.2]
      simp
    · intro payload' same
      exact absurd same.symm noReturn.1

private theorem linesFrom_single {text : List Char} (taken : List Char) (noReturn : '\r' ∉ text) :
    linesFrom taken text = [taken.reverse ++ text] := by
  induction text generalizing taken with
  | nil => simp [linesFrom]
  | cons c text ih =>
    rw [List.mem_cons, not_or] at noReturn
    rw [linesFrom]
    · rw [ih (c :: taken) noReturn.2]
      simp
    · intro rest same
      exact absurd same.symm noReturn.1

private theorem line_eq (length : Nat) :
    line length = lengthName.toList ++ ':' :: ' ' :: Nat.toDigits 10 length := by
  have separator : ": ".toList = [':', ' '] := by decide
  simp [line, separator]

theorem return_notMem_line (length : Nat) : '\r' ∉ line length := by
  intro inside
  rw [line_eq, List.mem_append, List.mem_cons, List.mem_cons] at inside
  obtain name | same | same | digit := inside
  · exact absurd name (by decide)
  · exact absurd same (by decide)
  · exact absurd same (by decide)
  · exact absurd (Nat.isDigit_of_mem_toDigits (by decide) (by decide) digit) (by decide)

private theorem nameAndValue?_line (length : Nat) :
    nameAndValue? (line length) = some (lengthName.toList, ' ' :: Nat.toDigits 10 length) := by
  have noColon : lengthName.toList.all (fun c => decide (c ≠ ':')) = true := by decide
  rw [List.all_eq_true] at noColon
  rw [nameAndValue?, line_eq, List.dropWhile_append_of_pos noColon,
    List.takeWhile_append_of_pos noColon]
  simp

private theorem statedLength_line (length : Nat) :
    statedLength none [line length] =
      ((Text.readSize (Nat.toDigits 10 length)).map some).mapError .badLength := by
  have named : isLengthName lengthName.toList = true := by decide
  simp only [statedLength, nameAndValue?_line, named, Text.trim_toDigits, if_true]
  cases Text.readSize (Nat.toDigits 10 length) <;> rfl

theorem attach_eq (payload : Bytes) :
    attach payload =
      Text.Utf8.encode (line payload.length) ++ 13 :: 10 :: 13 :: 10 :: payload := by
  have terminator : Text.Utf8.encode ['\r', '\n', '\r', '\n'] = [13, 10, 13, 10] := by decide
  rw [attach, Text.Utf8.encode_append, terminator, List.append_assoc]
  rfl

/-- Behind the line that states a length, all of the unit counts as the payload. -/
theorem strip_line_eq (length : Nat) (payload : Bytes) :
    strip (Text.Utf8.encode (line length) ++ 13 :: 10 :: 13 :: 10 :: payload) =
      ((Text.readSize (Nat.toDigits 10 length)).mapError .badLength).bind fun stated =>
        if stated = payload.length then .ok payload
        else .error (.wrongLength stated payload.length) := by
  have noReturn : 13 ∉ Text.Utf8.encode (line length) :=
    fun inside => return_notMem_line _ (Text.Utf8.mem_of_mem_encode (by decide) inside)
  have found : split? (Text.Utf8.encode (line length) ++ 13 :: 10 :: 13 :: 10 :: payload) =
      some (Text.Utf8.encode (line length), payload) := by
    rw [split?, splitFrom_terminator [] noReturn, List.reverse_nil, List.nil_append]
  have lines := linesFrom_single [] (return_notMem_line length)
  rw [List.reverse_nil, List.nil_append] at lines
  simp only [strip, found, Text.Utf8.decode_encode, lines, statedLength_line]
  cases Text.readSize (Nat.toDigits 10 length) <;> rfl

private theorem strip_line {length : Nat} (fits : length < 0x10000000000000000) (payload : Bytes) :
    strip (Text.Utf8.encode (line length) ++ 13 :: 10 :: 13 :: 10 :: payload) =
      if length = payload.length then .ok payload
      else .error (.wrongLength length payload.length) := by
  rw [strip_line_eq, Text.readSize_toDigits fits]
  rfl

/-- The payload of an attached header is found again. -/
theorem strip_attach {payload : Bytes} (fits : payload.length < 0x10000000000000000) :
    strip (attach payload) = .ok payload := by
  rw [attach_eq, strip_line fits, if_pos rfl]

/-- More bytes than the header states are a fault. -/
theorem strip_attach_surplus {payload extra : Bytes} (some : extra ≠ [])
    (fits : payload.length < 0x10000000000000000) :
    strip (attach payload ++ extra) =
      .error (.wrongLength payload.length (payload ++ extra).length) := by
  have more : payload.length ≠ (payload ++ extra).length := by
    have extraLength := List.length_pos_iff.mpr some
    rw [List.length_append]
    omega
  have unit : attach payload ++ extra =
      Text.Utf8.encode (line payload.length) ++ 13 :: 10 :: 13 :: 10 :: (payload ++ extra) := by
    rw [attach_eq, List.append_assoc]
    rfl
  rw [unit, strip_line fits, if_neg more]

end Header

end Airlock
