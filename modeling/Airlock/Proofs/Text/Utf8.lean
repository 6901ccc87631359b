import Airlock.Text.Utf8

/-!
# UTF-8 written and read back

Reading takes the bytes of one character back to that character, wherever it stands, so it takes
the bytes of a text back to the text. Bytes that are read are those of some text.
-/

set_option autoImplicit false

namespace Airlock.Text.Utf8

/-! ## The first byte of a character -/

private theorem ofNat_le {n : Nat} (small : n < 256) (bound : UInt8) :
    UInt8.ofNat n ≤ bound ↔ n ≤ bound.toNat := by
  rw [UInt8.le_iff_toNat_le, UInt8.toNat_ofNat_of_lt' small]

private theorem le_ofNat {n : Nat} (small : n < 256) (bound : UInt8) :
    bound ≤ UInt8.ofNat n ↔ bound.toNat ≤ n := by
  rw [UInt8.le_iff_toNat_le, UInt8.toNat_ofNat_of_lt' small]

private theorem ofNat_lt {n : Nat} (small : n < 256) (bound : UInt8) :
    UInt8.ofNat n < bound ↔ n < bound.toNat := by
  rw [UInt8.lt_iff_toNat_lt, UInt8.toNat_ofNat_of_lt' small]

private theorem ofNat_eq {n : Nat} (small : n < 256) (bound : UInt8) :
    UInt8.ofNat n = bound ↔ n = bound.toNat := by
  rw [← UInt8.toNat_inj, UInt8.toNat_ofNat_of_lt' small]

private theorem lead_ofNat {n : Nat} (small : n < 256) :
    lead (UInt8.ofNat n) =
      if n ≤ 0x7F then .alone
      else if n < 0xC2 then .unsound
      else if n ≤ 0xDF then .tails 1 0x80 0xBF
      else if n = 0xE0 then .tails 2 0xA0 0xBF
      else if n = 0xED then .tails 2 0x80 0x9F
      else if n ≤ 0xEF then .tails 2 0x80 0xBF
      else if n = 0xF0 then .tails 3 0x90 0xBF
      else if n ≤ 0xF3 then .tails 3 0x80 0xBF
      else if n = 0xF4 then .tails 3 0x80 0x8F
      else .unsound := by
  simp only [lead, ofNat_le small, ofNat_lt small, ofNat_eq small]
  rfl

private theorem begin?_two {n : Nat} (low : 0xC2 ≤ n) (high : n ≤ 0xDF) :
    begin? (UInt8.ofNat n) = some ⟨n % 32, 1, 1, 0x80, 0xBF⟩ := by
  have small : n < 256 := by omega
  simp only [begin?, lead_ofNat small]
  rw [if_neg (by omega), if_neg (by omega), if_pos high]
  simp [UInt8.toNat_ofNat_of_lt' small]

private theorem begin?_three {n : Nat} (low : 0xE0 ≤ n) (high : n ≤ 0xEF) :
    begin? (UInt8.ofNat n) =
      some ⟨n % 16, 1, 2, if n = 0xE0 then 0xA0 else 0x80, if n = 0xED then 0x9F else 0xBF⟩ := by
  have small : n < 256 := by omega
  simp only [begin?, lead_ofNat small]
  rw [if_neg (by omega), if_neg (by omega), if_neg (by omega)]
  by_cases least : n = 0xE0
  · subst least
    rfl
  · by_cases surrogates : n = 0xED
    · subst surrogates
      rfl
    · simp [least, surrogates, high, UInt8.toNat_ofNat_of_lt' small]

private theorem begin?_four {n : Nat} (low : 0xF0 ≤ n) (high : n ≤ 0xF4) :
    begin? (UInt8.ofNat n) =
      some ⟨n % 8, 1, 3, if n = 0xF0 then 0x90 else 0x80, if n = 0xF4 then 0x8F else 0xBF⟩ := by
  obtain rfl | rfl | rfl | rfl | rfl : n = 0xF0 ∨ n = 0xF1 ∨ n = 0xF2 ∨ n = 0xF3 ∨ n = 0xF4 := by
    omega
  all_goals rfl

/-! ## The bytes that follow it -/

private theorem decodeFrom_last (before : List Char) (index : Nat) (rest : Bytes)
    {held : Partial} {n : Nat} (small : n < 256) (low : held.low.toNat ≤ n)
    (high : n ≤ held.high.toNat) (due : held.due = 1) :
    decodeFrom before index (some held) (UInt8.ofNat n :: rest) =
      decodeFrom (Char.ofNat (held.bits * 64 + n % 64) :: before) (index + held.taken + 1) none
        rest := by
  simp [decodeFrom, tailBits, due, ofNat_le small, le_ofNat small, low, high,
    Nat.mod_eq_of_lt small]

private theorem decodeFrom_tail (before : List Char) (index : Nat) (rest : Bytes)
    {held : Partial} {n : Nat} (small : n < 256) (low : held.low.toNat ≤ n)
    (high : n ≤ held.high.toNat) (due : held.due ≠ 1) :
    decodeFrom before index (some held) (UInt8.ofNat n :: rest) =
      decodeFrom before index
        (some ⟨held.bits * 64 + n % 64, held.taken + 1, held.due - 1, 0x80, 0xBF⟩) rest := by
  simp [decodeFrom, tailBits, due, ofNat_le small, le_ofNat small, low, high,
    Nat.mod_eq_of_lt small]

private theorem decodeFrom_begin (before : List Char) (index : Nat) (rest : Bytes)
    {begun : Partial} {n : Nat} (small : n < 256) (above : 0x7F < n)
    (begins : begin? (UInt8.ofNat n) = some begun) :
    decodeFrom before index none (UInt8.ofNat n :: rest) =
      decodeFrom before index (some begun) rest := by
  have notAlone : ¬ UInt8.ofNat n ≤ 0x7F := by
    rw [ofNat_le small]
    exact Nat.not_le.mpr above
  simp [decodeFrom, notAlone, begins]

/-! ## Whole characters -/

theorem utf8EncodeChar_ascii {c : Char} (ascii : c.toNat < 0x80) :
    String.utf8EncodeChar c = [UInt8.ofNat c.toNat] :=
  if_pos (Nat.le_of_lt_succ ascii)

/-- A byte of a character is the character itself or none of ASCII. -/
theorem mem_utf8EncodeChar {c : Char} {b : UInt8} (inside : b ∈ String.utf8EncodeChar c) :
    (b = UInt8.ofNat c.toNat ∧ c.toNat < 0x80) ∨ 0x80 ≤ b.toNat := by
  have valid := c.valid
  simp only [UInt32.isValidChar, Nat.isValidChar] at valid
  unfold String.utf8EncodeChar at inside
  simp only [Char.toNat]
  generalize c.val.toNat = v at inside valid
  simp only [] at inside
  split at inside
  case isTrue one =>
    rw [List.mem_singleton] at inside
    exact .inl ⟨inside, by omega⟩
  case isFalse =>
    right
    split at inside
    case isTrue =>
      simp only [List.mem_cons, List.not_mem_nil, or_false] at inside
      obtain rfl | rfl := inside <;> simp <;> omega
    case isFalse =>
      split at inside
      case isTrue =>
        simp only [List.mem_cons, List.not_mem_nil, or_false] at inside
        obtain rfl | rfl | rfl := inside <;> simp <;> omega
      case isFalse =>
        simp only [List.mem_cons, List.not_mem_nil, or_false] at inside
        obtain rfl | rfl | rfl | rfl := inside <;> simp <;> omega

theorem mem_of_mem_encode {c : Char} {text : List Char} (ascii : c.toNat < 0x80)
    (inside : UInt8.ofNat c.toNat ∈ encode text) : c ∈ text := by
  obtain ⟨other, held, byte⟩ := List.mem_flatMap.mp inside
  have size : (UInt8.ofNat c.toNat).toNat = c.toNat :=
    UInt8.toNat_ofNat_of_lt' (Nat.lt_trans ascii (by decide))
  obtain ⟨same, otherAscii⟩ | high := mem_utf8EncodeChar byte
  · have otherSize : (UInt8.ofNat other.toNat).toNat = other.toNat :=
      UInt8.toNat_ofNat_of_lt' (Nat.lt_trans otherAscii (by decide))
    have equal : c = other := by
      rw [← Char.toNat_inj, ← size, ← otherSize, same]
    exact equal ▸ held
  · omega

private theorem decodeFrom_utf8EncodeChar (before : List Char) (index : Nat) (c : Char)
    (rest : Bytes) :
    decodeFrom before index none (String.utf8EncodeChar c ++ rest) =
      decodeFrom (c :: before) (index + (String.utf8EncodeChar c).length) none rest := by
  have back : Char.ofNat c.val.toNat = c := Char.ofNat_toNat c
  have valid := c.valid
  simp only [UInt32.isValidChar, Nat.isValidChar] at valid
  unfold String.utf8EncodeChar
  generalize c.val.toNat = v at back valid
  simp only []
  split
  case isTrue one =>
    have small : v < 256 := by omega
    simp [decodeFrom, ofNat_le small, one, back, Nat.mod_eq_of_lt small]
  case isFalse =>
    split
    case isTrue two =>
      simp only [List.cons_append, List.nil_append]
      rw [decodeFrom_begin _ _ _ (by omega) (by omega) (begin?_two (by omega) (by omega)),
        decodeFrom_last _ _ _ (by omega) (by simp) (by simp; omega) rfl]
      have bits : (v / 64 % 32 + 192) % 32 * 64 + (v % 64 + 128) % 64 = v := by omega
      rw [bits, back]
      rfl
    case isFalse =>
      split
      case isTrue three =>
        -- The second byte keeps out overlong forms below and the surrogates above.
        have low : (if v / 4096 % 16 + 224 = 0xE0 then (0xA0 : UInt8) else 0x80).toNat ≤
            v / 64 % 64 + 128 := by
          split
          · simp
            omega
          · simp
        have high : v / 64 % 64 + 128 ≤
            (if v / 4096 % 16 + 224 = 0xED then (0x9F : UInt8) else 0xBF).toNat := by
          split
          · simp
            omega
          · simp
            omega
        simp only [List.cons_append, List.nil_append]
        rw [decodeFrom_begin _ _ _ (by omega) (by omega) (begin?_three (by omega) (by omega)),
          decodeFrom_tail _ _ _ (by omega) (by exact low) (by exact high) (by simp),
          decodeFrom_last _ _ _ (by omega) (by simp) (by simp; omega) rfl]
        have bits : ((v / 4096 % 16 + 224) % 16 * 64 + (v / 64 % 64 + 128) % 64) * 64
            + (v % 64 + 128) % 64 = v := by omega
        rw [bits, back]
        rfl
      case isFalse =>
        -- The second byte keeps out overlong forms below and what lies beyond the last character.
        have low : (if v / 262144 % 8 + 240 = 0xF0 then (0x90 : UInt8) else 0x80).toNat ≤
            v / 4096 % 64 + 128 := by
          split
          · simp
            omega
          · simp
        have high : v / 4096 % 64 + 128 ≤
            (if v / 262144 % 8 + 240 = 0xF4 then (0x8F : UInt8) else 0xBF).toNat := by
          split
          · simp
            omega
          · simp
            omega
        simp only [List.cons_append, List.nil_append]
        rw [decodeFrom_begin _ _ _ (by omega) (by omega) (begin?_four (by omega) (by omega)),
          decodeFrom_tail _ _ _ (by omega) (by exact low) (by exact high) (by simp),
          decodeFrom_tail _ _ _ (by omega) (by simp) (by simp; omega) (by simp),
          decodeFrom_last _ _ _ (by omega) (by simp) (by simp; omega) rfl]
        have bits : (((v / 262144 % 8 + 240) % 8 * 64 + (v / 4096 % 64 + 128) % 64) * 64
            + (v / 64 % 64 + 128) % 64) * 64 + (v % 64 + 128) % 64 = v := by omega
        rw [bits, back]
        rfl

theorem encode_append (left right : List Char) :
    encode (left ++ right) = encode left ++ encode right := by
  simp [encode]

private theorem decodeFrom_encode (before : List Char) (index : Nat) (text : List Char) :
    decodeFrom before index none (encode text) = .ok (before.reverse ++ text) := by
  induction text generalizing before index with
  | nil => simp [encode, decodeFrom]
  | cons c text ih =>
    have step := decodeFrom_utf8EncodeChar before index c (encode text)
    rw [ih] at step
    simpa [encode] using step

theorem decode_encode (text : List Char) : decode (encode text) = .ok text :=
  decodeFrom_encode [] 0 text

theorem toString?_ofString (text : String) : toString? (ofString text) = some text := by
  simp [toString?, ofString, decode_encode]

/-! ## What is read was written -/

private theorem val_ofNat {v : Nat} (valid : v.isValidChar) : (Char.ofNat v).val.toNat = v := by
  rw [Char.ofNat, dif_pos valid]
  rfl

private theorem utf8EncodeChar_two {v : Nat} (b₁ b₂ : UInt8) (low : 0x80 ≤ v) (high : v ≤ 0x7FF)
    (first : b₁.toNat = v / 64 + 192) (second : b₂.toNat = v % 64 + 128) :
    String.utf8EncodeChar (Char.ofNat v) = [b₁, b₂] := by
  unfold String.utf8EncodeChar
  rw [val_ofNat (.inl (by omega))]
  dsimp only
  rw [if_neg (by omega), if_pos (by omega)]
  simp only [List.cons.injEq, ← UInt8.toNat_inj, UInt8.toNat_ofNat', first, second, and_true]
  omega

private theorem utf8EncodeChar_three {v : Nat} (b₁ b₂ b₃ : UInt8) (valid : v.isValidChar)
    (low : 0x800 ≤ v) (high : v ≤ 0xFFFF) (first : b₁.toNat = v / 4096 + 224)
    (second : b₂.toNat = v / 64 % 64 + 128) (third : b₃.toNat = v % 64 + 128) :
    String.utf8EncodeChar (Char.ofNat v) = [b₁, b₂, b₃] := by
  unfold String.utf8EncodeChar
  rw [val_ofNat valid]
  dsimp only
  rw [if_neg (by omega), if_neg (by omega), if_pos (by omega)]
  simp only [List.cons.injEq, ← UInt8.toNat_inj, UInt8.toNat_ofNat', first, second, third, and_true]
  omega

private theorem utf8EncodeChar_four {v : Nat} (b₁ b₂ b₃ b₄ : UInt8) (low : 0x10000 ≤ v)
    (high : v ≤ 0x10FFFF) (first : b₁.toNat = v / 262144 + 240)
    (second : b₂.toNat = v / 4096 % 64 + 128) (third : b₃.toNat = v / 64 % 64 + 128)
    (fourth : b₄.toNat = v % 64 + 128) :
    String.utf8EncodeChar (Char.ofNat v) = [b₁, b₂, b₃, b₄] := by
  unfold String.utf8EncodeChar
  rw [val_ofNat (.inr (by omega))]
  dsimp only
  rw [if_neg (by omega), if_neg (by omega), if_neg (by omega)]
  simp only [List.cons.injEq, ← UInt8.toNat_inj, UInt8.toNat_ofNat', first, second, third, fourth,
    and_true]
  omega

section

variable {before text : List Char} {index : Nat} {bytes : Bytes}

/-- Inside a character the next byte is within the bounds, and ends the character if none is due
behind it. -/
private theorem decodeFrom_open {held : Partial}
    (read : decodeFrom before index (some held) bytes = .ok text) :
    ∃ b behind, bytes = b :: behind ∧ held.low.toNat ≤ b.toNat ∧ b.toNat ≤ held.high.toNat ∧
      (if held.due = 1 then
        decodeFrom (Char.ofNat (held.bits * 64 + b.toNat % 64) :: before) (index + held.taken + 1)
          none behind
      else
        decodeFrom before index (some
          ⟨held.bits * 64 + b.toNat % 64, held.taken + 1, held.due - 1, 0x80, 0xBF⟩) behind) =
        .ok text := by
  cases bytes with
  | nil => cases read
  | cons b behind =>
    rw [decodeFrom] at read
    dsimp only [tailBits] at read
    split at read
    · rename_i bounds
      rw [Bool.and_eq_true, decide_eq_true_eq, decide_eq_true_eq] at bounds
      exact ⟨b, behind, rfl, bounds.1, bounds.2, read⟩
    · cases read

/-- The bytes begin with those of one character, and the text goes on with what is behind it. -/
private def Takes (before : List Char) (bytes : Bytes) (text : List Char) : Prop :=
  ∃ c behind next, bytes = String.utf8EncodeChar c ++ behind ∧
    decodeFrom (c :: before) next none behind = .ok text

private theorem takes_one {b : UInt8} (ascii : b.toNat ≤ 0x7F)
    (read : decodeFrom (Char.ofNat b.toNat :: before) index none bytes = .ok text) :
    Takes before (b :: bytes) text := by
  refine ⟨_, bytes, _, ?_, read⟩
  have value : (Char.ofNat b.toNat).toNat = b.toNat := val_ofNat (.inl (by omega))
  rw [utf8EncodeChar_ascii (by omega), value, UInt8.ofNat_toNat]
  rfl

private theorem takes_two {b₁ : UInt8} (least₁ : 0xC2 ≤ b₁.toNat) (most₁ : b₁.toNat ≤ 0xDF)
    (read : decodeFrom before index (begin? b₁) bytes = .ok text) :
    Takes before (b₁ :: bytes) text := by
  have begun := begin?_two least₁ most₁
  rw [UInt8.ofNat_toNat] at begun
  rw [begun] at read
  obtain ⟨b₂, bytes, rfl, least₂, most₂, read⟩ := decodeFrom_open read
  simp only [UInt8.reduceToNat, if_true] at least₂ most₂ read
  refine ⟨_, bytes, _, ?_, read⟩
  rw [utf8EncodeChar_two b₁ b₂ (by omega) (by omega) (by omega) (by omega)]
  rfl

private theorem takes_three {b₁ : UInt8} (least₁ : 0xE0 ≤ b₁.toNat) (most₁ : b₁.toNat ≤ 0xEF)
    (read : decodeFrom before index (begin? b₁) bytes = .ok text) :
    Takes before (b₁ :: bytes) text := by
  have begun := begin?_three least₁ most₁
  rw [UInt8.ofNat_toNat] at begun
  rw [begun] at read
  obtain ⟨b₂, bytes, rfl, least₂, most₂, read⟩ := decodeFrom_open read
  rw [if_neg (by simp)] at read
  obtain ⟨b₃, bytes, rfl, least₃, most₃, read⟩ := decodeFrom_open read
  simp only [UInt8.reduceToNat, if_true] at least₃ most₃ read
  refine ⟨_, bytes, _, ?_, read⟩
  -- The bounds of the second byte keep out overlong forms below and the surrogates above.
  have overlong : 0x80 ≤ b₂.toNat ∧ (b₁.toNat = 0xE0 → 0xA0 ≤ b₂.toNat) := by
    dsimp only at least₂
    split at least₂ <;> simp only [UInt8.reduceToNat] at least₂ <;> omega
  have surrogate : b₂.toNat ≤ 0xBF ∧ (b₁.toNat = 0xED → b₂.toNat ≤ 0x9F) := by
    dsimp only at most₂
    split at most₂ <;> simp only [UInt8.reduceToNat] at most₂ <;> omega
  rw [utf8EncodeChar_three b₁ b₂ b₃ (by unfold Nat.isValidChar; omega)
    (by omega) (by omega) (by omega) (by omega) (by omega)]
  rfl

private theorem takes_four {b₁ : UInt8} (least₁ : 0xF0 ≤ b₁.toNat) (most₁ : b₁.toNat ≤ 0xF4)
    (read : decodeFrom before index (begin? b₁) bytes = .ok text) :
    Takes before (b₁ :: bytes) text := by
  have begun := begin?_four least₁ most₁
  rw [UInt8.ofNat_toNat] at begun
  rw [begun] at read
  obtain ⟨b₂, bytes, rfl, least₂, most₂, read⟩ := decodeFrom_open read
  rw [if_neg (by simp)] at read
  obtain ⟨b₃, bytes, rfl, least₃, most₃, read⟩ := decodeFrom_open read
  rw [if_neg (by simp)] at read
  obtain ⟨b₄, bytes, rfl, least₄, most₄, read⟩ := decodeFrom_open read
  simp only [UInt8.reduceToNat, if_true] at least₃ most₃ least₄ most₄ read
  refine ⟨_, bytes, _, ?_, read⟩
  -- The bounds of the second byte keep out overlong forms below and what lies beyond U+10FFFF.
  have overlong : 0x80 ≤ b₂.toNat ∧ (b₁.toNat = 0xF0 → 0x90 ≤ b₂.toNat) := by
    dsimp only at least₂
    split at least₂ <;> simp only [UInt8.reduceToNat] at least₂ <;> omega
  have beyond : b₂.toNat ≤ 0xBF ∧ (b₁.toNat = 0xF4 → b₂.toNat ≤ 0x8F) := by
    dsimp only at most₂
    split at most₂ <;> simp only [UInt8.reduceToNat] at most₂ <;> omega
  rw [utf8EncodeChar_four b₁ b₂ b₃ b₄ (by omega) (by omega)
    (by omega) (by omega) (by omega) (by omega)]
  rfl

private theorem begin?_unsound {n : Nat} (small : n < 256) (above : 0x7F < n)
    (outside : n < 0xC2 ∨ 0xF4 < n) : begin? (UInt8.ofNat n) = none := by
  have unsound : lead (UInt8.ofNat n) = .unsound := by
    rw [lead_ofNat small, if_neg (by omega)]
    split
    · rfl
    · repeat rw [if_neg (by omega)]
  rw [begin?, unsound]

private theorem takes_of_decodeFrom {b : UInt8}
    (read : decodeFrom before index none (b :: bytes) = .ok text) :
    Takes before (b :: bytes) text := by
  rw [decodeFrom] at read
  split at read
  case isTrue ascii => exact takes_one (UInt8.le_iff_toNat_le.mp ascii) read
  case isFalse notAscii =>
    have above : 0x7F < b.toNat := Nat.not_le.mp fun ascii =>
      notAscii (UInt8.le_iff_toNat_le.mpr ascii)
    have begun : decodeFrom before index (begin? b) bytes = .ok text ∧
        ¬ (b.toNat < 0xC2 ∨ 0xF4 < b.toNat) := by
      split at read
      · cases read
      · rename_i begins
        refine ⟨begins ▸ read, fun outside => ?_⟩
        have unsound := begin?_unsound b.toNat_lt above outside
        rw [UInt8.ofNat_toNat, begins] at unsound
        cases unsound
    obtain ⟨read, inside⟩ := begun
    by_cases two : b.toNat ≤ 0xDF
    · exact takes_two (by omega) two read
    by_cases three : b.toNat ≤ 0xEF
    · exact takes_three (by omega) three read
    · exact takes_four (by omega) (by omega) read

private theorem decodeFrom_ok (read : decodeFrom before index none bytes = .ok text) :
    ∃ rest, text = before.reverse ++ rest ∧ bytes = encode rest := by
  induction size : bytes.length using Nat.strongRecOn generalizing before index bytes with
  | ind count ih =>
    cases bytes with
    | nil =>
      cases read
      exact ⟨[], by simp, rfl⟩
    | cons b bytes =>
      obtain ⟨c, behind, next, split, read⟩ := takes_of_decodeFrom read
      have shorter : behind.length < count := by
        have whole := congrArg List.length split
        have some : 0 < (String.utf8EncodeChar c).length := by
          rw [String.length_utf8EncodeChar]
          exact c.utf8Size_pos
        rw [List.length_append] at whole
        omega
      obtain ⟨rest, rfl, rfl⟩ := ih _ shorter read rfl
      exact ⟨c :: rest, by simp, split⟩

theorem decode_eq_ok_iff : decode bytes = .ok text ↔ bytes = encode text := by
  constructor
  · intro read
    obtain ⟨rest, rfl, rfl⟩ := decodeFrom_ok read
    rfl
  · rintro rfl
    exact decode_encode text

end

end Airlock.Text.Utf8
