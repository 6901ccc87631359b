import Airlock.MessagePack.Reader
import Airlock.MessagePack.Writer

/-!
# Heads written and read back

The first byte of a written value, and the number behind it if there is one, are read as the head of
that value: a scalar, or the length of a text, an array or a map. The form is always the shortest one
that holds the number.
-/

set_option autoImplicit false

namespace Airlock.MessagePack

/-! ## Numbers of a fixed width -/

private theorem length_bigEndian (width n : Nat) : (bigEndian width n).length = width := by
  induction width with
  | zero => rfl
  | succ width ih => simp [bigEndian, ih]

private theorem foldl_bigEndian (width n before : Nat) :
    (bigEndian width n).foldl (fun n b => n * 256 + b.toNat) before =
      before * Nat.pow 256 width + n % Nat.pow 256 width := by
  induction width generalizing before with
  | zero => simp [bigEndian, Nat.mod_one]
  | succ width ih =>
    have byte : (UInt8.ofNat (n / Nat.pow 256 width)).toNat = n / Nat.pow 256 width % 256 :=
      UInt8.toNat_ofNat
    have low : n % Nat.pow 256 (width + 1) =
        n % Nat.pow 256 width + Nat.pow 256 width * (n / Nat.pow 256 width % 256) :=
      Nat.mod_pow_succ
    have scale : Nat.pow 256 (width + 1) = Nat.pow 256 width * 256 := rfl
    rw [bigEndian, List.foldl_cons, ih, byte, low, scale]
    generalize Nat.pow 256 width = power
    calc (before * 256 + n / power % 256) * power + n % power
        = before * 256 * power + n / power % 256 * power + n % power := by rw [Nat.add_mul]
      _ = before * (power * 256) + (n % power + power * (n / power % 256)) := by
          rw [Nat.mul_assoc, Nat.mul_comm 256, Nat.mul_comm (n / power % 256)]
          omega

private theorem ofBigEndian_bigEndian {width n : Nat} (fits : n < Nat.pow 256 width) :
    ofBigEndian (bigEndian width n) = n := by
  rw [ofBigEndian, foldl_bigEndian, Nat.mod_eq_of_lt fits, Nat.zero_mul, Nat.zero_add]

theorem takeExactly_append {count : Nat} {bytes : Bytes} (exact : bytes.length = count)
    (rest : Bytes) : takeExactly count (bytes ++ rest) = some (bytes, rest) := by
  subst exact
  simp [takeExactly]

private theorem readField_bigEndian {width n : Nat} (fits : n < Nat.pow 256 width)
    (head : Nat → Head)
    (rest : Bytes) : readField width (bigEndian width n ++ rest) head = some (head n, rest) := by
  simp [readField, readNat, takeExactly_append (length_bigEndian width n),
    ofBigEndian_bigEndian fits]

/-! ## Heads of texts and containers -/

def head? : Bytes → Option (Head × Bytes)
  | [] => none
  | tag :: rest => readHead tag rest

private theorem toNat_tag {n : Nat} (small : n < 256) : (UInt8.ofNat n).toNat = n :=
  UInt8.toNat_ofNat_of_lt' small

private theorem counted_of_lt {length : Nat} (fits : length < 0x100000000) :
    counted length = length :=
  Nat.mod_eq_of_lt fits

theorem head?_textHead {length : Nat} (fits : length < 0x100000000) (rest : Bytes) :
    head? (textHead length ++ rest) = some (.text length, rest) := by
  simp only [textHead, counted_of_lt fits]
  split
  case isTrue short =>
    have tag : (UInt8.ofNat (0xa0 + length)).toNat = 0xa0 + length := toNat_tag (by omega)
    simp only [List.cons_append, List.nil_append, head?, readHead, tag]
    rw [if_neg (by omega), if_neg (by omega), if_neg (by omega), if_pos (by omega),
      Nat.add_sub_cancel_left]
  case isFalse =>
    split
    case isTrue byte => exact @readField_bigEndian 1 _ byte .text rest
    case isFalse =>
      split
      case isTrue two => exact @readField_bigEndian 2 _ two .text rest
      case isFalse => exact @readField_bigEndian 4 _ fits .text rest

theorem head?_arrayHead {count : Nat} (fits : count < 0x100000000) (rest : Bytes) :
    head? (arrayHead count ++ rest) = some (.array count, rest) := by
  simp only [arrayHead, counted_of_lt fits]
  split
  case isTrue short =>
    have tag : (UInt8.ofNat (0x90 + count)).toNat = 0x90 + count := toNat_tag (by omega)
    simp only [List.cons_append, List.nil_append, head?, readHead, tag]
    rw [if_neg (by omega), if_neg (by omega), if_pos (by omega), Nat.add_sub_cancel_left]
  case isFalse =>
    split
    case isTrue two => exact @readField_bigEndian 2 _ two .array rest
    case isFalse => exact @readField_bigEndian 4 _ fits .array rest

theorem head?_mapHead {count : Nat} (fits : count < 0x100000000) (rest : Bytes) :
    head? (mapHead count ++ rest) = some (.map count, rest) := by
  simp only [mapHead, counted_of_lt fits]
  split
  case isTrue short =>
    have tag : (UInt8.ofNat (0x80 + count)).toNat = 0x80 + count := toNat_tag (by omega)
    simp only [List.cons_append, List.nil_append, head?, readHead, tag]
    rw [if_neg (by omega), if_pos (by omega), Nat.add_sub_cancel_left]
  case isFalse =>
    split
    case isTrue two => exact @readField_bigEndian 2 _ two .map rest
    case isFalse => exact @readField_bigEndian 4 _ fits .map rest

/-! ## Numbers -/

private theorem head?_unsigned {n : Nat} (fits : n < 0x10000000000000000) (rest : Bytes) :
    head? (unsigned n ++ rest) = some (.scalar (ofInt n), rest) := by
  unfold unsigned
  split
  case isTrue short =>
    have tag : (UInt8.ofNat n).toNat = n := toNat_tag (by omega)
    simp only [List.cons_append, List.nil_append, head?, readHead, tag]
    rw [if_pos (by omega)]
  case isFalse =>
    split
    case isTrue byte => exact @readField_bigEndian 1 _ byte (fun n => .scalar (ofInt n)) rest
    case isFalse =>
      split
      case isTrue two => exact @readField_bigEndian 2 _ two (fun n => .scalar (ofInt n)) rest
      case isFalse =>
        split
        case isTrue four => exact @readField_bigEndian 4 _ four (fun n => .scalar (ofInt n)) rest
        case isFalse => exact @readField_bigEndian 8 _ fits (fun n => .scalar (ofInt n)) rest

private theorem ofComplement_complement {width size : Nat} (positive : 0 < size)
    (fits : 2 * size ≤ Nat.pow 256 width) :
    ofComplement width (complement width size) = -(size : Int) := by
  unfold ofComplement complement
  split
  · omega
  · omega

private theorem readSigned_complement {width size : Nat} (positive : 0 < size)
    (fits : 2 * size ≤ Nat.pow 256 width) (rest : Bytes) :
    readSigned width (bigEndian width (complement width size) ++ rest) =
      some (.scalar (ofInt (-(size : Int))), rest) := by
  have below : complement width size < Nat.pow 256 width := by
    unfold complement
    omega
  rw [readSigned, readField_bigEndian below, ofComplement_complement positive fits]

private theorem readHead_high {tag : UInt8} (high : 0xe0 ≤ tag.toNat) (rest : Bytes) :
    readHead tag rest = some (.scalar (ofInt ((tag.toNat : Int) - 256)), rest) := by
  unfold readHead
  -- No tag below 0xe0 comes into question.
  repeat rw [if_neg (by omega)]
  rw [if_pos high]

private theorem head?_negative {size : Nat} (positive : 0 < size) (fits : size ≤ 0x8000000000000000)
    (rest : Bytes) :
    head? (negative size ++ rest) = some (.scalar (ofInt (-(size : Int))), rest) := by
  unfold negative
  split
  case isTrue short =>
    have tag : (UInt8.ofNat (complement 1 size)).toNat = 256 - size :=
      toNat_tag (Nat.sub_lt (by decide) positive)
    have size : ((256 - size : Nat) : Int) - 256 = -(size : Int) := by omega
    rw [List.cons_append, List.nil_append, head?, readHead_high (by omega), tag, size]
  case isFalse =>
    split
    case isTrue =>
      have fits : 2 * size ≤ 0x100 := by omega
      exact @readSigned_complement 1 _ positive fits rest
    case isFalse =>
      split
      case isTrue =>
        have fits : 2 * size ≤ 0x10000 := by omega
        exact @readSigned_complement 2 _ positive fits rest
      case isFalse =>
        split
        case isTrue =>
          have fits : 2 * size ≤ 0x100000000 := by omega
          exact @readSigned_complement 4 _ positive fits rest
        case isFalse =>
          have fits : 2 * size ≤ 0x10000000000000000 := by omega
          exact @readSigned_complement 8 _ positive fits rest

private theorem ofInt_val (n : Integer) : ofInt n.val = .number (.integer n) := by
  have held : Integer.ofInt? n.val = some n := dif_pos n.inRange
  rw [ofInt, held]

theorem head?_number (n : Number) (rest : Bytes) :
    head? (number n ++ rest) = some (.scalar (.number n), rest) := by
  cases n with
  | integer n =>
    have ⟨low, high⟩ := n.inRange
    rw [number, ← ofInt_val]
    split
    case isTrue negative =>
      have size : -(n.val.natAbs : Int) = n.val := by omega
      rw [head?_negative (by omega) (by omega), size]
    case isFalse =>
      have size : (n.val.toNat : Int) = n.val := by omega
      rw [head?_unsigned (by omega), size]
  | double d =>
    have bits : Double.ofBits? (UInt64.ofNat d.bits.toNat) = some d := by
      rw [UInt64.ofNat_toNat]
      exact d.ofBits?_bits
    have fits : d.bits.toNat < Nat.pow 256 8 := d.bits.toNat_lt
    have read := readField_bigEndian fits
      (fun n => .scalar (ofDouble? (Double.ofBits? (UInt64.ofNat n)))) rest
    simp only [bits] at read
    exact read

end Airlock.MessagePack
