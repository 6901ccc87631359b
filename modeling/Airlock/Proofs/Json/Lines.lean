import Airlock.Json.Printer
import Airlock.Proofs.Json.Numbers
import Airlock.Proofs.Text.Lines

/-!
# Compact text on a line of its own

The compact text of a value has no control characters: strings escape theirs, and nothing else holds
any. So texts that are printed one after the other, each with a line feed behind it, are the lines
of what was printed.
-/

set_option autoImplicit false

namespace Airlock

/-- The text has no control characters. -/
def Text.Clean (text : List Char) : Prop :=
  ∀ c ∈ text, 0x20 ≤ c.toNat

namespace Text

instance (text : List Char) : Decidable (Clean text) :=
  List.decidableBAll _ text

private theorem Clean.append {first second : List Char} (clean : Clean first)
    (others : Clean second) :
    Clean (first ++ second) :=
  List.forall_mem_append.mpr ⟨clean, others⟩

private theorem Clean.cons {c : Char} {rest : List Char} (shown : 0x20 ≤ c.toNat)
    (clean : Clean rest) :
    Clean (c :: rest) :=
  List.forall_mem_cons.mpr ⟨shown, clean⟩

private theorem clean_nil : Clean [] :=
  List.forall_mem_nil _

/-! ## Lines -/

private theorem dropReturn_clean {taken : List Char} (clean : Clean taken) :
    dropReturn taken = taken :=
  dropReturn_eq_self fun returned =>
    absurd (clean '\r' (List.mem_of_head? returned)) (by decide)

private theorem linesFrom_clean {taken line : List Char} (before : Clean taken) (clean : Clean line)
    (rest : List Char) :
    linesFrom taken (line ++ '\n' :: rest) = (taken.reverse ++ line) :: lines rest := by
  induction line generalizing taken with
  | nil =>
    rw [List.nil_append, linesFrom, if_pos rfl, dropReturn_clean before, List.append_nil]
    rfl
  | cons c line ih =>
    obtain ⟨shown, others⟩ := List.forall_mem_cons.mp clean
    have more : c ≠ '\n' := by
      rintro rfl
      exact absurd shown (by decide)
    rw [List.cons_append, linesFrom, if_neg more, ih (before.cons shown) others,
      List.reverse_cons, List.append_assoc]
    rfl

/-- Clean texts with a line feed behind each are the lines of the whole. -/
theorem lines_clean {texts : List (List Char)} (clean : ∀ text ∈ texts, Clean text) :
    lines (texts.flatMap fun text => text ++ ['\n']) = texts := by
  induction texts with
  | nil => rfl
  | cons text rest ih =>
    obtain ⟨here, others⟩ := List.forall_mem_cons.mp clean
    rw [List.flatMap_cons, List.append_assoc]
    have first := linesFrom_clean clean_nil here (rest.flatMap fun text => text ++ ['\n'])
    rw [ih others] at first
    exact first

end Text

namespace Json

open Text (Clean)

private theorem hexDigit_shown {n : Nat} (small : n < 16) : 0x20 ≤ (hexDigit n).toNat := by
  have all : ∀ n < 16, 0x20 ≤ (hexDigit n).toNat := by decide
  exact all n small

private theorem escapedChar_clean (c : Char) : Clean (escapedChar c) := by
  unfold escapedChar
  split
  · decide
  iterate 6
    split
    · decide
  split
  next control =>
    have high : 0x20 ≤ (hexDigit (c.toNat / 16)).toNat := hexDigit_shown (by omega)
    have low : 0x20 ≤ (hexDigit (c.toNat % 16)).toNat := hexDigit_shown (by omega)
    have escape : Clean ['\\', 'u', '0', '0'] := by decide
    exact escape.append (.cons high (.cons low Text.clean_nil))
  next shown => exact .cons (Nat.not_lt.mp shown) Text.clean_nil

private theorem stringText_clean (text : String) : Clean (stringText text) := by
  have quote : Clean ['"'] := by decide
  refine (quote.append ?_).append quote
  intro c inside
  obtain ⟨from?, -, escaped⟩ := List.mem_flatMap.mp inside
  exact escapedChar_clean from? c escaped

private theorem number_clean (n : Number) : Clean n.text := by
  have digit {c : Char} (digit : c.isDigit = true) : 0x20 ≤ c.toNat := by
    have bounds : 48 ≤ c.toNat ∧ c.toNat ≤ 57 := by
      simpa [Char.isDigit, UInt32.le_iff_toNat_le] using digit
    exact Nat.le_trans (by decide) bounds.1
  cases n with
  | double d =>
    intro c inside
    obtain decimal | sign := d.text_numberChar c inside
    · exact digit decimal
    · simp only [List.mem_cons, List.not_mem_nil, or_false] at sign
      obtain rfl | rfl | rfl | rfl := sign <;> decide
  | integer n =>
    have digits : Clean (Nat.toDigits 10 n.val.natAbs) := fun c inside =>
      digit (Nat.isDigit_of_mem_toDigits (by decide) (by decide) inside)
    show Clean (if n.val < 0 then _ else _)
    split
    · exact .cons (by decide) digits
    · exact digits

mutual

theorem text_clean : ∀ value : Value, Clean (text value)
  | .null => by decide
  | .bool true => by decide
  | .bool false => by decide
  | .number n => number_clean n
  | .string s => stringText_clean s
  | .array [] => by decide
  | .array (item :: rest) => ((text_clean item).append (itemsText_clean rest)).cons (by decide)
  | .object [] => by decide
  | .object ((key, value) :: rest) =>
    .cons (by decide) ((stringText_clean key).append
      (.cons (by decide) ((text_clean value).append (membersText_clean rest))))

private theorem itemsText_clean : ∀ items : List Value, Clean (itemsText items)
  | [] => by decide
  | item :: rest => .cons (by decide) ((text_clean item).append (itemsText_clean rest))

private theorem membersText_clean : ∀ members : Members, Clean (membersText members)
  | [] => by decide
  | (key, value) :: rest =>
    .cons (by decide) ((stringText_clean key).append
      (.cons (by decide) ((text_clean value).append (membersText_clean rest))))

end

end Json

end Airlock
