import Airlock.Text.Lines

/-!
# Texts made of lines

A text that is empty or ends in a line feed is made of whole lines: what follows it only adds lines.
A text is parted into rows, which are lines with their endings, and the rest behind the last line
feed. Whether a row ends in a line feed alone or with a carriage return before it is all the same
for its line.
-/

set_option autoImplicit false

namespace Airlock.Text

/-- No line is left open. -/
def Whole (text : List Char) : Prop :=
  text = [] ∨ text.getLast? = some '\n'

instance (text : List Char) : Decidable (Whole text) :=
  inferInstanceAs (Decidable (_ ∨ _))

/-- One line with its ending. -/
def IsRow (row : List Char) : Prop :=
  ∃ line, row = line ++ ['\n'] ∧ '\n' ∉ line

/-- The rows of a text and what is behind its last line feed. -/
structure Splits (text : List Char) (rows : List (List Char)) (rest : List Char) : Prop where
  joined : text = rows.flatten ++ rest
  rows : ∀ row ∈ rows, IsRow row
  rest : '\n' ∉ rest

/-- Puts a carriage return before each line feed that has none. The flag says whether the text
follows a carriage return. -/
def withReturns (returned : Bool) : List Char → List Char
  | [] => []
  | c :: text =>
    if c = '\n' ∧ returned = false then '\r' :: '\n' :: withReturns false text
    else c :: withReturns (c = '\r') text

variable {text line taken : List Char}

theorem IsRow.whole (row : IsRow text) : Whole text := by
  obtain ⟨line, rfl, -⟩ := row
  exact .inr List.getLast?_concat

/-! ## Lines of texts that are put together -/

private theorem linesFrom_append (taken text rest : List Char) :
    linesFrom taken (text ++ '\n' :: rest) = linesFrom taken (text ++ ['\n']) ++ lines rest := by
  induction text generalizing taken with
  | nil => simp [linesFrom, lines]
  | cons c text ih =>
    rw [List.cons_append, List.cons_append, linesFrom, linesFrom]
    split
    · rw [ih, List.cons_append]
    · exact ih _

/-- What follows a whole text only adds lines. -/
theorem lines_append (whole : Whole text) (rest : List Char) :
    lines (text ++ rest) = lines text ++ lines rest := by
  obtain rfl | ended := whole
  · rfl
  · obtain ⟨before, rfl⟩ := List.getLast?_eq_some_iff.mp ended
    rw [List.append_assoc]
    exact linesFrom_append [] before rest

/-! ## How many lines there are -/

private theorem length_linesFrom_ended (taken text : List Char) :
    (linesFrom taken (text ++ ['\n'])).length = text.count '\n' + 1 := by
  induction text generalizing taken with
  | nil => simp [linesFrom]
  | cons c text ih =>
    rw [List.cons_append, linesFrom]
    split
    · rename_i ends
      rw [List.length_cons, ih, ends, List.count_cons_self]
    · rename_i more
      rw [ih, List.count_cons_of_ne more]

/-- A whole text has as many lines as line feeds. -/
theorem length_lines (whole : Whole text) : (lines text).length = text.count '\n' := by
  obtain rfl | ended := whole
  · rfl
  · obtain ⟨before, rfl⟩ := List.getLast?_eq_some_iff.mp ended
    rw [List.count_append]
    exact length_linesFrom_ended [] before

theorem IsRow.length_lines (row : IsRow text) : (lines text).length = 1 := by
  obtain ⟨line, rfl, inside⟩ := row
  rw [← List.count_eq_zero] at inside
  exact (length_linesFrom_ended [] line).trans (congrArg (· + 1) inside)

theorem length_linesFrom_le (taken text : List Char) :
    (linesFrom taken text).length ≤ text.count '\n' + 1 := by
  induction text generalizing taken with
  | nil =>
    rw [linesFrom]
    split <;> simp
  | cons c text ih =>
    rw [linesFrom]
    split
    · rename_i ends
      rw [List.length_cons, ends, List.count_cons_self]
      exact Nat.succ_le_succ (ih [])
    · rename_i more
      rw [List.count_cons_of_ne more]
      exact ih _

/-! ## Rows -/

/-- Every text is parted into rows and a rest. -/
theorem exists_splits (text : List Char) : ∃ rows rest, Splits text rows rest := by
  induction text with
  | nil => exact ⟨[], [], rfl, List.forall_mem_nil _, List.not_mem_nil⟩
  | cons c text ih =>
    obtain ⟨rows, rest, rfl, each, inside⟩ := ih
    by_cases ends : c = '\n'
    · subst ends
      exact ⟨['\n'] :: rows, rest, rfl,
        List.forall_mem_cons.mpr ⟨⟨[], rfl, List.not_mem_nil⟩, each⟩, inside⟩
    cases rows with
    | nil =>
      exact ⟨[], c :: rest, rfl, each, List.not_mem_cons_of_ne_of_not_mem (Ne.symm ends) inside⟩
    | cons row rows =>
      obtain ⟨⟨line, rfl, more⟩, others⟩ := List.forall_mem_cons.mp each
      have longer : IsRow (c :: line ++ ['\n']) :=
        ⟨c :: line, rfl, List.not_mem_cons_of_ne_of_not_mem (Ne.symm ends) more⟩
      exact ⟨_ :: rows, rest, rfl, List.forall_mem_cons.mpr ⟨longer, others⟩, inside⟩

/-! ## Carriage returns -/

theorem dropReturn_eq_self (other : taken.head? ≠ some '\r') : dropReturn taken = taken := by
  cases taken with
  | nil => rfl
  | cons c taken =>
    rw [dropReturn, if_neg]
    rintro rfl
    exact other rfl

private theorem linesFrom_withReturns (taken text : List Char) :
    linesFrom taken (withReturns (taken.head? = some '\r') text) = linesFrom taken text := by
  induction text generalizing taken with
  | nil => rfl
  | cons c text ih =>
    by_cases ends : c = '\n'
    · subst ends
      by_cases returned : taken.head? = some '\r'
      · rw [withReturns, if_neg (by simp [returned]), linesFrom, linesFrom, if_pos rfl, if_pos rfl]
        exact congrArg _ (ih [])
      · rw [withReturns, if_pos (by simp [returned]), linesFrom, if_neg (by decide), linesFrom,
          if_pos rfl, linesFrom, if_pos rfl, dropReturn_eq_self returned]
        exact congrArg _ (ih [])
    · rw [withReturns, if_neg (by simp [ends]), linesFrom, linesFrom, if_neg ends, if_neg ends]
      have further := ih (c :: taken)
      simpa using further

theorem lines_withReturns (text : List Char) : lines (withReturns false text) = lines text :=
  linesFrom_withReturns [] text

end Airlock.Text
