import Airlock.Document.Word

/-!
# The word at a position

A run is a part of a line that is not empty and holds only characters of words; it is maximal when
no other run goes beyond it. Two runs that touch one cursor join to a run, so at most one maximal
run touches a cursor. The word at a position is that run, and the two walks that find its ends never
read a character outside the line.
-/

set_option autoImplicit false

namespace Airlock.Document

variable (alphanumeric : Char → Bool)

/-! ## Runs -/

/-- Whether the character at an index of a line is one of a word; there is none beyond the line. -/
def partAt (row : List Char) (index : Nat) : Bool :=
  row[index]?.any (isWordPart alphanumeric)

/-- Whether the character just before an index of a line is one of a word. -/
def partBefore (row : List Char) : Nat → Bool
  | 0 => false
  | index + 1 => partAt alphanumeric row index

structure IsRun (row : List Char) (start stop : Nat) : Prop where
  nonempty : start < stop
  made : ∀ index, start ≤ index → index < stop → partAt alphanumeric row index = true

structure IsMaximalRun (row : List Char) (start stop : Nat) : Prop where
  run : IsRun alphanumeric row start stop
  widest : ∀ start' stop', IsRun alphanumeric row start' stop' → start' ≤ start → stop ≤ stop' →
    start' = start ∧ stop' = stop

/-- The maximal run stands around the cursor, or the cursor stands at one of its ends. -/
structure Touches (row : List Char) (cursor start stop : Nat) : Prop where
  maximal : IsMaximalRun alphanumeric row start stop
  after : start ≤ cursor
  before : cursor ≤ stop

variable {alphanumeric} {row : List Char} {start stop start' stop' cursor index : Nat}

theorem partAt_eq_true_iff :
    partAt alphanumeric row index = true ↔
      ∃ c, row[index]? = some c ∧ isWordPart alphanumeric c = true := by
  rw [partAt, Option.any_eq_true]

private theorem lt_of_partAt (part : partAt alphanumeric row index = true) :
    index < row.length := by
  obtain ⟨c, present, _⟩ := partAt_eq_true_iff.mp part
  exact (List.getElem?_eq_some_iff.mp present).choose

private theorem partAt_beyond (beyond : row.length ≤ index) :
    partAt alphanumeric row index = false := by
  rw [partAt, List.getElem?_eq_none beyond, Option.any_none]

namespace IsRun

theorem inside (run : IsRun alphanumeric row start stop) : stop ≤ row.length := by
  have nonempty := run.nonempty
  have last := lt_of_partAt (run.made (stop - 1) (by omega) (by omega))
  omega

/-- Runs that touch one cursor join to a run. -/
theorem join (run : IsRun alphanumeric row start stop)
    (other : IsRun alphanumeric row start' stop') (after : start ≤ cursor) (before : cursor ≤ stop)
    (after' : start' ≤ cursor) (before' : cursor ≤ stop') :
    IsRun alphanumeric row (min start start') (max stop stop') where
  nonempty := by
    have nonempty := run.nonempty
    omega
  made := by
    intro index lower upper
    by_cases within : start ≤ index ∧ index < stop
    · exact run.made index within.1 within.2
    · exact other.made index (by omega) (by omega)

end IsRun

/-- A run is maximal when the characters on both sides of it are not of a word. -/
theorem isMaximalRun_iff :
    IsMaximalRun alphanumeric row start stop ↔
      IsRun alphanumeric row start stop ∧ partBefore alphanumeric row start = false ∧
        partAt alphanumeric row stop = false := by
  constructor
  · intro maximal
    have run := maximal.run
    have nonempty := run.nonempty
    refine ⟨run, Bool.eq_false_iff.mpr fun part => ?_, Bool.eq_false_iff.mpr fun part => ?_⟩
    · cases start with
      | zero => cases part
      | succ before =>
        have wider : IsRun alphanumeric row before stop := by
          refine ⟨by omega, fun index lower upper => ?_⟩
          obtain rfl | above := Nat.eq_or_lt_of_le lower
          · exact part
          · exact run.made index above upper
        have := (maximal.widest before stop wider (Nat.le_succ before) (Nat.le_refl stop)).1
        omega
    · have wider : IsRun alphanumeric row start (stop + 1) := by
        refine ⟨by omega, fun index lower upper => ?_⟩
        obtain rfl | below := Nat.eq_or_lt_of_le (Nat.le_of_lt_succ upper)
        · exact part
        · exact run.made index lower below
      have := (maximal.widest start (stop + 1) wider (Nat.le_refl start) (Nat.le_succ stop)).2
      omega
  · rintro ⟨run, left, right⟩
    have nonempty := run.nonempty
    refine ⟨run, fun start' stop' other lower upper => ⟨?_, ?_⟩⟩
    · refine Nat.le_antisymm lower (Nat.le_of_not_lt fun beyond => ?_)
      obtain ⟨before, rfl⟩ : ∃ before, start = before + 1 := ⟨start - 1, by omega⟩
      have part := other.made before (by omega) (by omega)
      exact Bool.false_ne_true (left.symm.trans part)
    · refine Nat.le_antisymm (Nat.le_of_not_lt fun beyond => ?_) upper
      have part := other.made stop (by omega) beyond
      exact Bool.false_ne_true (right.symm.trans part)

/-- At most one maximal run touches a cursor. -/
theorem Touches.unique (touches : Touches alphanumeric row cursor start stop)
    (other : Touches alphanumeric row cursor start' stop') : start' = start ∧ stop' = stop := by
  have joined := touches.maximal.run.join other.maximal.run touches.after touches.before
    other.after other.before
  have first := touches.maximal.widest _ _ joined (Nat.min_le_left start start')
    (Nat.le_max_left stop stop')
  have second := other.maximal.widest _ _ joined (Nat.min_le_right start start')
    (Nat.le_max_right stop stop')
  exact ⟨second.1.symm.trans first.1, second.2.symm.trans first.2⟩

/-- A maximal run only touches a cursor next to which there is a character of a word. -/
theorem Touches.part (touches : Touches alphanumeric row cursor start stop) :
    partBefore alphanumeric row cursor = true ∨ partAt alphanumeric row cursor = true := by
  have run := touches.maximal.run
  obtain below | meets := Nat.lt_or_eq_of_le touches.after
  · obtain ⟨before, rfl⟩ : ∃ before, cursor = before + 1 := ⟨cursor - 1, by omega⟩
    exact .inl (run.made before (Nat.le_of_lt_succ below) touches.before)
  · exact .inr (run.made cursor touches.after (meets ▸ run.nonempty))

/-! ## Walking to the ends of a word -/

variable (alphanumeric) in
/-- Where the walk to the left from a cursor stops. It fails where it reads outside the line. -/
def walkLeft (row : List Char) : Nat → Option Nat
  | 0 => some 0
  | cursor + 1 =>
    row[cursor]?.bind fun c =>
      if isWordPart alphanumeric c then walkLeft row cursor else some (cursor + 1)

variable (alphanumeric) in
/-- Where the walk to the right from a cursor stops. It fails where it reads outside the line. -/
def walkRight (row : List Char) (cursor : Nat) : Option Nat :=
  if cursor < row.length then
    row[cursor]?.bind fun c =>
      if isWordPart alphanumeric c then walkRight row (cursor + 1) else some cursor
  else some cursor
termination_by row.length - cursor

variable (alphanumeric) in
/-- A run that ends at the cursor begins at `start` and nowhere before it. -/
structure LeftEnd (row : List Char) (cursor start : Nat) : Prop where
  lower : start ≤ cursor
  made : ∀ index, start ≤ index → index < cursor → partAt alphanumeric row index = true
  bounded : partBefore alphanumeric row start = false
  taken : ((row.take cursor).reverse.takeWhile (isWordPart alphanumeric)).reverse =
    (row.take cursor).drop start

variable (alphanumeric) in
/-- A run that begins at the cursor ends at `stop` and nowhere behind it. -/
structure RightEnd (row : List Char) (cursor stop : Nat) : Prop where
  upper : cursor ≤ stop
  inside : stop ≤ row.length
  made : ∀ index, cursor ≤ index → index < stop → partAt alphanumeric row index = true
  bounded : partAt alphanumeric row stop = false
  taken : (row.drop cursor).takeWhile (isWordPart alphanumeric) = (row.take stop).drop cursor

theorem partAt_inside (inside : index < row.length) :
    partAt alphanumeric row index = isWordPart alphanumeric row[index] := by
  rw [partAt, List.getElem?_eq_getElem inside, Option.any_some]

private theorem walkLeft_ends (within : cursor ≤ row.length) :
    ∃ start, walkLeft alphanumeric row cursor = some start ∧
      LeftEnd alphanumeric row cursor start := by
  induction cursor with
  | zero =>
    exact ⟨0, rfl, Nat.le_refl 0, fun _ _ upper => absurd upper (Nat.not_lt_zero _), rfl, rfl⟩
  | succ cursor ih =>
    have part : partAt alphanumeric row cursor = isWordPart alphanumeric row[cursor] :=
      partAt_inside within
    have last := List.take_succ_eq_append_getElem within
    rw [walkLeft, List.getElem?_eq_getElem within, Option.bind_some]
    cases held : isWordPart alphanumeric row[cursor] with
    | false =>
      refine ⟨cursor + 1, rfl, Nat.le_refl _, fun index lower upper => by omega,
        part.trans held, ?_⟩
      rw [last, List.reverse_concat, List.takeWhile_cons_of_neg (Bool.eq_false_iff.mp held), ← last,
        List.drop_of_length_le (List.length_take_le _ _)]
      rfl
    | true =>
      obtain ⟨start, walked, left⟩ := ih (Nat.le_of_succ_le within)
      refine ⟨start, walked, Nat.le_succ_of_le left.lower, fun index above upper => ?_,
        left.bounded, ?_⟩
      · obtain rfl | below := Nat.eq_or_lt_of_le (Nat.le_of_lt_succ upper)
        · exact part.trans held
        · exact left.made index above below
      · have room : start ≤ (row.take cursor).length := by
          rw [List.length_take_of_le (Nat.le_of_succ_le within)]
          exact left.lower
        rw [last, List.reverse_concat, List.takeWhile_cons_of_pos held, List.reverse_cons,
          left.taken, List.drop_append_of_le_length room]

private theorem walkRight_ends (within : cursor ≤ row.length) :
    ∃ stop, walkRight alphanumeric row cursor = some stop ∧
      RightEnd alphanumeric row cursor stop := by
  obtain ⟨room, left⟩ : ∃ room, cursor + room = row.length := ⟨row.length - cursor, by omega⟩
  induction room generalizing cursor with
  | zero =>
    refine ⟨cursor, ?_, Nat.le_refl _, within, fun index lower upper => by omega,
      partAt_beyond (by omega), ?_⟩
    · rw [walkRight, if_neg (by omega)]
    · rw [List.drop_of_length_le (by omega), List.drop_of_length_le (List.length_take_le _ _)]
      rfl
  | succ room ih =>
    have inside : cursor < row.length := by omega
    have part : partAt alphanumeric row cursor = isWordPart alphanumeric row[cursor] :=
      partAt_inside inside
    have first := List.drop_eq_getElem_cons inside
    rw [walkRight, if_pos inside, List.getElem?_eq_getElem inside, Option.bind_some]
    cases held : isWordPart alphanumeric row[cursor] with
    | false =>
      refine ⟨cursor, rfl, Nat.le_refl _, within, fun index lower upper => by omega,
        part.trans held, ?_⟩
      rw [first, List.takeWhile_cons_of_neg (Bool.eq_false_iff.mp held),
        List.drop_of_length_le (List.length_take_le _ _)]
    | true =>
      obtain ⟨stop, walked, right⟩ := ih inside (by omega)
      refine ⟨stop, walked, Nat.le_of_succ_le right.upper, right.inside,
        fun index above below => ?_, right.bounded, ?_⟩
      · obtain rfl | behind := Nat.eq_or_lt_of_le above
        · exact part.trans held
        · exact right.made index behind below
      · have room : cursor < (row.take stop).length := by
          rw [List.length_take_of_le right.inside]
          exact right.upper
        rw [first, List.takeWhile_cons_of_pos held, right.taken, List.drop_eq_getElem_cons room,
          List.getElem_take]

/-- What the two walks pass over is the part of the line between their ends. -/
theorem LeftEnd.word (left : LeftEnd alphanumeric row cursor start)
    (right : RightEnd alphanumeric row cursor stop) :
    (row.take cursor).drop start ++ (row.take stop).drop cursor = row.extract start stop := by
  obtain ⟨before, rfl⟩ := Nat.exists_eq_add_of_le left.lower
  obtain ⟨behind, rfl⟩ := Nat.exists_eq_add_of_le right.upper
  rw [List.drop_take, List.drop_take, Nat.add_sub_cancel_left, Nat.add_sub_cancel_left,
    ← List.drop_drop, ← List.take_add, List.extract_eq_take_drop, Nat.add_assoc,
    Nat.add_sub_cancel_left]

private theorem LeftEnd.wordIn_eq {character : Nat}
    (left : LeftEnd alphanumeric row (min character row.length) start)
    (right : RightEnd alphanumeric row (min character row.length) stop) :
    wordIn alphanumeric row character =
      if start < stop then some ⟨row.extract start stop, start, stop⟩ else none := by
  have within : min character row.length ≤ row.length := Nat.min_le_right _ _
  have lower := left.lower
  have upper := right.upper
  have inside := right.inside
  have first : min character row.length -
      ((row.take (min character row.length)).drop start).length = start := by
    rw [List.length_drop, List.length_take_of_le within]
    omega
  have last : min character row.length +
      ((row.take stop).drop (min character row.length)).length = stop := by
    rw [List.length_drop, List.length_take_of_le inside]
    omega
  simp only [wordIn, left.taken, right.taken, first, last, left.word right]

/-! ## The word that a position touches -/

/-- The two ends of the walks bound a run that is maximal, unless they meet. -/
theorem LeftEnd.touches (left : LeftEnd alphanumeric row cursor start)
    (right : RightEnd alphanumeric row cursor stop) (apart : start < stop) :
    Touches alphanumeric row cursor start stop where
  maximal := by
    refine isMaximalRun_iff.mpr ⟨⟨apart, fun index lower upper => ?_⟩, left.bounded, right.bounded⟩
    obtain below | above := Nat.lt_or_ge index cursor
    · exact left.made index lower below
    · exact right.made index above upper
  after := left.lower
  before := right.upper

private theorem LeftEnd.lt_of_part (left : LeftEnd alphanumeric row cursor start)
    (right : RightEnd alphanumeric row cursor stop)
    (part : partBefore alphanumeric row cursor = true ∨ partAt alphanumeric row cursor = true) :
    start < stop := by
  refine Nat.lt_of_not_le fun meets => ?_
  obtain rfl : cursor = start := Nat.le_antisymm (Nat.le_trans right.upper meets) left.lower
  obtain rfl : stop = cursor := Nat.le_antisymm meets right.upper
  obtain before | behind := part
  · exact Bool.false_ne_true (left.bounded.symm.trans before)
  · exact Bool.false_ne_true (right.bounded.symm.trans behind)

private theorem wordIn_eq_some_iff {character : Nat} {word : Word} :
    wordIn alphanumeric row character = some word ↔
      Touches alphanumeric row (min character row.length) word.start word.stop ∧
        word.text = row.extract word.start word.stop := by
  obtain ⟨start, _, left⟩ := walkLeft_ends (Nat.min_le_right character row.length)
  obtain ⟨stop, _, right⟩ := walkRight_ends (Nat.min_le_right character row.length)
  rw [left.wordIn_eq right]
  constructor
  · intro found
    obtain ⟨apart, same⟩ := Option.ite_none_right_eq_some.mp found
    cases same
    exact ⟨left.touches right apart, rfl⟩
  · rintro ⟨touches, spelled⟩
    have apart := left.lt_of_part right touches.part
    obtain ⟨text, start', stop'⟩ := word
    obtain ⟨rfl, rfl⟩ := (left.touches right apart).unique touches
    rw [if_pos apart, ← spelled]

private theorem wordIn_eq_none_iff {character : Nat} :
    wordIn alphanumeric row character = none ↔
      partBefore alphanumeric row (min character row.length) = false ∧
        partAt alphanumeric row (min character row.length) = false := by
  obtain ⟨start, _, left⟩ := walkLeft_ends (Nat.min_le_right character row.length)
  obtain ⟨stop, _, right⟩ := walkRight_ends (Nat.min_le_right character row.length)
  rw [left.wordIn_eq right, ite_eq_right_iff, ← Bool.not_eq_true, ← Bool.not_eq_true, ← not_or]
  constructor
  · intro missed part
    cases missed (left.lt_of_part right part)
  · intro bare apart
    exact absurd (left.touches right apart).part bare

private theorem touchedWord_of_line {text : List Char} {position : Position}
    (there : (Text.lines text)[position.line]? = some row) :
    touchedWord alphanumeric text position = wordIn alphanumeric row position.character := by
  rw [touchedWord, there, Option.bind_some]

theorem touchedWord_eq_some_iff {text : List Char} {position : Position} {word : Word} :
    touchedWord alphanumeric text position = some word ↔
      ∃ row, (Text.lines text)[position.line]? = some row ∧
        Touches alphanumeric row (min position.character row.length) word.start word.stop ∧
          word.text = row.extract word.start word.stop := by
  rw [touchedWord, Option.bind_eq_some_iff]
  exact exists_congr fun row => and_congr_right fun _ => wordIn_eq_some_iff

/-- Every place from the start of a maximal run to its end touches the word that it is. -/
theorem touchedWord_of_maximal {text : List Char} {number offset : Nat}
    (there : (Text.lines text)[number]? = some row)
    (maximal : IsMaximalRun alphanumeric row start stop) (after : start ≤ offset)
    (before : offset ≤ stop) :
    touchedWord alphanumeric text ⟨number, offset⟩ =
      some ⟨row.extract start stop, start, stop⟩ := by
  have within : min offset row.length = offset :=
    Nat.min_eq_left (Nat.le_trans before maximal.run.inside)
  exact touchedWord_eq_some_iff.mpr
    ⟨row, there, ⟨maximal, within.symm ▸ after, within.symm ▸ before⟩, rfl⟩

/-- What the word that a position touches is: `found` and `missed` say when there is one and which,
`walked` that both walks from the cursor end inside the line and how they make the answer, `unique`
that no other run is meant, and `steady` that any place at the word gives it. -/
structure Locates (alphanumeric : Char → Bool) (text : List Char) (position : Position) : Prop where
  found : ∀ word, touchedWord alphanumeric text position = some word ↔
    ∃ row, (Text.lines text)[position.line]? = some row ∧
      Touches alphanumeric row (min position.character row.length) word.start word.stop ∧
        word.text = row.extract word.start word.stop
  missed : touchedWord alphanumeric text position = none ↔
    (Text.lines text)[position.line]? = none ∨
      ∃ row, (Text.lines text)[position.line]? = some row ∧
        partBefore alphanumeric row (min position.character row.length) = false ∧
          partAt alphanumeric row (min position.character row.length) = false
  walked : ∀ row, (Text.lines text)[position.line]? = some row → ∃ start stop,
    walkLeft alphanumeric row (min position.character row.length) = some start ∧
      walkRight alphanumeric row (min position.character row.length) = some stop ∧
        start ≤ min position.character row.length ∧ min position.character row.length ≤ stop ∧
        stop ≤ row.length ∧ touchedWord alphanumeric text position =
          if start < stop then some ⟨row.extract start stop, start, stop⟩ else none
  unique : ∀ row, (Text.lines text)[position.line]? = some row → ∀ start stop start' stop',
    Touches alphanumeric row (min position.character row.length) start stop →
      Touches alphanumeric row (min position.character row.length) start' stop' →
        start' = start ∧ stop' = stop
  steady : ∀ word, touchedWord alphanumeric text position = some word →
    ∀ offset, word.start ≤ offset → offset ≤ word.stop →
      touchedWord alphanumeric text ⟨position.line, offset⟩ = some word

theorem touchedWord_locates (alphanumeric : Char → Bool) (text : List Char) (position : Position) :
    Locates alphanumeric text position where
  found word := touchedWord_eq_some_iff
  missed := by
    rw [touchedWord]
    cases there : (Text.lines text)[position.line]? with
    | none => exact ⟨fun _ => .inl rfl, fun _ => rfl⟩
    | some row =>
      rw [Option.bind_some, wordIn_eq_none_iff]
      constructor
      · exact fun bare => .inr ⟨row, rfl, bare⟩
      · rintro (⟨⟨⟩⟩ | ⟨row, ⟨⟩, bare⟩)
        exact bare
  walked row there := by
    obtain ⟨start, before, left⟩ := walkLeft_ends (Nat.min_le_right position.character row.length)
    obtain ⟨stop, behind, right⟩ := walkRight_ends (Nat.min_le_right position.character row.length)
    exact ⟨start, stop, before, behind, left.lower, right.upper, right.inside,
      (touchedWord_of_line there).trans (left.wordIn_eq right)⟩
  unique _ _ _ _ _ _ touches other := touches.unique other
  steady word touched offset after before := by
    obtain ⟨row, there, touches, spelled⟩ := touchedWord_eq_some_iff.mp touched
    rw [touchedWord_of_maximal there touches.maximal after before, ← spelled]

end Airlock.Document
