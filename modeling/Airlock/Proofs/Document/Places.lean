import Airlock.Text.Alphanumeric
import Airlock.Proofs.Document.Words

/-!
# The places of a word

A line is gone over from its start: behind a place where the word stands alone by the length of the
word, else by one character. The scan always ends. It jumps over no place of a word that is made of
the characters of words, so it finds the maximal runs that spell the word, in order. Hovering at any
of them gives the word again.
-/

set_option autoImplicit false

namespace Airlock.Document

variable (alphanumeric : Char → Bool)

/-- The word stands at an index of a line, and no character of a word is next to it. -/
structure StandsAlone (word row : List Char) (index : Nat) : Prop where
  left : partBefore alphanumeric row index = false
  right : partAt alphanumeric row (index + word.length) = false
  spelled : row.extract index (index + word.length) = word

/-- Going over a line from an index finds the word at these starts. -/
inductive Scans (word row : List Char) : Nat → List Nat → Prop
  | done {index : Nat} (short : row.length < index + word.length) : Scans word row index []
  | found {index : Nat} {starts : List Nat} (room : index + word.length ≤ row.length)
      (alone : StandsAlone alphanumeric word row index)
      (behind : Scans word row (index + word.length) starts) :
      Scans word row index (index :: starts)
  | passed {index : Nat} {starts : List Nat} (room : index + word.length ≤ row.length)
      (other : ¬ StandsAlone alphanumeric word row index)
      (behind : Scans word row (index + 1) starts) : Scans word row index starts

/-- Where the word stands alone in a line, from an index on. -/
def placesBehind (word row : List Char) (number index passed : Nat) : List Span :=
  placesFrom alphanumeric word number index (!partBefore alphanumeric row index) passed
    (row.drop index)

def spanAt (word : List Char) (number start : Nat) : Span :=
  ⟨number, start, start + word.length⟩

/-- The one span ends before the other begins. -/
def Span.Before (span other : Span) : Prop :=
  span.line < other.line ∨
    span.line = other.line ∧ span.start < other.start ∧ span.stop ≤ other.start

variable {alphanumeric} {word row : List Char} {start stop index passed number : Nat}
  {starts : List Nat}

/-! ## Standing alone -/

private theorem getElem?_between (row : List Char) (above : start ≤ index) (below : index < stop) :
    (row.extract start stop)[index - start]? = row[index]? := by
  rw [List.extract_eq_take_drop, List.getElem?_take_of_lt (by omega), List.getElem?_drop,
    Nat.add_sub_cancel' above]

private theorem IsRun.spells (run : IsRun alphanumeric row start stop) :
    ∀ c ∈ row.extract start stop, isWordPart alphanumeric c = true := by
  intro c held
  obtain ⟨offset, present⟩ := List.mem_iff_getElem?.mp held
  have room : offset < stop - start := by
    have inside := (List.getElem?_eq_some_iff.mp present).choose
    rw [List.extract_eq_take_drop, List.length_take] at inside
    omega
  have read := getElem?_between row (Nat.le_add_right start offset) (Nat.add_lt_of_lt_sub' room)
  rw [Nat.add_sub_cancel_left, present] at read
  obtain ⟨c', present', part⟩ :=
    partAt_eq_true_iff.mp (run.made (start + offset) (by omega) (by omega))
  cases read.trans present'
  exact part

namespace StandsAlone

private theorem room (alone : StandsAlone alphanumeric word row index)
    (nonempty : 0 < word.length) :
    index + word.length ≤ row.length := by
  have size := congrArg List.length alone.spelled
  rw [List.extract_eq_take_drop, List.length_take, List.length_drop] at size
  omega

private theorem maximal (alone : StandsAlone alphanumeric word row index)
    (made : ∀ c ∈ word, isWordPart alphanumeric c = true) (nonempty : 0 < word.length) :
    IsMaximalRun alphanumeric row index (index + word.length) := by
  refine isMaximalRun_iff.mpr ⟨⟨Nat.lt_add_of_pos_right nonempty, fun place above below => ?_⟩,
    alone.left, alone.right⟩
  have inside : place < row.length := by
    have room := alone.room nonempty
    omega
  have read := getElem?_between row above below
  rw [alone.spelled, List.getElem?_eq_getElem inside] at read
  exact (partAt_inside inside).trans (made _ (List.mem_of_getElem? read))

end StandsAlone

private theorem IsMaximalRun.standsAlone (maximal : IsMaximalRun alphanumeric row start stop)
    (spelled : row.extract start stop = word) :
    StandsAlone alphanumeric word row start ∧ stop = start + word.length := by
  have ends : stop = start + word.length := by
    have nonempty := maximal.run.nonempty
    have inside := maximal.run.inside
    rw [← spelled, List.extract_eq_take_drop, List.length_take, List.length_drop]
    omega
  obtain ⟨_, left, right⟩ := isMaximalRun_iff.mp maximal
  subst ends
  exact ⟨⟨left, right, spelled⟩, rfl⟩

private theorem partAt_eq_head? : partAt alphanumeric row index =
    (row.drop index).head?.any (isWordPart alphanumeric) := by
  rw [List.head?_drop, partAt]

private theorem standsAlone_iff :
    StandsAlone alphanumeric word row index ↔
      (!partBefore alphanumeric row index &&
        beginsWithWord alphanumeric word (row.drop index)) = true := by
  have ends : beginsWithWord alphanumeric word (row.drop index) =
      (word.isPrefixOf (row.drop index) &&
        !partAt alphanumeric row (index + word.length)) := by
    rw [beginsWithWord, partAt_eq_head?, ← List.drop_drop]
    cases (row.drop index).drop word.length <;> rfl
  have spells : word.isPrefixOf (row.drop index) = true ↔
      row.extract index (index + word.length) = word := by
    rw [List.isPrefixOf_iff_prefix, List.prefix_iff_eq_take, List.extract_eq_take_drop,
      Nat.add_sub_cancel_left, eq_comm]
  rw [ends, Bool.and_eq_true, Bool.and_eq_true, spells, Bool.not_eq_true', Bool.not_eq_true']
  exact ⟨fun alone => ⟨alone.left, alone.spelled, alone.right⟩,
    fun ⟨left, spelled, right⟩ => ⟨left, right, spelled⟩⟩

/-! ## The scan of a line -/

namespace Scans

private theorem total (nonempty : 0 < word.length) (index : Nat) :
    ∃ starts, Scans alphanumeric word row index starts := by
  by_cases short : row.length < index + word.length
  · exact ⟨[], .done short⟩
  · by_cases alone : StandsAlone alphanumeric word row index
    · obtain ⟨starts, behind⟩ := total nonempty (index + word.length)
      exact ⟨index :: starts, .found (by omega) alone behind⟩
    · obtain ⟨starts, behind⟩ := total nonempty (index + 1)
      exact ⟨starts, .passed (by omega) alone behind⟩
termination_by row.length - index

/-- The scan finds every place where the word stands alone: where it jumps there is a character of
a word before each place. -/
theorem mem_iff (scans : Scans alphanumeric word row index starts)
    (made : ∀ c ∈ word, isWordPart alphanumeric c = true) (nonempty : 0 < word.length) :
    start ∈ starts ↔ index ≤ start ∧ StandsAlone alphanumeric word row start := by
  induction scans with
  | done short =>
    refine ⟨fun held => (List.not_mem_nil held).elim, fun ⟨above, alone⟩ => ?_⟩
    have room := alone.room nonempty
    omega
  | @found index starts room alone behind ih =>
    rw [List.mem_cons, ih]
    constructor
    · rintro (rfl | ⟨above, other⟩)
      · exact ⟨Nat.le_refl _, alone⟩
      · exact ⟨by omega, other⟩
    · rintro ⟨above, other⟩
      obtain rfl | later := Nat.eq_or_lt_of_le above
      · exact .inl rfl
      · refine .inr ⟨Nat.le_of_not_lt fun inside => ?_, other⟩
        obtain ⟨before, rfl⟩ : ∃ before, start = before + 1 := ⟨start - 1, by omega⟩
        have part := (alone.maximal made nonempty).run.made before (by omega) (by omega)
        exact Bool.false_ne_true (other.left.symm.trans part)
  | @passed index starts room other behind ih =>
    rw [ih]
    constructor
    · rintro ⟨above, alone⟩
      exact ⟨Nat.le_of_succ_le above, alone⟩
    · rintro ⟨above, alone⟩
      exact ⟨Nat.lt_of_le_of_ne above fun same => other (same ▸ alone), alone⟩

private theorem ordered (scans : Scans alphanumeric word row index starts) :
    (∀ start ∈ starts, index ≤ start) ∧
      starts.Pairwise fun start other => start + word.length ≤ other := by
  induction scans with
  | done => exact ⟨fun _ held => (List.not_mem_nil held).elim, .nil⟩
  | found _ _ _ ih =>
    refine ⟨List.forall_mem_cons.mpr ⟨Nat.le_refl _, fun start held => ?_⟩, .cons ih.1 ih.2⟩
    exact Nat.le_trans (Nat.le_add_right _ _) (ih.1 start held)
  | passed _ _ _ ih => exact ⟨fun start held => Nat.le_of_succ_le (ih.1 start held), ih.2⟩

end Scans

/-! ## The places of a line -/

private theorem placesBehind_beyond (beyond : row.length ≤ index) :
    placesBehind alphanumeric word row number index passed = [] := by
  rw [placesBehind, List.drop_of_length_le beyond, placesFrom]

private theorem placesBehind_step (inside : index < row.length) :
    placesBehind alphanumeric word row number index passed =
      if 0 < passed then placesBehind alphanumeric word row number (index + 1) (passed - 1)
      else if !partBefore alphanumeric row index &&
          beginsWithWord alphanumeric word (row.drop index) then
        spanAt word number index ::
          placesBehind alphanumeric word row number (index + 1) (word.length - 1)
      else placesBehind alphanumeric word row number (index + 1) 0 := by
  have bounded : partBefore alphanumeric row (index + 1) = isWordPart alphanumeric row[index] :=
    partAt_inside inside
  simp only [placesBehind, bounded, List.drop_eq_getElem_cons inside, placesFrom, spanAt]

private theorem placesBehind_passed (room : index + passed ≤ row.length) :
    placesBehind alphanumeric word row number index passed =
      placesBehind alphanumeric word row number (index + passed) 0 := by
  induction passed generalizing index with
  | zero => rfl
  | succ passed ih =>
    rw [placesBehind_step (by omega), if_pos (Nat.succ_pos _), Nat.add_sub_cancel, ih (by omega),
      Nat.add_right_comm, Nat.add_assoc]

private theorem placesBehind_found (alone : StandsAlone alphanumeric word row index)
    (nonempty : 0 < word.length) :
    placesBehind alphanumeric word row number index 0 =
      spanAt word number index ::
        placesBehind alphanumeric word row number (index + word.length) 0 := by
  have room := alone.room nonempty
  rw [placesBehind_step (by omega), if_neg (Nat.lt_irrefl 0), if_pos (standsAlone_iff.mp alone),
    placesBehind_passed (by omega), Nat.add_assoc, Nat.add_sub_cancel' nonempty]

private theorem placesBehind_other (other : ¬ StandsAlone alphanumeric word row index) :
    placesBehind alphanumeric word row number index 0 =
      placesBehind alphanumeric word row number (index + 1) 0 := by
  obtain inside | beyond := Nat.lt_or_ge index row.length
  · rw [placesBehind_step inside, if_neg (Nat.lt_irrefl 0), if_neg (mt standsAlone_iff.mpr other)]
  · rw [placesBehind_beyond beyond, placesBehind_beyond (Nat.le_succ_of_le beyond)]

private theorem placesBehind_short {index : Nat} (short : row.length < index + word.length)
    (nonempty : 0 < word.length) :
    placesBehind alphanumeric word row number index 0 = [] := by
  obtain inside | beyond := Nat.lt_or_ge index row.length
  · have other : ¬ StandsAlone alphanumeric word row index := by
      intro alone
      have room := alone.room nonempty
      omega
    rw [placesBehind_other other]
    exact placesBehind_short (by omega) nonempty
  · exact placesBehind_beyond beyond
termination_by row.length - index

/-- The places of a line are what the scan finds. -/
theorem Scans.places (scans : Scans alphanumeric word row index starts)
    (nonempty : 0 < word.length) :
    placesBehind alphanumeric word row number index 0 = starts.map (spanAt word number) := by
  induction scans with
  | done short => exact placesBehind_short short nonempty
  | found _ alone _ ih => rw [placesBehind_found alone nonempty, ih, List.map_cons]
  | passed _ other _ ih => rw [placesBehind_other other, ih]

/-- Where the scan of a line finds the word. -/
def startsIn (alphanumeric : Char → Bool) (word row : List Char) : List Nat :=
  (placesBehind alphanumeric word row 0 0 0).map (·.start)

private theorem scans_startsIn (nonempty : 0 < word.length) (row : List Char) :
    Scans alphanumeric word row 0 (startsIn alphanumeric word row) := by
  obtain ⟨starts, scans⟩ : ∃ starts, Scans alphanumeric word row 0 starts := Scans.total nonempty 0
  have same : startsIn alphanumeric word row = starts := by
    rw [startsIn, scans.places nonempty, List.map_map]
    exact List.map_id starts
  rwa [same]

/-! ## The places of a text -/

private theorem places_eq (nonempty : 0 < word.length) (text : List Char) :
    places alphanumeric text word = (Text.lines text).zipIdx.flatMap fun entry =>
      (startsIn alphanumeric word entry.1).map (spanAt word entry.2) := by
  have each (lines : List (List Char)) (number : Nat) :
      placesInLines alphanumeric word number lines = (lines.zipIdx number).flatMap
        fun entry => (startsIn alphanumeric word entry.1).map (spanAt word entry.2) := by
    induction lines generalizing number with
    | nil => rfl
    | cons row rest ih =>
      rw [placesInLines, ih, List.zipIdx_cons, List.flatMap_cons,
        ← (scans_startsIn nonempty row).places nonempty]
      rfl
  exact each _ 0

private theorem mem_places (nonempty : 0 < word.length)
    (made : ∀ c ∈ word, isWordPart alphanumeric c = true) {text : List Char} {span : Span} :
    span ∈ places alphanumeric text word ↔
      ∃ row, (Text.lines text)[span.line]? = some row ∧
        IsMaximalRun alphanumeric row span.start span.stop ∧
          row.extract span.start span.stop = word := by
  rw [places_eq nonempty, List.mem_flatMap]
  constructor
  · rintro ⟨⟨row, number⟩, there, held⟩
    obtain ⟨start, found, rfl⟩ := List.mem_map.mp held
    have alone := (((scans_startsIn nonempty row).mem_iff made nonempty).mp found).2
    exact ⟨row, List.mem_zipIdx_iff_getElem?.mp there, alone.maximal made nonempty, alone.spelled⟩
  · rintro ⟨row, there, maximal, spelled⟩
    obtain ⟨alone, ends⟩ := maximal.standsAlone spelled
    obtain ⟨number, start, stop⟩ := span
    obtain rfl : stop = start + word.length := ends
    have found := ((scans_startsIn nonempty row).mem_iff made nonempty).mpr ⟨Nat.zero_le _, alone⟩
    exact ⟨(row, number), List.mem_zipIdx_iff_getElem?.mpr there,
      List.mem_map.mpr ⟨start, found, rfl⟩⟩

private theorem places_ordered (nonempty : 0 < word.length) (text : List Char) :
    (places alphanumeric text word).Pairwise Span.Before := by
  rw [places_eq nonempty, List.pairwise_flatMap]
  constructor
  · rintro ⟨row, number⟩ _
    refine List.pairwise_map.mpr ((scans_startsIn nonempty row).ordered.2.imp fun apart => ?_)
    exact .inr ⟨rfl, Nat.lt_of_lt_of_le (Nat.lt_add_of_pos_right nonempty) apart, apart⟩
  · have rising : (Text.lines text).zipIdx.Pairwise fun entry other => entry.2 < other.2 := by
      rw [← List.pairwise_map (f := Prod.snd), List.zipIdx_map_snd]
      exact List.pairwise_lt_range'
    refine rising.imp fun below span held other held' => ?_
    obtain ⟨_, _, rfl⟩ := List.mem_map.mp held
    obtain ⟨_, _, rfl⟩ := List.mem_map.mp held'
    exact .inl below

/-- What the places of the word are that a position touches: `scanned` and `listed` say that going
over each line ends and that what it finds is listed line by line, `ordered` and `complete` which
spans these are. `queried` is the span of the touched word, and `agreed` that each listed span is
found again from any place at it. -/
structure Highlights (alphanumeric : Char → Bool) (text : List Char) (position : Position)
    (word : Word) : Prop where
  scanned : ∀ row, Scans alphanumeric word.text row 0 (startsIn alphanumeric word.text row)
  listed : places alphanumeric text word.text = (Text.lines text).zipIdx.flatMap fun entry =>
    (startsIn alphanumeric word.text entry.1).map (spanAt word.text entry.2)
  ordered : (places alphanumeric text word.text).Pairwise Span.Before
  complete : ∀ span, span ∈ places alphanumeric text word.text ↔
    ∃ row, (Text.lines text)[span.line]? = some row ∧
      IsMaximalRun alphanumeric row span.start span.stop ∧
        row.extract span.start span.stop = word.text
  queried : ⟨position.line, word.start, word.stop⟩ ∈ places alphanumeric text word.text
  agreed : ∀ span ∈ places alphanumeric text word.text, ∀ offset,
    span.start ≤ offset → offset ≤ span.stop →
      touchedWord alphanumeric text ⟨span.line, offset⟩ = some ⟨word.text, span.start, span.stop⟩

theorem touchedWord_highlights (alphanumeric : Char → Bool) (text : List Char)
    (position : Position) (word : Word)
    (touched : touchedWord alphanumeric text position = some word) :
    Highlights alphanumeric text position word := by
  obtain ⟨row, there, touches, spelled⟩ := touchedWord_eq_some_iff.mp touched
  have made : ∀ c ∈ word.text, isWordPart alphanumeric c = true := by
    rw [spelled]
    exact touches.maximal.run.spells
  have nonempty : 0 < word.text.length := by
    have apart := touches.maximal.run.nonempty
    have ends := (touches.maximal.standsAlone spelled.symm).2
    omega
  exact
    { scanned := scans_startsIn nonempty
      listed := places_eq nonempty text
      ordered := places_ordered nonempty text
      complete := fun span => mem_places nonempty made
      queried := (mem_places nonempty made).mpr ⟨row, there, touches.maximal, spelled.symm⟩
      agreed := by
        intro span listed offset after before
        obtain ⟨row, there, maximal, spelled⟩ := (mem_places nonempty made).mp listed
        rw [touchedWord_of_maximal there maximal after before, spelled] }

theorem touchedWord_highlights_repeated :
    touchedWord Text.isAlphanumeric "var a = 1\nvar ab = a + a".toList ⟨0, 4⟩ =
        some ⟨['a'], 4, 5⟩ ∧
      Highlights Text.isAlphanumeric "var a = 1\nvar ab = a + a".toList ⟨0, 4⟩ ⟨['a'], 4, 5⟩ :=
  have touched : touchedWord Text.isAlphanumeric "var a = 1\nvar ab = a + a".toList ⟨0, 4⟩ =
      some ⟨['a'], 4, 5⟩ := by decide +kernel
  ⟨touched, touchedWord_highlights _ _ _ _ touched⟩

end Airlock.Document
