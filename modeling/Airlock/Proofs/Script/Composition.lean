import Mathlib.Data.List.DropRight
import Airlock.Proofs.Text.Lines
import Airlock.Script.Basic

/-!
# Scripts that are put together

Each line of a script is judged by itself: it says nothing, it says an entry, or something is wrong
with it. The number of a line counts only for the fault that it gives. So a script behind whole
lines is judged as it is alone, with its lines counted on, and lines that say nothing can be put in
anywhere.
-/

set_option autoImplicit false

namespace Airlock.Script

/-! ## What a line says -/

/-- A line that is blank or a comment. -/
def Silent (line : List Char) : Prop :=
  (∀ c ∈ line, Text.isBlank c = true) ∨
    ∃ blanks note, line = blanks ++ '#' :: note ∧ ∀ c ∈ blanks, Text.isBlank c = true

/-- What is wrong with a line. -/
inductive Complaint where
  | unreadable (reason : String)
  | methodless

def Complaint.fault (number : Nat) : Complaint → Fault
  | .unreadable reason => .badLine number reason
  | .methodless => .emptyMethod number

/-- The text of an entry on a line. -/
def entryText (line : List Char) : Bytes :=
  Text.Utf8.encode (Text.trim line)

inductive Wrong (line : List Char) : Complaint → Prop where
  | unreadable (speaks : ¬ Silent line) {fault : EntryFault}
      (unread : Entry.parse (entryText line) = .error fault) :
      Wrong line (.unreadable (fault.message (entryText line)))
  | methodless (speaks : ¬ Silent line) {entry : Entry}
      (read : Entry.parse (entryText line) = .ok entry) (unnamed : entry.method = "") :
      Wrong line .methodless

inductive Tells (line : List Char) : Option Entry → Prop where
  | silent (silent : Silent line) : Tells line none
  | entry (speaks : ¬ Silent line) {entry : Entry}
      (read : Entry.parse (entryText line) = .ok entry) (named : entry.method ≠ "") :
      Tells line (some entry)

/-! ## What lines say -/

/-- Among the lines the first one that something is wrong with has this number, from 1. -/
inductive Faulty : List (List Char) → Nat → Complaint → Prop where
  | here {line : List Char} {complaint : Complaint} (wrong : Wrong line complaint)
      (lines : List (List Char)) : Faulty (line :: lines) 1 complaint
  | later {line : List Char} {told? : Option Entry} (tells : Tells line told?)
      {lines : List (List Char)} {number : Nat} {complaint : Complaint}
      (faulty : Faulty lines number complaint) : Faulty (line :: lines) (number + 1) complaint

/-- Nothing is wrong with any of the lines, and these are the entries they say. -/
inductive Contribute : List (List Char) → List Entry → Prop where
  | nil : Contribute [] []
  | cons {line : List Char} {told? : Option Entry} (tells : Tells line told?)
      {lines : List (List Char)} {entries : List Entry} (rest : Contribute lines entries) :
      Contribute (line :: lines) (told?.toList ++ entries)

variable {line : List Char} {lines others : List (List Char)} {number : Nat}
  {complaint : Complaint} {entries : List Entry}

/-! ## Reading a line -/

/-- Trimming keeps the first character that is not blank. -/
theorem head?_trim (line : List Char) :
    (Text.trim line).head? = (line.dropWhile Text.isBlank).head? := by
  change ((line.dropWhile Text.isBlank).rdropWhile Text.isBlank).head? = _
  cases spoken : line.dropWhile Text.isBlank with
  | nil => rfl
  | cons c rest =>
    have shown : Text.isBlank c = false := by
      have first := List.head?_dropWhile_not Text.isBlank line
      rw [spoken] at first
      simpa using first
    have kept : (c :: rest).rdropWhile Text.isBlank ≠ [] := fun empty =>
      absurd (List.rdropWhile_eq_nil_iff.mp empty c List.mem_cons_self) (by simp [shown])
    obtain ⟨d, trimmed, same⟩ := List.exists_cons_of_ne_nil kept
    have start := List.rdropWhile_prefix Text.isBlank (c :: rest)
    rw [same, List.cons_prefix_cons] at start
    rw [same, start.1]
    rfl

private theorem isSilent_trim_iff : isSilent (Text.trim line) = true ↔ Silent line := by
  have firsts : isSilent (Text.trim line) = true ↔
      (line.dropWhile Text.isBlank).head? = none ∨
        (line.dropWhile Text.isBlank).head? = some '#' := by
    rw [isSilent, Bool.or_eq_true, decide_eq_true_eq, ← head?_trim, List.isEmpty_iff,
      List.head?_eq_none_iff]
  rw [firsts, List.head?_eq_none_iff, List.dropWhile_eq_nil_iff]
  refine or_congr_right ⟨fun comment => ?_, ?_⟩
  · obtain ⟨note, spoken⟩ := List.head?_eq_some_iff.mp comment
    refine ⟨line.takeWhile Text.isBlank, note, ?_, fun c inside => ?_⟩
    · rw [← spoken, List.takeWhile_append_dropWhile]
    · exact List.mem_takeWhile_imp inside
  · rintro ⟨blanks, note, rfl, blank⟩
    rw [List.dropWhile_append_of_pos blank]
    rfl

instance (line : List Char) : Decidable (Silent line) :=
  decidable_of_iff _ isSilent_trim_iff

private theorem readLine_of_speaks (speaks : ¬ Silent line) (number : Nat) :
    readLine number line =
      match Entry.parse (entryText line) with
      | .error fault => .error (.badLine number (fault.message (entryText line)))
      | .ok entry =>
        if entry.method.isEmpty then .error (.emptyMethod number) else .ok (some entry) :=
  if_neg (mt isSilent_trim_iff.mp speaks)

private theorem readLine_of_tells {told? : Option Entry} (tells : Tells line told?) (number : Nat) :
    readLine number line = .ok told? := by
  cases tells with
  | silent silent => exact if_pos (isSilent_trim_iff.mpr silent)
  | entry speaks read named =>
    rw [readLine_of_speaks speaks, read]
    exact if_neg (mt String.isEmpty_iff.mp named)

private theorem readLine_of_wrong (wrong : Wrong line complaint) (number : Nat) :
    readLine number line = .error (complaint.fault number) := by
  cases wrong with
  | unreadable speaks unread =>
    rw [readLine_of_speaks speaks, unread]
    rfl
  | methodless speaks read unnamed =>
    rw [readLine_of_speaks speaks, read]
    exact if_pos (String.isEmpty_iff.mpr unnamed)

/-- Either something is wrong with a line or it is known what it says. -/
theorem wrong_or_tells (line : List Char) :
    (∃ complaint, Wrong line complaint) ∨ ∃ told?, Tells line told? := by
  by_cases silent : Silent line
  · exact .inr ⟨none, .silent silent⟩
  cases read : Entry.parse (entryText line) with
  | error fault => exact .inl ⟨_, .unreadable silent read⟩
  | ok entry =>
    by_cases unnamed : entry.method = ""
    · exact .inl ⟨_, .methodless silent read unnamed⟩
    · exact .inr ⟨_, .entry silent read unnamed⟩

/-! ## Reading lines -/

private theorem faulty_or_contribute (lines : List (List Char)) :
    (∃ number complaint, Faulty lines number complaint) ∨ ∃ entries, Contribute lines entries := by
  induction lines with
  | nil => exact .inr ⟨[], .nil⟩
  | cons line lines ih =>
    obtain ⟨complaint, wrong⟩ | ⟨told?, tells⟩ := wrong_or_tells line
    · exact .inl ⟨1, complaint, .here wrong lines⟩
    obtain ⟨number, complaint, faulty⟩ | ⟨entries, rest⟩ := ih
    · exact .inl ⟨number + 1, complaint, .later tells faulty⟩
    · exact .inr ⟨_, .cons tells rest⟩

private theorem readLines_of_faulty (faulty : Faulty lines number complaint) (before : Nat) :
    readLines (before + 1) lines = .error (complaint.fault (before + number)) := by
  induction faulty generalizing before with
  | here wrong lines =>
    rw [readLines, readLine_of_wrong wrong]
    rfl
  | later tells faulty ih =>
    rw [readLines, readLine_of_tells tells]
    change (readLines (before + 1 + 1) _ >>= _) = _
    rw [ih (before + 1), Nat.add_right_comm, Nat.add_assoc]
    rfl

private theorem readLines_of_contribute (contribute : Contribute lines entries) (before : Nat) :
    readLines (before + 1) lines = .ok entries := by
  induction contribute generalizing before with
  | nil => rfl
  | cons tells rest ih =>
    rw [readLines, readLine_of_tells tells]
    change (readLines (before + 1 + 1) _ >>= _) = _
    rw [ih (before + 1)]
    rfl

/-! ## Parsing a script -/

variable {text padded rest : List Char} {rows : List (List Char)} {groups : List (List (List Char))}

private theorem parse_of_faulty (faulty : Faulty (Text.lines text) number complaint) :
    parse text = .error (complaint.fault number) := by
  have read := readLines_of_faulty faulty 0
  rw [Nat.zero_add, Nat.zero_add] at read
  rw [parse, read]
  rfl

private theorem parse_of_contribute (contribute : Contribute (Text.lines text) entries) :
    parse text = if entries = [] then .error .empty else .ok entries := by
  have read := readLines_of_contribute contribute 0
  rw [Nat.zero_add] at read
  rw [parse, read]
  cases entries <;> rfl

/-! ## Lines behind lines -/

private theorem Faulty.append_right (faulty : Faulty lines number complaint)
    (others : List (List Char)) :
    Faulty (lines ++ others) number complaint := by
  induction faulty with
  | here wrong lines => exact .here wrong (lines ++ others)
  | later tells _ ih => exact .later tells ih

private theorem Faulty.behind (contribute : Contribute lines entries)
    (faulty : Faulty others number complaint) :
    Faulty (lines ++ others) (lines.length + number) complaint := by
  induction contribute with
  | nil => rwa [List.length_nil, Nat.zero_add]
  | cons tells _ ih =>
    rw [List.length_cons, Nat.add_right_comm]
    exact .later tells ih

private theorem Contribute.append {further : List Entry} (contribute : Contribute lines entries)
    (behind : Contribute others further) : Contribute (lines ++ others) (entries ++ further) := by
  induction contribute with
  | nil => exact behind
  | cons tells _ ih =>
    rw [List.append_assoc]
    exact .cons tells ih

/-- The first line that something is wrong with is among the former lines or the latter ones. -/
theorem Faulty.of_append (faulty : Faulty (lines ++ others) number complaint) :
    Faulty lines number complaint ∨
      (∃ entries, Contribute lines entries) ∧
        ∃ back, number = lines.length + back ∧ Faulty others back complaint := by
  induction lines generalizing number with
  | nil => exact .inr ⟨⟨[], .nil⟩, number, (Nat.zero_add _).symm, faulty⟩
  | cons line lines ih =>
    cases faulty with
    | here wrong => exact .inl (.here wrong lines)
    | later tells faulty =>
      obtain within | ⟨⟨entries, contribute⟩, back, rfl, beyond⟩ := ih faulty
      · exact .inl (.later tells within)
      · refine .inr ⟨⟨_, .cons tells contribute⟩, back, ?_, beyond⟩
        rw [List.length_cons, Nat.add_right_comm]

private theorem Contribute.of_append (contribute : Contribute (lines ++ others) entries) :
    ∃ former latter, entries = former ++ latter ∧ Contribute lines former ∧
      Contribute others latter := by
  induction lines generalizing entries with
  | nil => exact ⟨[], entries, rfl, .nil, contribute⟩
  | cons line lines ih =>
    obtain ⟨⟩ | ⟨tells, contribute⟩ := contribute
    obtain ⟨former, latter, rfl, here, there⟩ := ih contribute
    exact ⟨_, latter, (List.append_assoc ..).symm, .cons tells here, there⟩

/-! ## Silent rows in between -/

/-- Puts a group before each row, as long as there are groups, and one behind the last row. -/
def weave : List (List (List Char)) → List (List Char) → List (List Char)
  | [], rows => rows
  | group :: _, [] => group
  | group :: groups, row :: rows => group ++ row :: weave groups rows

/-- How many rows are put in before the row with that number. -/
def inserted (groups : List (List (List Char))) (number : Nat) : Nat :=
  (groups.take number).flatten.length

private theorem inserted_nil (number : Nat) : inserted [] number = 0 := by
  rw [inserted, List.take_nil]
  rfl

private theorem inserted_cons (group : List (List Char)) (groups : List (List (List Char)))
    (number : Nat) :
    inserted (group :: groups) (number + 1) = group.length + inserted groups number := by
  rw [inserted, List.take_succ_cons, List.flatten_cons, List.length_append]
  rfl

private theorem flatten_weave (group : List (List Char)) (groups : List (List (List Char)))
    (row : List Char) (rows : List (List Char)) (rest : List Char) :
    (weave (group :: groups) (row :: rows)).flatten ++ rest =
      group.flatten ++ (row ++ ((weave groups rows).flatten ++ rest)) := by
  rw [weave, List.flatten_append, List.flatten_cons, List.append_assoc, List.append_assoc]

/-- A row whose line is blank or a comment. -/
structure MuteRow (row : List Char) : Prop where
  isRow : Text.IsRow row
  silent : ∀ line ∈ Text.lines row, Silent line

private theorem MuteRow.contribute {row : List Char} (mute : MuteRow row) :
    Contribute (Text.lines row) [] := by
  obtain ⟨line, only⟩ := List.length_eq_one_iff.mp mute.isRow.length_lines
  have silent := mute.silent
  rw [only] at silent ⊢
  exact .cons (.silent (silent line List.mem_cons_self)) .nil

/-- Mute rows are lines that add nothing to those behind them. -/
theorem lines_mute (mute : ∀ row ∈ rows, MuteRow row) (rest : List Char) :
    ∃ silent, Text.lines (rows.flatten ++ rest) = silent ++ Text.lines rest ∧
      silent.length = rows.length ∧ Contribute silent [] := by
  induction rows with
  | nil => exact ⟨[], rfl, rfl, .nil⟩
  | cons row rows ih =>
    obtain ⟨first, others⟩ := List.forall_mem_cons.mp mute
    obtain ⟨silent, parted, counted, contribute⟩ := ih others
    refine ⟨Text.lines row ++ silent, ?_, ?_, first.contribute.append contribute⟩
    · rw [List.flatten_cons, List.append_assoc, Text.lines_append first.isRow.whole, parted,
        List.append_assoc]
    · rw [List.length_append, first.isRow.length_lines, counted, List.length_cons, Nat.add_comm]

private theorem Faulty.behind_mute (mute : ∀ row ∈ rows, MuteRow row)
    (faulty : Faulty (Text.lines rest) number complaint) :
    Faulty (Text.lines (rows.flatten ++ rest)) (number + rows.length) complaint := by
  obtain ⟨silent, parted, counted, contribute⟩ := lines_mute mute rest
  rw [parted, Nat.add_comm, ← counted]
  exact .behind contribute faulty

private theorem Contribute.behind_mute (mute : ∀ row ∈ rows, MuteRow row)
    (contribute : Contribute (Text.lines rest) entries) :
    Contribute (Text.lines (rows.flatten ++ rest)) entries := by
  obtain ⟨silent, parted, -, nothing⟩ := lines_mute mute rest
  rw [parted]
  exact nothing.append contribute

private theorem Faulty.number_eq_one (faulty : Faulty lines number complaint)
    (short : lines.length ≤ 1) : number = 1 := by
  cases faulty with
  | here => rfl
  | later _ faulty =>
    obtain rfl := List.length_eq_zero_iff.mp (Nat.le_zero.mp (Nat.le_of_succ_le_succ short))
    cases faulty

/-- The number of a fault grows by the rows that are put in before its line. -/
theorem Faulty.weave (each : ∀ row ∈ rows, Text.IsRow row) (unended : '\n' ∉ rest)
    (mute : ∀ group ∈ groups, ∀ row ∈ group, MuteRow row)
    (faulty : Faulty (Text.lines (rows.flatten ++ rest)) number complaint) :
    Faulty (Text.lines ((weave groups rows).flatten ++ rest)) (number + inserted groups number)
      complaint := by
  induction rows generalizing groups number with
  | nil =>
    cases groups with
    | nil => rwa [inserted_nil]
    | cons group groups =>
      obtain ⟨first, -⟩ := List.forall_mem_cons.mp mute
      have short := Text.length_linesFrom_le [] rest
      rw [List.count_eq_zero.mpr unended] at short
      obtain rfl := faulty.number_eq_one short
      rw [inserted_cons]
      exact faulty.behind_mute first
  | cons row rows ih =>
    cases groups with
    | nil => rwa [inserted_nil]
    | cons group groups =>
      obtain ⟨first, others⟩ := List.forall_mem_cons.mp mute
      obtain ⟨isRow, each⟩ := List.forall_mem_cons.mp each
      rw [List.flatten_cons, List.append_assoc, Text.lines_append isRow.whole] at faulty
      rw [flatten_weave]
      -- a fault of the first row moves by the first group alone, one behind it by the others too
      obtain here | ⟨⟨entries, contribute⟩, back, rfl, beyond⟩ := faulty.of_append
      · obtain rfl := here.number_eq_one (Nat.le_of_eq isRow.length_lines)
        rw [inserted_cons]
        refine Faulty.behind_mute first ?_
        rw [Text.lines_append isRow.whole]
        exact here.append_right _
      · have further := (ih each others beyond).behind contribute
        rw [← Text.lines_append isRow.whole] at further
        have shifted := further.behind_mute first
        rw [isRow.length_lines] at shifted ⊢
        rw [Nat.add_comm 1 back, inserted_cons]
        convert shifted using 1
        omega

private theorem Contribute.weave (each : ∀ row ∈ rows, Text.IsRow row)
    (mute : ∀ group ∈ groups, ∀ row ∈ group, MuteRow row)
    (contribute : Contribute (Text.lines (rows.flatten ++ rest)) entries) :
    Contribute (Text.lines ((weave groups rows).flatten ++ rest)) entries := by
  induction rows generalizing groups entries with
  | nil =>
    cases groups with
    | nil => exact contribute
    | cons group groups =>
      obtain ⟨first, -⟩ := List.forall_mem_cons.mp mute
      exact contribute.behind_mute first
  | cons row rows ih =>
    cases groups with
    | nil => exact contribute
    | cons group groups =>
      obtain ⟨first, others⟩ := List.forall_mem_cons.mp mute
      obtain ⟨isRow, each⟩ := List.forall_mem_cons.mp each
      rw [List.flatten_cons, List.append_assoc, Text.lines_append isRow.whole] at contribute
      obtain ⟨former, latter, rfl, here, there⟩ := contribute.of_append
      rw [flatten_weave]
      refine Contribute.behind_mute first ?_
      rw [Text.lines_append isRow.whole]
      exact here.append (ih each others there)

/-! ## The laws of scripts -/

/-- How the parser judges a text by its lines. -/
inductive Judged (text : List Char) : Prop where
  | faulty {number : Nat} {complaint : Complaint}
      (faulty : Faulty (Text.lines text) number complaint)
      (parsed : parse text = .error (complaint.fault number))
  | sound {entries : List Entry} (contribute : Contribute (Text.lines text) entries)
      (parsed : parse text = if entries = [] then .error .empty else .ok entries)

private theorem judged (text : List Char) : Judged text := by
  obtain ⟨number, complaint, faulty⟩ | ⟨entries, contribute⟩ :=
    faulty_or_contribute (Text.lines text)
  · exact .faulty faulty (parse_of_faulty faulty)
  · exact .sound contribute (parse_of_contribute contribute)

/-- The padded text is parsed as the text is, but for the lines before a fault. -/
structure ParsedAlike (text padded : List Char) (before : Nat → Nat) : Prop where
  faulty : ∀ {number complaint}, Faulty (Text.lines text) number complaint →
    parse text = .error (complaint.fault number) ∧
      parse padded = .error (complaint.fault (number + before number))
  sound : ∀ {entries}, Contribute (Text.lines text) entries → parse padded = parse text

/-- How a script that begins with this text is parsed, and what makes no difference to a script. -/
structure Composes (text behind : List Char) : Prop where
  judged : ∀ script, Judged script
  counted : (Text.lines text).length = text.count '\n'
  /-- a fault in the text is the fault of the script -/
  faulty : ∀ {number complaint}, Faulty (Text.lines text) number complaint →
    parse text = .error (complaint.fault number) ∧
      parse (text ++ behind) = .error (complaint.fault number)
  /-- else a fault behind it is, with the lines of the text counted too -/
  faultyBehind : ∀ {entries number complaint}, Contribute (Text.lines text) entries →
    Faulty (Text.lines behind) number complaint →
    parse behind = .error (complaint.fault number) ∧
      parse (text ++ behind) = .error (complaint.fault ((Text.lines text).length + number))
  /-- else the entries of both are the entries of the script -/
  sound : ∀ {entries further}, Contribute (Text.lines text) entries →
    Contribute (Text.lines behind) further →
    parse (text ++ behind) =
      if entries = [] ∧ further = [] then .error .empty else .ok (entries ++ further)
  splits : ∀ script, ∃ rows rest, Text.Splits script rows rest
  /-- rows that are blank or comments can be put in anywhere -/
  padded : ∀ {script rows rest groups}, Text.Splits script rows rest →
    (∀ group ∈ groups, ∀ row ∈ group, MuteRow row) →
    ParsedAlike script ((weave groups rows).flatten ++ rest) (inserted groups)
  returned : ∀ script, parse (Text.withReturns false script) = parse script

private theorem parsedAlike_weave (splits : Text.Splits text rows rest)
    (mute : ∀ group ∈ groups, ∀ row ∈ group, MuteRow row) :
    ParsedAlike text ((weave groups rows).flatten ++ rest) (inserted groups) := by
  obtain ⟨rfl, each, unended⟩ := splits
  constructor
  case faulty =>
    intro number complaint faulty
    exact ⟨parse_of_faulty faulty, parse_of_faulty (faulty.weave each unended mute)⟩
  case sound =>
    intro entries contribute
    rw [parse_of_contribute contribute, parse_of_contribute (contribute.weave each mute)]

/-- A script is parsed as its parts are. -/
theorem parse_composes (whole : Text.Whole text) (behind : List Char) : Composes text behind := by
  have parted := Text.lines_append whole behind
  constructor
  case judged => exact judged
  case counted => exact Text.length_lines whole
  case faulty =>
    intro number complaint faulty
    exact ⟨parse_of_faulty faulty, parse_of_faulty (parted ▸ faulty.append_right _)⟩
  case faultyBehind =>
    intro entries number complaint contribute faulty
    exact ⟨parse_of_faulty faulty, parse_of_faulty (parted ▸ faulty.behind contribute)⟩
  case sound =>
    intro entries further contribute beyond
    have all := contribute.append beyond
    rw [← parted] at all
    simp only [parse_of_contribute all, List.append_eq_nil_iff]
  case splits => exact Text.exists_splits
  case padded => exact parsedAlike_weave
  case returned =>
    intro script
    rw [parse, parse, Text.lines_withReturns]

theorem parse_composes_comment :
    let text := "# a\n".toList
    let behind := "\x7boops".toList
    let blank := "\r\n".toList
    let comment := "  # b\n".toList
    let reason := "key must be a string at line 1 column 2"
    Text.Whole text ∧ Composes text behind ∧
      parse (text ++ behind) = .error (.badLine 2 reason) ∧
      parse (blank ++ text ++ comment ++ behind) = .error (.badLine 4 reason) := by
  intro text behind blank comment reason
  have whole : Text.Whole text := by decide
  have composes := parse_composes whole behind
  have speaks : ¬ Silent behind := by decide
  let fault : EntryFault := .grammar ⟨.keyMustBeString, Text.Utf8.encode "ops".toList⟩
  have unread : Entry.parse (entryText behind) = .error fault := rfl
  have worded : fault.message (entryText behind) = reason := by decide
  have faulty : Faulty [behind] 1 (.unreadable reason) :=
    worded ▸ .here (.unreadable speaks unread) []
  have quiet : Contribute (Text.lines text) [] := .cons (.silent (by decide)) .nil
  have splits : Text.Splits (text ++ behind) [text] behind :=
    ⟨rfl, List.forall_mem_singleton.mpr ⟨"# a".toList, rfl, by decide⟩, by decide⟩
  have muteBlank : MuteRow blank := ⟨⟨"\r".toList, rfl, by decide⟩, by decide⟩
  have muteComment : MuteRow comment := ⟨⟨"  # b".toList, rfl, by decide⟩, by decide⟩
  refine ⟨whole, composes, (composes.faultyBehind quiet faulty).2, ?_⟩
  have mute : ∀ group ∈ [[blank], [comment]], ∀ row ∈ group, MuteRow row := by
    simp [muteBlank, muteComment]
  exact ((composes.padded splits mute).faulty (.behind quiet faulty)).2

end Airlock.Script
