import Airlock.Proofs.Json.RoundTrip

/-!
# JSON text with more behind it

More text behind a value changes nothing in how the value is read, as long as the reading does not
fail: of what follows, the machine keeps only a copy for the places of faults. So text that ends
with a brace is read up to that brace whatever follows it, and then everything but blanks is at
fault.
-/

set_option autoImplicit false

namespace Airlock.Json

variable (extra : Bytes)

def TextScan.append (scan : TextScan) : TextScan :=
  { scan with opened := scan.opened ++ extra }

def TextStep.append : TextStep → TextStep
  | .more scan => .more (scan.append extra)
  | .done text => .done text

def Mode.append : Mode → Mode
  | .key before scan => .key before (scan.append extra)
  | .text scan => .text (scan.append extra)
  | mode => mode

/-- The machine that knows of more text behind its own. -/
def Machine.append (machine : Machine) : Machine :=
  { machine with mode := machine.mode.append extra }

def Step.append : Step → Step
  | .more machine => .more (machine.append extra)
  | .complete value => .complete value

/-! ## Single bytes -/

/-- Where one reading succeeds the other one does, with a changed result. -/
def Extends {α : Type} (change : α → α) (read readMore : Except Fault α) : Prop :=
  ∀ next, read = .ok next → readMore = .ok (change next)

namespace Extends

variable {α : Type} {change : α → α}

private theorem ok {next changed : α} (same : change next = changed) :
    Extends change (.ok next) (.ok changed) := by
  rintro _ ⟨⟩
  rw [same]

private theorem error {fault : Fault} {readMore : Except Fault α} :
    Extends change (.error fault) readMore :=
  nofun

private theorem ite {condition : Prop} [Decidable condition]
    {first second firstMore secondMore : Except Fault α}
    (holds : condition → Extends change first firstMore)
    (fails : ¬ condition → Extends change second secondMore) :
    Extends change (if condition then first else second)
      (if condition then firstMore else secondMore) := by
  by_cases decided : condition
  · simpa only [decided, if_true] using holds decided
  · simpa only [decided, if_false] using fails decided

end Extends

namespace TextScan

variable (scan : TextScan) (rest : Bytes)

private theorem close_append :
    Extends (TextStep.append extra) (scan.close rest)
      ((scan.append extra).close (rest ++ extra)) := by
  unfold close
  simp only [append]
  cases Text.Utf8.decode scan.content.reverse with
  | ok text => exact .ok rfl
  | error fault => exact .error

private theorem unit_append (leading? : Option Nat) (found : Nat) :
    Extends (TextStep.append extra) (scan.unit leading? found rest)
      ((scan.append extra).unit leading? found (rest ++ extra)) := by
  cases leading? with
  | none => exact .ite (fun _ => .error) fun _ => .ite (fun _ => .ok rfl) fun _ => .ok rfl
  | some leading => exact .ite (fun _ => .ok rfl) fun _ => .error

private theorem step_append (b : UInt8) :
    Extends (TextStep.append extra) (scan.step b rest)
      ((scan.append extra).step b (rest ++ extra)) := by
  obtain ⟨opened, content, escape⟩ := scan
  cases escape with
  | plain =>
    exact .ite (fun _ => close_append extra _ rest) fun _ => .ite (fun _ => .ok rfl) fun _ =>
      .ite (fun _ => .error) fun _ => .ok rfl
  | begun =>
    refine .ite (fun _ => .ok rfl) fun _ => ?_
    cases escapeOf? b with
    | some meant => exact .ok rfl
    | none => exact .error
  | digits leading? taken =>
    refine .ite (fun _ => .ok rfl) fun _ => ?_
    cases codeUnit? (b :: taken).reverse with
    | some found => exact unit_append extra _ rest leading? found
    | none => exact .error
  | paired leading => exact .ite (fun _ => .ok rfl) fun _ => .error
  | pairedLetter leading => exact .ite (fun _ => .ok rfl) fun _ => .error

end TextScan

namespace Machine

variable (room : Nat) (stack : List Frame) (b : UInt8) (rest : Bytes)

private theorem openContainer_append {opened : Machine} (plain : opened.append extra = opened) :
    Extends (Step.append extra) (openContainer room stack opened rest)
      (openContainer room stack opened (rest ++ extra)) :=
  .ite (fun _ => .ok (congrArg Step.more plain)) fun _ => .error

private theorem beginValue_append :
    Extends (Step.append extra) (beginValue room stack b rest)
      (beginValue room stack b (rest ++ extra)) :=
  .ite (fun _ => .ok rfl) fun _ =>
    .ite (fun _ => .ok rfl) fun _ =>
    .ite (fun _ => .ok rfl) fun _ =>
    .ite (fun _ => openContainer_append extra room stack rest rfl) fun _ =>
    .ite (fun _ => openContainer_append extra room stack rest rfl) fun _ =>
    .ite (fun _ => .ok rfl) fun _ =>
    .ite (fun _ => .ok rfl) fun _ =>
    .ite (fun _ => .ok rfl) fun _ => .error

private theorem behindValue_append (value : Value) :
    Extends (Step.append extra) (behindValue value stack b rest)
      (behindValue value stack b (rest ++ extra)) := by
  match stack with
  | [] => exact .ok rfl
  | .items before :: outer =>
    exact .ite (fun _ => .ok rfl) fun _ => .ite (fun _ => .ok rfl) fun _ =>
      .ite (fun _ => .ok rfl) fun _ => .error
  | .members before key :: outer =>
    exact .ite (fun _ => .ok rfl) fun _ => .ite (fun _ => .ok rfl) fun _ =>
      .ite (fun _ => .ok rfl) fun _ => .error

/-- What a byte does does not depend on how much follows it, but for faults. -/
theorem step_append (machine : Machine) :
    Extends (Step.append extra) (machine.step room b rest)
      ((machine.append extra).step room b (rest ++ extra)) := by
  obtain ⟨mode, stack⟩ := machine
  have begins := beginValue_append extra room stack b rest
  cases mode with
  | value => exact .ite (fun _ => .ok rfl) fun _ => begins
  | firstItem =>
    exact .ite (fun _ => .ok rfl) fun _ => .ite (fun _ => .ok rfl) fun _ => begins
  | nextItem => exact .ite (fun _ => .ok rfl) fun _ => .ite (fun _ => .error) fun _ => begins
  | firstKey =>
    exact .ite (fun _ => .ok rfl) fun _ => .ite (fun _ => .ok rfl) fun _ =>
      .ite (fun _ => .ok rfl) fun _ => .error
  | nextKey before =>
    exact .ite (fun _ => .ok rfl) fun _ => .ite (fun _ => .ok rfl) fun _ =>
      .ite (fun _ => .error) fun _ => .error
  | key before scan =>
    intro next read
    have agrees := scan.step_append extra rest b
    simp only [step, append, Mode.append] at read ⊢
    cases scanned : scan.step b rest with
    | error fault => simp [scanned] at read
    | ok found =>
      rw [agrees found scanned]
      simp only [scanned] at read
      cases found <;> (cases read; rfl)
  | colon before key =>
    exact .ite (fun _ => .ok rfl) fun _ => .ite (fun _ => .ok rfl) fun _ => .error
  | text scan =>
    intro next read
    have agrees := scan.step_append extra rest b
    simp only [step, append, Mode.append] at read ⊢
    cases scanned : scan.step b rest with
    | error fault => simp [scanned] at read
    | ok found =>
      rw [agrees found scanned]
      simp only [scanned] at read
      cases found <;> (cases read; rfl)
  | number scan =>
    simp only [step, append, Mode.append]
    cases scan.step b with
    | more next => exact .ok rfl
    | fails cause => exact .error
    | ends =>
      cases scan.finish with
      | ok number => exact behindValue_append extra stack b rest _
      | error cause => exact .error
  | word due meant =>
    cases due with
    | nil => exact behindValue_append extra stack b rest meant
    | cons next others =>
      cases others
      all_goals exact .ite (fun _ => .ok rfl) fun _ => .error
  | behind value => exact behindValue_append extra stack b rest value

/-! ## Whole texts -/

private theorem behindValue_isBehind {value : Value} {next : Machine}
    (read : behindValue value stack b rest = .ok (.more next)) :
    ∀ scan, next.mode ≠ .number scan := by
  cases stack with
  | nil => cases read
  | cons frame outer =>
    cases frame
    all_goals
      simp only [behindValue] at read
      repeat' split at read
    all_goals cases read
    all_goals rintro _ ⟨⟩

private theorem step_brace_number (scan : NumberScan) :
    scan.step (byte '\x7d') = .ends ∨ ∃ cause, scan.step (byte '\x7d') = .fails cause := by
  cases scan with
  | sign | point | mark | markSign => exact .inr ⟨_, rfl⟩
  | _ => exact .inl rfl

/-- No closing brace is inside a number. -/
theorem step_brace_notNumber {machine next : Machine}
    (read : machine.step room (byte '\x7d') rest = .ok (.more next)) :
    ∀ scan, next.mode ≠ .number scan := by
  obtain ⟨mode, stack⟩ := machine
  cases mode with
  | value | firstItem | nextItem | nextKey | colon => cases read
  | firstKey =>
    cases read
    rintro _ ⟨⟩
  | key before scan =>
    simp only [step] at read
    split at read <;> cases read <;> rintro _ ⟨⟩
  | text scan =>
    simp only [step] at read
    split at read <;> cases read <;> rintro _ ⟨⟩
  | number scan =>
    simp only [step] at read
    obtain ends | ⟨cause, fails⟩ := step_brace_number scan
    · rw [ends] at read
      dsimp only at read
      split at read
      · exact behindValue_isBehind stack _ rest read
      · cases read
    · rw [fails] at read
      cases read
  | word due meant =>
    cases due with
    | nil => exact behindValue_isBehind stack _ rest read
    | cons next others =>
      cases others
      all_goals
        simp only [step] at read
        split at read <;> cases read
        rintro _ ⟨⟩
  | behind value => exact behindValue_isBehind stack _ rest read

theorem run_nil_append {machine : Machine} {value : Value} {rest : Bytes}
    (notNumber : ∀ scan, machine.mode ≠ .number scan)
    (read : machine.run room [] = .ok (value, rest)) :
    (machine.append extra).run room extra = .ok (value, rest ++ extra) := by
  obtain ⟨mode, stack⟩ := machine
  cases mode with
  | number scan => exact absurd rfl (notNumber scan)
  | behind found =>
    cases stack with
    | nil =>
      cases read
      cases extra <;> rfl
    | cons frame outer => cases frame <;> cases read
  | _ => cases read

/-- Text that ends with a brace is read the same with more text behind it. -/
theorem run_append {bytes rest : Bytes} {value : Value} {machine : Machine}
    (last : bytes.getLast? = some (byte '\x7d'))
    (read : machine.run room bytes = .ok (value, rest)) :
    (machine.append extra).run room (bytes ++ extra) = .ok (value, rest ++ extra) := by
  induction bytes generalizing machine with
  | nil => cases last
  | cons b bytes ih =>
    have agrees := step_append extra room b bytes machine
    rw [List.cons_append, run]
    rw [run] at read
    cases stepped : machine.step room b bytes with
    | error fault => simp [stepped] at read
    | ok found =>
      rw [agrees found stepped]
      simp only [stepped] at read
      cases found with
      | complete value =>
        cases read
        rfl
      | more next =>
        simp only [Step.append] at read ⊢
        cases bytes with
        | nil =>
          -- A number could go on with what follows, so the last byte must not be inside one.
          obtain rfl : b = byte '\x7d' := by simpa using last
          exact run_nil_append extra room (step_brace_notNumber room _ stepped) read
        | cons following bytes => exact ih (by simpa using last) read

end Machine

/-- Behind text that ends with a brace only blanks may follow. -/
theorem decode_append {bytes : Bytes} {value : Value} (last : bytes.getLast? = some (byte '\x7d'))
    (read : decode bytes = .ok value) :
    decode (bytes ++ extra) = (expectEnd extra).map fun _ => value := by
  unfold decode at read ⊢
  cases found : readValue 0 bytes with
  | error fault => simp [found, bind, Except.bind] at read
  | ok result =>
    obtain ⟨result, rest⟩ := result
    have more : readValue 0 (bytes ++ extra) = .ok (result, rest ++ extra) :=
      Machine.run_append extra _ last found
    rw [found] at read
    rw [more]
    simp only [bind, Except.bind, pure, Except.pure, expectEnd] at read ⊢
    cases blank : rest.dropWhile isBlankByte with
    | cons b behind => simp [blank] at read
    | nil =>
      have same : (rest ++ extra).dropWhile isBlankByte = extra.dropWhile isBlankByte := by
        rw [List.dropWhile_append, blank]
        rfl
      simp only [blank, Except.ok.injEq] at read
      rw [same, read]
      cases extra.dropWhile isBlankByte <;> rfl

end Airlock.Json
