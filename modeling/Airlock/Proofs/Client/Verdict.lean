import Airlock.Proofs.Client.Numbering

/-!
# Verdicts on requests

A history decides what becomes of a request: nothing before it is issued, and afterwards whatever
comes first of a response with exactly its identifier, its timeout and the end of the client.
-/

set_option autoImplicit false

namespace Airlock.Client

inductive Verdict where
  | unissued
  | undecided
  | decided (result : Except Error Value)

/-- The result that an outcome is to whoever waits for it. -/
def result : Outcome → Except Error Value
  | .ok value => .ok value
  | .error error => .error (.peer error)

def Verdict.next (id : Id) : Verdict → Occurrence → Verdict
  | .unissued, .issued other _ => if other = id then .undecided else .unissued
  | .undecided, .arrived other outcome _ =>
    if other = id then .decided (result outcome) else .undecided
  | .undecided, .expired other timeout =>
    if other = id then .decided (.error (.timeout id timeout)) else .undecided
  | .undecided, .closed => .decided (.error .closed)
  | verdict, _ => verdict

def History.verdict (id : Id) : History → Verdict
  | [] => .unissued
  | occurrence :: history => (History.verdict id history).next id occurrence

def History.resolutions : History → List Id
  | [] => []
  | .resolved id _ :: history => id :: History.resolutions history
  | _ :: history => History.resolutions history

@[simp] theorem History.verdict_cons (id : Id) (occurrence : Occurrence) (history : History) :
    History.verdict id (occurrence :: history) =
      (History.verdict id history).next id occurrence := rfl

/-- What a poll of an awaited handle comes to, by the verdict on its request. -/
def Verdict.poll (verdict : Verdict) (timeout? : Option Duration) (now : Duration)
    (awaited : Awaited) : Poll (Except Error Value) :=
  match verdict, timeout? with
  | .decided result, _ => .ready result
  | _, none => .waiting
  | _, some timeout =>
    if (awaited.deadline?.getD (now.add timeout)).nanoseconds ≤ now.nanoseconds then
      .ready (.error (.timeout awaited.id timeout))
    else .waiting

def Occurrence.rules : Occurrence → Bool
  | .issued _ _ | .arrived _ _ _ | .expired _ _ | .closed => true
  | _ => false

theorem Verdict.next_idle {id : Id} {occurrence : Occurrence} (idle : occurrence.rules = false)
    (verdict : Verdict) : verdict.next id occurrence = verdict := by
  cases occurrence with
  | issued | arrived | expired | closed => cases idle
  | _ => cases verdict <;> rfl

/-- Only what is undecided is decided, and only what is unissued is issued. -/
theorem Verdict.next_cases (id : Id) (verdict : Verdict) (occurrence : Occurrence) :
    verdict.next id occurrence = verdict ∨
      (verdict = .unissued ∧ ∃ call, occurrence = .issued id call) ∨
      verdict = .undecided ∧ ∃ result, verdict.next id occurrence = .decided result := by
  by_cases idle : occurrence.rules = false
  · exact .inl (next_idle idle verdict)
  cases verdict with
  | decided result => exact .inl rfl
  | unissued =>
    cases occurrence with
    | issued other call =>
      by_cases same : other = id
      · exact .inr (.inl ⟨rfl, call, by rw [same]⟩)
      · exact .inl (if_neg same)
    | _ => exact .inl rfl
  | undecided =>
    cases occurrence with
    | arrived other outcome waited =>
      by_cases same : other = id
      · exact .inr (.inr ⟨rfl, _, if_pos same⟩)
      · exact .inl (if_neg same)
    | expired other timeout =>
      by_cases same : other = id
      · exact .inr (.inr ⟨rfl, _, if_pos same⟩)
      · exact .inl (if_neg same)
    | closed => exact .inr (.inr ⟨rfl, _, rfl⟩)
    | _ => exact .inl rfl

/-- The request that an occurrence issues or decides by its identifier. -/
def Occurrence.subject? : Occurrence → Option Id
  | .issued id _ | .arrived id _ _ | .expired id _ => some id
  | _ => none

/-- Identifiers are told apart exactly: what names one request says nothing about another. -/
theorem Verdict.next_other {id other : Id} {occurrence : Occurrence} (different : other ≠ id)
    (names : occurrence.subject? = some id) (verdict : Verdict) :
    verdict.next other occurrence = verdict := by
  have apart : ¬id = other := Ne.symm different
  cases occurrence with
  | issued named call =>
    obtain rfl := Option.some.inj names
    cases verdict with
    | unissued => exact if_neg apart
    | _ => rfl
  | arrived named outcome waited =>
    obtain rfl := Option.some.inj names
    cases verdict with
    | undecided => exact if_neg apart
    | _ => rfl
  | expired named timeout =>
    obtain rfl := Option.some.inj names
    cases verdict with
    | undecided => exact if_neg apart
    | _ => rfl
  | _ => cases names

theorem Verdict.next_issued {id : Id} {verdict : Verdict} (issued : verdict ≠ .unissued)
    (occurrence : Occurrence) : verdict.next id occurrence ≠ .unissued := by
  rcases next_cases id verdict occurrence with same | ⟨unissued, -⟩ | ⟨-, result, decided⟩
  · rwa [same]
  · exact absurd unissued issued
  · rw [decided]
    intro unissued
    cases unissued

end Airlock.Client
