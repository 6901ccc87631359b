import Airlock.Proofs.Client.Path

/-!
# The numbers of requests

Every call for a request takes the next number, also when the call is refused. The numbers are
counted here without a bound; as identifiers they are 64-bit integers, so that they differ, and come
in the order of the calls, as long as the count is below `2 ^ 63`.
-/

set_option autoImplicit false

namespace Airlock

namespace Id

def nth (count : Nat) : Id :=
  .number (Int64.ofNat count)

theorem nth_inj {first second : Nat} (firstSmall : first < 0x8000000000000000)
    (secondSmall : second < 0x8000000000000000) :
    nth first = nth second ↔ first = second := by
  refine ⟨fun same => ?_, fun same => by rw [same]⟩
  have numbers : Int64.ofNat first = Int64.ofNat second := Id.number.inj same
  have integers := congrArg Int64.toInt numbers
  rw [Int64.toInt_ofNat_of_lt firstSmall, Int64.toInt_ofNat_of_lt secondSmall] at integers
  exact Int.ofNat.inj integers

theorem ofNat_lt_ofNat {first second : Nat} (firstSmall : first < 0x8000000000000000)
    (secondSmall : second < 0x8000000000000000) :
    Int64.ofNat first < Int64.ofNat second ↔ first < second := by
  rw [Int64.lt_iff_toInt_lt, Int64.toInt_ofNat_of_lt firstSmall,
    Int64.toInt_ofNat_of_lt secondSmall]
  exact Int.ofNat_lt

theorem nth_precedes {first second : Nat} (firstSmall : first < 0x8000000000000000)
    (secondSmall : second < 0x8000000000000000) :
    (nth first).precedes (nth second) = true ↔ first < second := by
  rw [← ofNat_lt_ofNat firstSmall secondSmall]
  exact decide_eq_true_iff

/-! ## Ordered identifiers -/

theorem ne_of_precedes {first second : Id} (before : first.precedes second = true) :
    first ≠ second := by
  rintro rfl
  cases first with
  | number n => exact Int64.lt_irrefl (of_decide_eq_true before)
  | string s => exact String.lt_irrefl s (of_decide_eq_true before)

theorem mem_insertOrdered {id other : Id} {ids : List Id} :
    other ∈ id.insertOrdered ids ↔ other = id ∨ other ∈ ids := by
  induction ids with
  | nil => simp [insertOrdered]
  | cons head rest ih =>
    rw [insertOrdered]
    split
    · rename_i same
      subst same
      simp
    · split
      · simp
      · rw [List.mem_cons, ih, List.mem_cons]
        exact or_left_comm

/-- The identifier of a later request goes to the end. -/
theorem insertOrdered_last {id : Id} {ids : List Id}
    (last : ∀ other ∈ ids, other ≠ id ∧ id.precedes other = false) :
    id.insertOrdered ids = ids ++ [id] := by
  induction ids with
  | nil => rfl
  | cons head rest ih =>
    have ⟨different, after⟩ := last head (by simp)
    rw [insertOrdered, if_neg (Ne.symm different), if_neg (by simp [after]),
      ih fun other member => last other (by simp [member])]
    rfl

end Id

namespace Client

variable {π : Type}

/-! ## Counting calls -/

/-- How many numbers an occurrence takes. A request for the handshake takes its number when it opens
the handshake. -/
def Occurrence.calls : Occurrence π → Nat
  | .attempted _ | .refused _ => 1
  | .issued _ call | .withdrawn _ call => if call.method = Methods.handshake then 0 else 1
  | _ => 0

def History.calls : History π → Nat
  | [] => 0
  | occurrence :: history => History.calls history + occurrence.calls

@[simp] theorem History.calls_cons (occurrence : Occurrence π) (history : History π) :
    History.calls (occurrence :: history) = History.calls history + occurrence.calls := rfl

theorem calls_extend (history : History π) (trail : Trail π) :
    history.calls ≤ (history.extend trail).calls := by
  induction trail generalizing history with
  | nil => exact Nat.le_refl _
  | cons entry rest ih =>
    rw [History.extend_cons]
    exact Nat.le_trans (Nat.le_add_right _ _) (ih (entry.1 :: history))

theorem calls_requestTrail (history : History π) (client : Client π) (call : Call) :
    (history.extend (client.requestTrail call)).calls = history.calls + 1 := by
  unfold requestTrail submitted
  rcases result : client.begin call with ⟨reply, begun⟩
  cases reply with
  | error error => rfl
  | ok id =>
    dsimp only
    by_cases opening : call.method = Methods.handshake
    · rw [if_pos opening]
      split <;> simp [Occurrence.calls, opening]
    · rw [if_neg opening]
      split <;> simp [Occurrence.calls, opening]

end Client

end Airlock
