import Airlock.Proofs.Client.Accounting
import Airlock.Proofs.Client.Resolution

/-!
# What the loop acts on

The loop takes the units out of the sink one after the other and acts on each. Therefore the
responses that arrive in a run are those among the units acted on, in their order, and what becomes
of a request is its first response among them, as long as it neither times out nor loses its client.
-/

set_option autoImplicit false

namespace Airlock

/-- The request that a unit is a response to, and its outcome. -/
def Codec.response? (codec : Codec) (unit : Bytes) : Option (Id × Outcome) :=
  match codec.decode unit with
  | .ok (.response id outcome) => some (id, outcome)
  | _ => none

/-- The first response to a request among units. -/
def Codec.answer? (codec : Codec) (units : List Bytes) (id : Id) : Option Outcome :=
  (units.filterMap codec.response?).lookup id

namespace Client

/-- The unit that the next step of the loop acts on. -/
def next? (client : Client) : Option Bytes :=
  match client.link.receive.1 with
  | .ready (.ok unit?) => unit?
  | _ => none

private theorem receive_next {client : Client} {unit : Bytes} (next : client.next? = some unit) :
    client.link.receive.1 = .ready (.ok (some unit)) := by
  unfold next? at next
  split at next
  · rename_i unit? received
    rw [received, next]
  · cases next

theorem step_next {client : Client} {unit : Bytes} (next : client.next? = some unit) :
    client.step = (.accepted, client.received.accept unit) := by
  have taken := receive_next next
  unfold step received
  rcases received : client.link.receive with ⟨polled, link⟩
  rw [received] at taken
  obtain rfl : polled = .ready (.ok (some unit)) := taken
  rfl

namespace World

/-- The unit that an act of the loop acts on. -/
def taken (world : World) : Act → List Bytes
  | .intake => if world.looping then world.client.next?.toList else []
  | _ => []

/-- The units that are acted on, the oldest first. -/
def dispatched : World → List Act → List Bytes
  | _, [] => []
  | world, next :: rest => world.taken next ++ dispatched (world.act next) rest

theorem dispatched_append (world : World) (first second : List Act) :
    world.dispatched (first ++ second) =
      world.dispatched first ++ (world.run first).dispatched second := by
  induction first generalizing world with
  | nil => rfl
  | cons next rest ih =>
    rw [List.cons_append, dispatched, ih, dispatched, List.append_assoc]
    rfl

end World

/-! ## Responses that arrive -/

def Occurrence.arrival? : Occurrence → Option (Id × Outcome)
  | .arrived id outcome _ => some (id, outcome)
  | _ => none

/-- The responses that arrived, the oldest first. -/
def Trail.arrivals (trail : Trail) : List (Id × Outcome) :=
  trail.filterMap (·.1.arrival?)

private theorem Trail.arrivals_append (first second : Trail) :
    Trail.arrivals (first ++ second) = Trail.arrivals first ++ Trail.arrivals second :=
  List.filterMap_append

variable {client last after : Client} {trail : Trail}

private theorem Chain.arrivals (chain : Chain client trail last) : Trail.arrivals trail = [] := by
  induction chain with
  | nil => rfl
  | @cons client middle last occurrence rest outgoing _ ih =>
    have silent : occurrence.arrival? = none := by
      cases occurrence with
      | arrived id outcome waited => exact absurd rfl (outgoing.own id outcome waited)
      | _ => rfl
    simp only [Trail.arrivals, List.filterMap_cons, silent]
    exact ih

private theorem Takes.arrivals (takes : Takes client trail last) :
    Trail.arrivals trail = client.next?.toList.filterMap client.codec.response? := by
  cases takes with
  | plain other chain =>
    refine chain.arrivals.trans ?_
    cases next : client.next? with
    | none => rfl
    | some unit =>
      have silent : client.codec.response? unit = none := by
        unfold Codec.response?
        split
        · rename_i id outcome reads
          exact absurd reads (other unit id outcome (receive_next next))
        · rfl
      simp [silent]
  | @response unit id outcome _ _ _ taken reads chain =>
    have next : client.next? = some unit := by
      unfold next?
      rw [taken]
    have answers : client.codec.response? unit = some (id, outcome) := by
      unfold Codec.response?
      rw [reads]
    rw [next, Option.toList_some, List.filterMap_cons_some answers]
    exact congrArg (List.cons _) chain.arrivals

namespace World

private theorem arrivals_act (world : World) (act : Act) :
    Trail.arrivals (world.actTrail act) =
      (world.taken act).filterMap world.client.codec.response? := by
  cases act with
  | intake =>
    cases looping : world.looping with
    | true =>
      rw [(intake_looping looping).1, (takes_step world.client).arrivals, taken, if_pos looping]
    | false =>
      rw [(intake_idle looping).1, taken, if_neg (by simp [looping])]
      rfl
  | link move => rfl
  | start => rcases world.start_cases with ⟨-, trail, -⟩ | ⟨-, trail, -⟩ <;> rw [trail] <;> rfl
  | call | cancel | await | shutdown | poll | forget => exact (world.chain_act rfl).arrivals

theorem arrivals_trail (world : World) (acts : List Act) :
    Trail.arrivals (world.trail acts) =
      (world.dispatched acts).filterMap world.client.codec.response? := by
  induction acts generalizing world with
  | nil => rfl
  | cons next rest ih =>
    rw [trail, Trail.arrivals_append, arrivals_act, ih, (world.keeps_act next).1.codec, dispatched,
      List.filterMap_append]

end World

/-! ## Verdicts -/

variable {history : History} {id : Id}

theorem verdict_extend_decided {found : Except Error Value}
    (decided : history.verdict id = .decided found) (trail : Trail) :
    (history.extend trail).verdict id = .decided found := by
  induction trail generalizing history with
  | nil => exact decided
  | cons entry rest ih =>
    rw [History.extend_cons]
    apply ih
    rw [History.verdict_cons, decided]
    rfl

private theorem lookup_arrivals_apart {occurrence : Occurrence} (after : Client) (rest : Trail)
    (apart : ∀ outcome, occurrence.arrival? ≠ some (id, outcome)) :
    (Trail.arrivals ((occurrence, after) :: rest)).lookup id = (Trail.arrivals rest).lookup id := by
  unfold Trail.arrivals
  rw [List.filterMap_cons]
  split
  · rfl
  · rename_i entry arrived
    obtain ⟨other, outcome⟩ := entry
    have different : id ≠ other := by
      rintro rfl
      exact apart outcome arrived
    rw [List.lookup_cons, beq_false_of_ne different]

/-- A request that is in time comes to its first response, unless its client ended before. -/
theorem verdict_extend (undecided : history.verdict id = .undecided)
    (timely : ∀ timeout, .expired id timeout ∉ trail.map (·.1)) :
    ((history.extend trail).verdict id =
      match (Trail.arrivals trail).lookup id with
      | some outcome => .decided (result outcome)
      | none => .undecided) ∨
    .closed ∈ trail.map (·.1) ∧ (history.extend trail).verdict id = .decided (.error .closed) := by
  induction trail generalizing history with
  | nil => exact .inl undecided
  | cons entry rest ih =>
    obtain ⟨occurrence, after⟩ := entry
    simp only [List.map_cons, List.mem_cons, not_or] at timely
    rw [History.extend_cons]
    -- An occurrence that is none of the three leaves everything to those behind it.
    have idle (same : Verdict.next id .undecided occurrence = .undecided)
        (apart : ∀ outcome, occurrence.arrival? ≠ some (id, outcome)) :
        ((History.extend (occurrence :: history) rest).verdict id =
          match (Trail.arrivals ((occurrence, after) :: rest)).lookup id with
          | some outcome => .decided (result outcome)
          | none => .undecided) ∨
        .closed ∈ List.map (·.1) ((occurrence, after) :: rest) ∧
          (History.extend (occurrence :: history) rest).verdict id = .decided (.error .closed) := by
      rw [lookup_arrivals_apart after rest apart]
      have still : History.verdict id (occurrence :: history) = .undecided := by
        rw [History.verdict_cons, undecided, same]
      exact (ih still fun timeout => (timely timeout).2).imp_right
        (.imp_left (List.mem_cons_of_mem _))
    cases occurrence with
    | arrived other outcome waited =>
      by_cases same : other = id
      · subst same
        have decided : History.verdict other (.arrived other outcome waited :: history) =
            .decided (result outcome) := by
          rw [History.verdict_cons, undecided]
          exact if_pos rfl
        left
        rw [verdict_extend_decided decided]
        simp [Trail.arrivals, Occurrence.arrival?]
      · exact idle (if_neg same) (by simp [Occurrence.arrival?, same])
    | expired other timeout =>
      have different : other ≠ id := by
        rintro rfl
        exact (timely timeout).1 rfl
      exact idle (if_neg different) nofun
    | closed =>
      have decided : History.verdict id (.closed :: history) = .decided (.error .closed) := by
        rw [History.verdict_cons, undecided]
        rfl
      exact .inr ⟨List.mem_cons_self, verdict_extend_decided decided rest⟩
    | _ => exact idle rfl nofun

end Client

end Airlock
