import Airlock.Channel.Poll

/-!
# Cooperative schedules

Suspended calls are kept as tasks by name, in the order they were started. A task takes a turn when
it is polled: it goes as far as it can by itself. Pumping gives every task its turn, in their order,
over and over until a whole round moves nothing.
-/

set_option autoImplicit false

namespace Airlock

/-- What a turn of a task comes to. `moved` tells whether the turn changed anything that another
task can see. -/
inductive Turn (τ ρ : Type) where
  | finished (result : ρ)
  | kept (task : τ) (moved : Bool)

/-- Tasks by name, in the order they were started. -/
structure Schedule (τ : Type) where
  tasks : List (String × τ) := []

/-- Rounds that pumping takes at most, far beyond what the work of a conversation needs. -/
def Schedule.patience : Nat := 1000000

namespace Schedule

variable {τ ρ ω : Type}

/-- Gives a new task its first turn, and keeps it unless it is finished. -/
def start (schedule : Schedule τ) (turn : τ → ω → Turn τ ρ × ω) (name : String) (task : τ)
    (world : ω) : Option ρ × Schedule τ × ω :=
  match turn task world with
  | (.finished result, world) => (some result, schedule, world)
  | (.kept task _, world) => (none, ⟨schedule.tasks ++ [(name, task)]⟩, world)

/-- Gives the first task of a name its turn. The answer is the result, if the task is finished;
there is no answer if there is no such task. -/
def poll (turn : τ → ω → Turn τ ρ × ω) (name : String) :
    List (String × τ) → ω → Option (Option ρ) × List (String × τ) × ω
  | [], world => (none, [], world)
  | (held, task) :: rest, world =>
    if held = name then
      match turn task world with
      | (.finished result, world) => (some (some result), rest, world)
      | (.kept task _, world) => (some none, (held, task) :: rest, world)
    else
      let (answer, rest, world) := poll turn name rest world
      (answer, (held, task) :: rest, world)

def cancel (schedule : Schedule τ) (name : String) : Option τ × Schedule τ :=
  (schedule.tasks.lookup name, ⟨schedule.tasks.eraseP (·.1 = name)⟩)

/-- The place of a task: it waits, or it is finished. -/
inductive Slot (τ ρ : Type) where
  | waiting (task : τ)
  | done (result : ρ)

/-- Gives every waiting task its turn; tells whether anything moved. -/
def round (turn : τ → ω → Turn τ ρ × ω) :
    List (String × Slot τ ρ) → ω → Bool × List (String × Slot τ ρ) × ω
  | [], world => (false, [], world)
  | (name, .done result) :: rest, world =>
    let (moved, rest, world) := round turn rest world
    (moved, (name, .done result) :: rest, world)
  | (name, .waiting task) :: rest, world =>
    match turn task world with
    | (.finished result, world) =>
      let (_, rest, world) := round turn rest world
      (true, (name, .done result) :: rest, world)
    | (.kept task moved, world) =>
      let (restMoved, rest, world) := round turn rest world
      (moved || restMoved, (name, .waiting task) :: rest, world)

/-- Rounds until one moves nothing, at most as many as given. -/
def rounds (turn : τ → ω → Turn τ ρ × ω) (before : ω → Bool × ω) :
    Nat → List (String × Slot τ ρ) → ω → List (String × Slot τ ρ) × ω
  | 0, slots, world => (slots, world)
  | limit + 1, slots, world =>
    let (early, world) := before world
    let (moved, slots, world) := round turn slots world
    if early || moved then rounds turn before limit slots world else (slots, world)

/-- Polls all tasks until none can go on. `before` runs before every round. The answer lists the
results in the order in which their tasks were started. -/
def pump (schedule : Schedule τ) (turn : τ → ω → Turn τ ρ × ω) (before : ω → Bool × ω)
    (world : ω) : List (String × ρ) × Schedule τ × ω :=
  let slots := schedule.tasks.map fun (name, task) => (name, Slot.waiting task)
  let (slots, world) := rounds turn before patience slots world
  let results := slots.filterMap fun
    | (name, .done result) => some (name, result)
    | (_, .waiting _) => none
  let tasks := slots.filterMap fun
    | (_, .done _) => none
    | (name, .waiting task) => some (name, task)
  (results, ⟨tasks⟩, world)

end Schedule

end Airlock
