import Airlock.Session.Basic

/-!
# Suspended calls of a session

Besides the calls of its client, running the host waits: begun through the session, on the host
itself, or detached on an executor, which lets each of its jobs go one round between the rounds of a
schedule.
-/

set_option autoImplicit false

namespace Airlock.Session

variable {τ : Type}

inductive Task where
  | client (task : Client.Task)
  /-- a run that was begun through the session -/
  | start (progress : Progress)
  /-- a run that was begun on the host -/
  | serve (progress : Progress)

/-- A session with the jobs on its executor. A job that was not polled yet has made no progress. -/
structure World (τ : Type) where
  session : Session τ
  jobs : List (Option Progress) := []

abbrev Task.Result := Client.Task.Result

def goOn (advance : Host τ → Progress → Bool × Progress × Host τ) (session : Session τ)
    (progress : Progress) : Bool × Progress × Session τ :=
  match session.host? with
  | none => (false, progress, session)
  | some host =>
    let (moved, progress, host) := advance host progress
    (moved, progress, session.updateHost fun _ => host)

def Task.turn (now : Duration) (task : Task) (world : World τ) : Turn Task Result × World τ :=
  let session := world.session
  match task with
  | .client inner =>
    match session.host? with
    | none => (.kept task false, world)
    | some host =>
      let (turned, later) := inner.turn now host.client
      let world := { world with session := session.updateClient fun _ => later }
      match turned with
      | .finished result => (.finished result, world)
      | .kept inner moved => (.kept (.client inner) moved, world)
  | .start progress =>
    let (moved, progress, session) := session.goOn Host.run progress
    match Host.result? progress with
    | some result => (.finished (.ended result), { world with session := session.finish result })
    | none => (.kept (.start progress) moved, { world with session })
  | .serve progress =>
    let (moved, progress, session) := session.goOn Host.run progress
    match Host.result? progress with
    | some result => (.finished (.ended result), { world with session })
    | none => (.kept (.serve progress) moved, { world with session })

def Task.abandon (task : Task) (world : World τ) : World τ :=
  match task with
  | .client inner => { world with session := world.session.updateClient inner.abandon }
  | .start _ | .serve _ => { world with session := world.session.updateHost Host.abandon }

/-- Lets one job go one round; gives what is left of it. -/
def pollJob (session : Session τ) (job : Option Progress) :
    Bool × Option (Option Progress) × Session τ :=
  let begun := match job with
    | some progress => Except.ok (false, progress, session)
    | none => session.begin.map fun (progress, session) => (true, progress, session)
  match begun with
  | .error _ => (true, none, session)
  | .ok (fresh, progress, session) =>
    let (moved, progress, session) := session.goOn Host.round progress
    if (Host.result? progress).isSome then (true, none, session)
    else (fresh || moved, some (some progress), session)

/-- Lets every job on the executor go one round; tells whether anything moved. -/
def pollJobs (world : World τ) : Bool × World τ :=
  let (moved, jobs, session) := world.jobs.foldl
    (fun (moved, jobs, session) job =>
      let (jobMoved, rest?, session) := pollJob session job
      (moved || jobMoved, jobs ++ rest?.toList, session))
    (false, [], world.session)
  (moved, { session, jobs })

end Airlock.Session
