import Airlock.Proofs.Client.Handshake

/-!
# Hooks behind the end of a client

Closing a client drops the hooks that wait in it, and from then on a hook that is registered is
dropped at once. A batch that is being drained at that moment has left the client already: what is
left of it still starts, in its order, and nothing else does.
-/

set_option autoImplicit false

namespace Airlock.Client

variable {history : History} {client after : Client} {trail first second : Trail}

/-! ## Parts of a trail -/

private theorem Trail.Along.and {strong weak : History → Client → Occurrence → Client → Prop}
    (one : Trail.Along strong history client trail)
    (other : Trail.Along weak history client trail) :
    Trail.Along (fun history before occurrence after =>
      strong history before occurrence after ∧ weak history before occurrence after)
      history client trail := by
  induction trail generalizing history client with
  | nil => trivial
  | cons entry rest ih => exact ⟨⟨one.1, other.1⟩, ih one.2 other.2⟩

private theorem Trail.Along.behind {relation : History → Client → Occurrence → Client → Prop}
    (along : Trail.Along relation history client (first ++ second)) :
    Trail.Along relation (history.extend first) (Trail.last client first) second := by
  induction first generalizing history client with
  | nil => exact along
  | cons entry rest ih =>
    rw [History.extend_cons]
    exact ih along.2

private theorem Trail.Along.before {relation : History → Client → Occurrence → Client → Prop}
    (along : Trail.Along relation history client (first ++ second)) :
    Trail.Along relation history client first := by
  induction first generalizing history client with
  | nil => trivial
  | cons entry rest ih => exact ⟨along.1, ih along.2⟩

/-! ## What is left of a batch -/

/-- The hooks that started, and behind them those that are due in the batch. -/
def History.committed (history : History) : List Program :=
  history.begun ++ history.frame.due

private theorem committed_aside {occurrence : Occurrence} (aside : occurrence.aside = true) :
    History.committed (occurrence :: history) = history.committed := by
  have same := Occurrence.aside_spec aside history
  rw [History.committed, History.committed, same.begun, History.frame_cons, same.due]

private theorem committed_began {hook : Program} {rest : List Program}
    (next : history.frame.due = hook :: rest) :
    History.committed (.began hook false :: history) = history.committed := by
  rw [History.committed, History.committed, History.frame_cons, Frame.next, History.begun, next,
    List.append_assoc]
  rfl

/-- What an occurrence does about the end of a client. Behind it no batch is gathered, and no hook
starts but the next one of the batch. -/
structure Dismisses (history : History) (before : Client) (occurrence : Occurrence)
    (after : Client) : Prop where
  stays : before.phase = .closed → after.phase = .closed
  ends : before.phase ≠ .closed → after.phase = .closed → occurrence = .closed
  commits : before.phase = .closed → History.committed (occurrence :: history) = history.committed
  counts : occurrence = .closed → history.registered = history.committed ++ before.hooks

private theorem commits_step {chunk : Trail} (kept : Kept history client)
    (step : Step history client chunk after) :
    Trail.Along (fun history before occurrence _ => before.phase = .closed →
      History.committed (occurrence :: history) = history.committed) history client chunk := by
  cases step with
  | started late =>
    have live : client.phase ≠ .closed := by
      rw [late]
      nofun
    exact ⟨fun _ => rfl, fun closed => absurd closed live, trivial⟩
  | began next => exact ⟨fun _ => committed_began next, trivial⟩
  | gathered draining free some taken =>
    exact ⟨fun closed => absurd (kept.torn closed).hooks some, trivial⟩
  | attemptWithdrawn | attemptIssued | expired =>
    exact ⟨fun _ => committed_aside rfl, fun _ => committed_aside rfl, trivial⟩
  | queued | dropped | ended | arrived | settled | announced | opened | delivered | orphaned =>
    exact ⟨fun _ => rfl, trivial⟩
  | _ => exact ⟨fun _ => committed_aside rfl, trivial⟩

private theorem counts_step {chunk : Trail} (ordered : Ordered history client)
    (step : Step history client chunk after) :
    Trail.Along (fun history before occurrence _ => occurrence = .closed →
      history.registered = history.committed ++ before.hooks) history client chunk := by
  cases step with
  | closed live => exact ⟨fun _ => ordered.kept live, trivial⟩
  | attemptWithdrawn | attemptIssued | started | expired => exact ⟨nofun, nofun, trivial⟩
  | _ => exact ⟨nofun, trivial⟩

private theorem Changes.ends {occurrence : Occurrence}
    (changes : Changes history client after occurrence)
    (live : client.phase ≠ .closed) (closed : after.phase = .closed) : occurrence = .closed := by
  cases changes with
  | stays same => exact absurd (same.symm.trans closed) live
  | sent idle opens => cases opens.symm.trans closed
  | unsent opening open? again => cases again.symm.trans closed
  | failed answered outstanding open? again => cases again.symm.trans closed
  | late outstanding open? again => cases again.symm.trans closed
  | succeeded answered open? done => cases done.symm.trans closed
  | ended done => rfl

private theorem dismisses_step {chunk : Trail} (kept : Kept history client)
    (ordered : Ordered history client) (step : Step history client chunk after) :
    Trail.Along Dismisses history client chunk := by
  have lawful := (kept_step kept step).1
  refine (lawful.and ((commits_step kept step).and (counts_step ordered step))).mono ?_
  rintro history before occurrence after ⟨⟨changes, -⟩, commits, counts⟩
  exact ⟨changes.keeps.closed, changes.ends, commits, counts⟩

/-- Behind the end the hooks that started and those that are due stay the same together. -/
theorem committed_extend (along : Trail.Along Dismisses history client trail)
    (closed : client.phase = .closed) : (history.extend trail).committed = history.committed := by
  induction trail generalizing history client with
  | nil => rfl
  | cons entry rest ih =>
    rw [History.extend_cons]
    exact (ih along.2 (along.1.stays closed)).trans (along.1.commits closed)

/-- Where no batch is left at the end, what starts behind a close is what was due there. -/
theorem begun_behind (along : Trail.Along Dismisses history client (first ++ second))
    (free : (history.extend (first ++ second)).frame.due = [])
    (closed : (Trail.last client first).phase = .closed) :
    second.begun = (history.extend first).frame.due := by
  have same := committed_extend along.behind closed
  rw [← History.extend_append, History.committed, free, List.append_nil, History.extend_append,
    begun_extend, History.committed] at same
  exact List.append_cancel_left same

/-- A client that is closed at some point was closed by an occurrence before it. -/
theorem closed_within (along : Trail.Along Dismisses history client trail)
    (live : client.phase ≠ .closed) (closed : (Trail.last client trail).phase = .closed) :
    ∃ before after behind, trail = before ++ (.closed, after) :: behind ∧
      (Trail.last client before).phase ≠ .closed ∧ after.phase = .closed := by
  induction trail generalizing history client with
  | nil => exact absurd closed live
  | cons entry rest ih =>
    obtain ⟨occurrence, middle⟩ := entry
    by_cases ended : middle.phase = .closed
    · have here : occurrence = .closed := along.1.ends live ended
      exact ⟨[], middle, rest, by rw [here]; rfl, live, ended⟩
    · obtain ⟨before, after, behind, split, open?, done⟩ := ih along.2 ended closed
      exact ⟨(occurrence, middle) :: before, after, behind, by rw [split]; rfl, open?, done⟩

/-! ## A batch that closes its client -/

/-- The client with its hooks taken out to be run. -/
def gathering (client : Client) : Client :=
  { client with hooks := [] }

/-- Where the first hook of a batch closes the client, the next one starts all the same. -/
theorem drainTrail_quits (hook : Program) (live : client.phase ≠ .closed)
    (waits : client.hooks = [.close .skip, hook]) :
    ∃ behind, client.drainTrail =
      [(.gathered client.hooks, client.gathering), (.began (.close .skip) false, client.gathering),
        (.closed, client.gathering.close)] ++
      (.ended (.close .skip), client.gathering.close) ::
        (.began hook false, client.gathering.close) :: behind := by
  have open? : client.gathering.phase ≠ .closed := live
  have some : client.hooks ≠ [] := by
    rw [waits]
    nofun
  rw [drainTrail, if_neg some, waits]
  change ∃ behind, (.gathered _, client.gathering) :: performAllTrail _ client.gathering ++ _ = _
  simp only [performAllTrail, performTrail, closeTrail, if_neg open?, Program.skip, perform]
  exact ⟨_, rfl⟩

namespace World

/-- A handshake that succeeds while two hooks wait for it, of which the first closes the client. -/
def quitting : List Act :=
  [.start,
    .call (.request (.handshake .null) fun _ => .hook (.close .skip) (.hook .skip .skip)),
    .link (.write (Config.default.codec.encode (.response (.nth 1) (.ok .null)))), .intake]

private theorem trail_quitting :
    ∃ earlier after behind, (create Config.default).trail quitting =
        earlier ++ (.ended (.close .skip), after) :: (.began .skip false, after) :: behind ∧
      (Trail.last (create Config.default).client earlier).phase = .closed ∧
      (Trail.history earlier).frame.due = [.skip] := by
  let world := (create Config.default).run (quitting.take 3)
  let client : Client := { world.client with link := world.client.link.receive.2 }
  have parts : (create Config.default).trail quitting =
      (create Config.default).trail (quitting.take 3) ++ world.trail [.intake] :=
    trail_append _ (quitting.take 3) [.intake]
  have looping : world.trail [.intake] = world.client.stepTrail := by
    rw [trail, trail, List.append_nil, actTrail]
    exact if_pos rfl
  have taken : world.client.stepTrail =
      (.quiet, client) :: client.responseTrail (.nth 1) (.ok .null) := rfl
  have live : client.phase ≠ .closed := by decide +kernel
  have success := responseTrail_success .null (show client.handshake? = some (.nth 1) from rfl) live
  have announces : client.sendsInitialized = true ∧ client.link.queue.closed = false := ⟨rfl, rfl⟩
  have told : (client.telling (.nth 1)).phase ≠ .closed := by decide +kernel
  obtain ⟨behind, drained⟩ := drainTrail_quits .skip told rfl
  rw [if_pos announces, drained] at success
  rw [parts, looping, taken, success]
  let gathered := (client.telling (.nth 1)).gathering
  refine ⟨(create Config.default).trail (quitting.take 3) ++
    [(.quiet, client), (.arrived (.nth 1) (.ok .null) true, client.leaving (.nth 1)),
      (.settled (.nth 1), client.settling (.nth 1)), (.announced, client.telling (.nth 1)),
      (.gathered [.close .skip, .skip], gathered), (.began (.close .skip) false, gathered),
      (.closed, gathered.close)], gathered.close,
    behind ++ [(.delivered (.nth 1) (.ok .null), client.acceptResponse (.nth 1) (.ok .null))],
    ?_, rfl, rfl⟩
  simp only [List.append_assoc, List.cons_append, List.nil_append]
  rfl

/-- A client that is closed at a point of a run was closed at one moment before it. The hooks that
were registered until then have started, are due in the batch that is being drained, or wait in the
client. From then on exactly those that are due still start, in their order. So none starts unless
a batch is being drained, and none ever that waits then, or is registered later. -/
theorem run_dismisses (config : Config) (acts : List Act) (earlier later : Trail)
    (split : (create config).trail acts = earlier ++ later)
    (closed : (Trail.last (create config).client earlier).phase = .closed) :
    later.begun = earlier.history.frame.due ∧
      ∃ before after behind, earlier = before ++ (.closed, after) :: behind ∧
        let client := Trail.last (create config).client before
        let past := before.history
        client.phase ≠ .closed ∧
        past.registered = past.begun ++ past.frame.due ++ client.hooks ∧
        Trail.begun (behind ++ later) = past.frame.due ∧
        (past.frame.due = [] → ¬Trail.Starts (behind ++ later)) := by
  obtain ⟨path, follows⟩ := path_trail (follows_create config) acts
  have kept : Kept ([] : History) (create config).client := kept_create config _
  have ordered : Ordered ([] : History) (create config).client := ordered_create config _
  obtain ⟨along, -⟩ := @Path.along _
    (fun history client => Kept history client ∧ Ordered history client) Dismisses
    (fun both step => ⟨dismisses_step both.1 both.2 step, (kept_step both.1 step).2,
      (ordered_step both.1 both.2 step).2⟩) _ _ _ _ path ⟨kept, ordered⟩
  have free := follows.calm.due
  rw [split] at along free
  refine ⟨begun_behind along free closed, ?_⟩
  obtain ⟨before, after, behind, rfl, live, ended⟩ := closed_within along.before nofun closed
  have moment : before ++ (.closed, after) :: behind ++ later =
      (before ++ [(.closed, after)]) ++ (behind ++ later) := by simp
  have counted := (along.before.behind).1.counts rfl
  rw [moment] at along free
  have starts := begun_behind along free (by simpa [Trail.last] using ended)
  have due : (History.extend [] (before ++ [(.closed, after)])).frame.due =
      before.history.frame.due := by
    rw [History.extend_append]
    rfl
  rw [due] at starts
  refine ⟨before, after, behind, rfl, live, counted, starts, ?_⟩
  intro none
  exact Trail.not_starts (starts.trans none)

theorem run_dismisses_quitting :
    ∃ earlier later, (create Config.default).trail quitting = earlier ++ later ∧
      (Trail.last (create Config.default).client earlier).phase = .closed ∧
      Trail.begun later = [.skip] := by
  obtain ⟨earlier, after, behind, split, closed, due⟩ := trail_quitting
  obtain ⟨starts, -⟩ := run_dismisses Config.default quitting earlier _ split closed
  exact ⟨earlier, _, split, closed, starts.trans due⟩

/-- A hook starts on a client that a hook of the same batch has closed. -/
theorem not_forall_dismissed :
    ¬ ∀ (config : Config) (acts : List Act) (earlier later : Trail),
      (create config).trail acts = earlier ++ later →
      (Trail.last (create config).client earlier).phase = .closed → ¬later.Starts := by
  intro all
  obtain ⟨earlier, after, behind, split, closed, -⟩ := trail_quitting
  refine all Config.default quitting earlier _ split closed ?_
  exact ⟨_, List.mem_cons_of_mem _ List.mem_cons_self, .skip, false, rfl⟩

end World

end Airlock.Client
