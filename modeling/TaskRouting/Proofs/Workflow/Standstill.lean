import TaskRouting.Proofs.Workflow.Turns
/-!
Runs that have come to a standstill.

# What a step finds out

Nothing in a run says that it has ended or failed. Each step finds out anew
what stands in its way: from the run, from the lookup, and from whether
executions have been asked to stop. `SeenAlike` relates two worlds in which
the last two answer the same, and `find_alike` is the one place where the
lookup's answers are followed into a step; `find_again` and `Ready.again` are
the forms in which they are used.

# The next step

A step that has found something in its way leaves the run as it is. So as long
as the lookup answers alike and nobody is asked to stop, the next step finds
the same (`result_again`), and it makes at most the one lookup
(`calls_of_not_ready`). Both are case splits over `StepsTo`; `stays_of_step`
puts them together.

A missing route is found only after a task has responded. The response is
kept, and the name that has been run is still the one that is next, so the
step after that runs the same task again (`ready_of_unrouted`).

# All later steps

`Later` collects the runs that more and more steps leave. Since a step that
stays leaves the run itself, there is only one (`Later.eq_of_stays`), and what
holds of the next step holds of all. Just the failures for want of a route do
not last (`stopped_stays_iff_routed`).
-/

namespace TaskRouting

open Execution

/-- In two worlds the lookup answers alike, and executions have been asked to
stop in both or in neither. -/
structure Collaborators.SeenAlike {σ : Type} (c : Collaborators σ)
    (world world' : σ) : Prop where
  lookup : ∀ name, (c.lookup name world').1 = (c.lookup name world).1
  cancelled : c.cancelled world' = c.cancelled world

namespace Collaborators.SeenAlike

variable {σ : Type} {c : Collaborators σ} {world world' : σ}

theorem refl (world : σ) : c.SeenAlike world world := ⟨fun _ => rfl, rfl⟩

/-- Whether a context has been cancelled is the same in worlds that are seen
alike. -/
theorem isCancelled_eq (h : c.SeenAlike world world') (context : Context) :
    context.isCancelled c world' = context.isCancelled c world := by
  unfold Context.isCancelled
  rw [h.cancelled]

end Collaborators.SeenAlike

namespace Workflow

variable {σ : Type} {c : Collaborators σ} {x : Executor σ} {w : Workflow Task}
  {run later : Run} {t u : Trace σ} {outcome : Outcome}

-- ================================================ finding a task again

/-- What `find` comes to for a name that is not the workflow's own is what the
lookup answers. -/
theorem find_of_not_own {name : String} (hown : w.own? name = none)
    (t : Trace σ) :
    w.find c name t
      = (match (c.lookup name t.world).1 with
          | .error crash => .error (.crash crash)
          | .ok (.error error) => .error (.fault (.lookup error))
          | .ok (.ok found) => .ok found,
        { t.call (.lookup name)
          with world := (c.lookup name t.world).2 }) := by
  unfold find
  rw [hown]
  dsimp only
  rw [bind_apply, Collaborators.lookUp, consult_apply]
  rcases c.lookup name t.world with ⟨crash | error | found, world⟩
  · rfl
  · rfl
  · rfl

/-- What is found depends only on what the lookup answers, which is the same
in worlds that are `SeenAlike`. -/
theorem find_alike (halike : c.SeenAlike t.world u.world) (name : String) :
    (w.find c name u).1 = (w.find c name t).1 := by
  cases hown : w.own? name with
  | some task => rw [find_of_own hown, find_of_own hown]
  | none =>
    rw [find_of_not_own hown, find_of_not_own hown, halike.lookup name]

/-- The answer of a search is found again where the lookup answers alike; only
the trace is that of the second search. -/
theorem find_again {name : String} {found : Except Stop (Option Task)}
    {t' : Trace σ} (h : w.find c name t = (found, t'))
    (halike : c.SeenAlike t.world u.world) :
    w.find c name u = (found, (w.find c name u).2) := by
  refine Prod.ext ?_ rfl
  rw [find_alike halike, h]

/-- To find a task at most one lookup is made: none for the workflow's own
(`find_of_own`), one for any other. -/
theorem find_calls {name : String} {found : Except Stop (Option Task)}
    {t' : Trace σ} (h : w.find c name t = (found, t')) :
    t'.calls = t.calls ∨ t'.calls = t.calls ++ [.lookup name] := by
  cases hown : w.own? name with
  | some task =>
    rw [find_of_own hown] at h
    cases h
    exact .inl rfl
  | none =>
    rw [find_of_not_own hown] at h
    cases h
    exact .inr (Trace.calls_call t (.lookup name))

/-- Where the lookup answers alike, a run is `Ready` for the same tasks. So is
every run that differs from it only in its history and environment. -/
theorem Ready.again {name : String} {task : Task} {t' : Trace σ}
    (ready : w.Ready c run t name task t')
    (halike : c.SeenAlike t.world u.world)
    (hcontext : later.context = run.context)
    (hcurrent : later.current = run.current)
    (hattempts : later.attempts = run.attempts) :
    w.Ready c later u name task (w.find c name u).2 where
  current := by rw [hcurrent, ready.current]
  going := by rw [hcontext, halike.isCancelled_eq, ready.going]
  budget := by rw [hattempts]; exact ready.budget
  found := find_again ready.found halike
  admitted := by rw [hcontext, ready.admitted]

-- ======================================================= the next step

variable (c x w) in
/-- A step has an outcome, and apart from that nothing happens: the run is
left as it is, no task is run, and at most one lookup is made. -/
structure Stays (r : Run) (u : Trace σ) (outcome : Outcome) : Prop where
  result : (w.step c x r u).result = .ok outcome
  run : (w.step c x r u).run = r
  idle : ∀ name task u', ¬ w.Ready c r u name task u'
  asked : (w.step c x r u).trace.calls = u.calls
    ∨ ∃ name, (w.step c x r u).trace.calls = u.calls ++ [.lookup name]

/-- A step that has an outcome, and neither goes on nor misses a route, has
not been ready to run a task: of the cases of `StepsTo`, those that run one
come to something else. -/
theorem not_ready_of_step (hresult : (w.step c x run t).result = .ok outcome)
    (hends : outcome ≠ .goesOn)
    (hrouted : ∀ code name, outcome ≠ .failed (.noRoute code name))
    (name : String) (task : Task) (t' : Trace σ) :
    ¬ w.Ready c run t name task t' := by
  intro ready
  rcases ran : x run.context task (run.inputsFor task) t'
    with ⟨stop | response, t''⟩
  · rw [(StepsTo.taskStopped ready ran).step_eq] at hresult
    cases hresult
  · cases hroute : w.route? name response.code with
    | none =>
      rw [(StepsTo.unrouted ready ran hroute).step_eq] at hresult
      exact hrouted _ _ (Except.ok.inj hresult).symm
    | some route =>
      rw [(StepsTo.routed ready ran hroute).step_eq] at hresult
      exact hends (Except.ok.inj hresult).symm

/-- A step that runs no task makes at most one lookup, that of its search
(`find_calls`). -/
theorem calls_of_not_ready
    (hidle : ∀ name task t', ¬ w.Ready c run t name task t') :
    (w.step c x run t).trace.calls = t.calls
      ∨ ∃ name, (w.step c x run t).trace.calls = t.calls
        ++ [.lookup name] := by
  have hcases : w.StepsTo c x run t (w.step c x run t) := step_stepsTo run t
  generalize w.step c x run t = stepped at hcases
  cases hcases with
  | completed => exact .inl rfl
  | cancelled => exact .inl rfl
  | attempts => exact .inl rfl
  | lookupStopped _ _ _ stopped =>
    exact (find_calls stopped).imp_right fun h => ⟨_, h⟩
  | unresolvable _ _ _ unknown =>
    exact (find_calls unknown).imp_right fun h => ⟨_, h⟩
  | refused _ _ _ found => exact (find_calls found).imp_right fun h => ⟨_, h⟩
  | taskStopped ready => exact absurd ready (hidle _ _ _)
  | unrouted ready => exact absurd ready (hidle _ _ _)
  | routed ready => exact absurd ready (hidle _ _ _)

/-- What has stood in the way of a step stands in the way of the next one. In
each case of `StepsTo` that is left, the same constructor applies in the other
world, with the premises carried over by `find_again` and `isCancelled_eq`. -/
theorem result_again (hresult : (w.step c x run t).result = .ok outcome)
    (hends : outcome ≠ .goesOn)
    (hrouted : ∀ code name, outcome ≠ .failed (.noRoute code name))
    (halike : c.SeenAlike t.world u.world) :
    (w.step c x run u).result = .ok outcome := by
  have hidle := not_ready_of_step hresult hends hrouted
  have hcancelled := halike.isCancelled_eq run.context
  have hcases : w.StepsTo c x run t (w.step c x run t) := step_stepsTo run t
  rw [← hresult]
  generalize w.step c x run t = stepped at hresult hcases
  cases hcases with
  | completed current => rw [(StepsTo.completed current).step_eq]
  | cancelled current cancelled =>
    rw [(StepsTo.cancelled current (hcancelled.trans cancelled)).step_eq]
  | attempts current going spent =>
    rw [(StepsTo.attempts current (hcancelled.trans going) spent).step_eq]
  | unresolvable current going budget unknown =>
    rw [(StepsTo.unresolvable current (hcancelled.trans going) budget
      (find_again unknown halike)).step_eq]
  | refused current going budget found refused =>
    rw [(StepsTo.refused current (hcancelled.trans going) budget
      (find_again found halike) refused).step_eq]
  | lookupStopped => cases hresult
  | taskStopped => cases hresult
  | unrouted ready => exact absurd ready (hidle _ _ _)
  | routed ready => exact absurd ready (hidle _ _ _)

/-- A step that does not go on, and has a route for whatever has responded, is
followed by steps that come to the same. The run is kept because nothing has
been ready to change it (`step_keeps_or_advances`). -/
theorem stays_of_step (hresult : (w.step c x run t).result = .ok outcome)
    (hends : outcome ≠ .goesOn)
    (hrouted : ∀ code name, outcome ≠ .failed (.noRoute code name))
    (halike : c.SeenAlike t.world u.world) : w.Stays c x run u outcome := by
  have hagain := result_again hresult hends hrouted halike
  have hidle := not_ready_of_step hagain hends hrouted
  refine ⟨hagain, ?_, hidle, calls_of_not_ready hidle⟩
  obtain hrun | ⟨name, task, response, t', t'', ready, -, -⟩ :=
    w.step_keeps_or_advances run u
  · exact hrun
  · exact absurd ready (hidle name task t')

/-- After a missing route the task that has responded is up once more:
recording a response changes neither the context nor the name that is next nor
the count of attempts, which is all that `Ready.again` asks of the later
run. -/
theorem ready_of_unrouted {code : UInt32} {name : String}
    (hresult : (w.step c x run t).result = .ok (.failed (.noRoute code name)))
    (halike : c.SeenAlike t.world u.world) :
    ∃ task u', w.Ready c (w.step c x run t).run u name task u' := by
  have hcases : w.StepsTo c x run t (w.step c x run t) := step_stepsTo run t
  generalize w.step c x run t = stepped at hresult hcases
  cases hcases with
  | unrouted ready =>
    cases hresult
    exact ⟨_, _, ready.again halike rfl rfl rfl⟩
  -- A refusal has an obstacle of its own, which is never a missing route.
  | refused current going budget found refused =>
    cases hresult
    exact absurd refused refusal?_ne_noRoute
  | completed => cases hresult
  | cancelled => cases hresult
  | attempts => cases hresult
  | lookupStopped => cases hresult
  | unresolvable => cases hresult
  | taskStopped => cases hresult
  | routed => cases hresult

-- ===================================================== all later steps

variable (c x w) in
/-- The runs that are left by more and more steps, each of which begins in a
world of a certain kind. -/
inductive Later (alike : σ → Prop) (first : Run) : Run → Prop where
  | none : Later alike first first
  | step {run : Run} {u : Trace σ} (later : Later alike first run)
      (world : alike u.world) : Later alike first (w.step c x run u).run

/-- A run that nothing changes is what all later steps leave. By induction on
those steps, each of which `Stays` and so is made from the run itself. -/
theorem Later.eq_of_stays {alike : σ → Prop}
    (hstays : ∀ u : Trace σ, alike u.world → w.Stays c x run u outcome)
    (h : w.Later c x alike run later) : later = run := by
  induction h with
  | none => rfl
  | step _ world ih =>
    rw [ih]
    exact (hstays _ world).run

/-- Let a step not go on. As long as the lookup answers as it did to this step
and nobody is asked to stop in between, each later step has the same outcome,
runs no task and leaves the run as it is: unless the step has failed for want
of a route, and only then. After a missing route the next step runs the same
task again.

A run that was not ready stays so (`stays_of_step`, `Later.eq_of_stays`), and
one that missed a route is ready as before (`ready_of_unrouted`). -/
theorem stopped_stays_iff_routed
    (hresult : (w.step c x run t).result = .ok outcome)
    (hends : outcome ≠ .goesOn) :
    let stopped := (w.step c x run t).run
    ((∀ later, w.Later c x (c.SeenAlike t.world) stopped later →
      ∀ u : Trace σ, c.SeenAlike t.world u.world →
        later = stopped ∧ w.Stays c x later u outcome)
      ↔ ∀ code name, outcome ≠ .failed (.noRoute code name))
    ∧ ∀ code name, outcome = .failed (.noRoute code name) → ∀ u : Trace σ,
        c.SeenAlike t.world u.world →
          ∃ task u', w.Ready c stopped u name task u' := by
  intro stopped
  have hagain : ∀ code name, outcome = .failed (.noRoute code name) →
      ∀ u : Trace σ, c.SeenAlike t.world u.world →
        ∃ task u', w.Ready c stopped u name task u' := by
    intro code name houtcome u halike
    rw [houtcome] at hresult
    exact ready_of_unrouted hresult halike
  refine ⟨⟨?_, ?_⟩, hagain⟩
  · intro hstays code name houtcome
    -- The very step that has failed is repeated: its task is ready again, and
    -- a run that stays is not ready for any.
    have hself : c.SeenAlike t.world t.world := .refl t.world
    obtain ⟨task, u', ready⟩ := hagain code name houtcome t hself
    exact (hstays stopped .none t hself).2.idle name task u' ready
  · intro hrouted later hlater u halike
    have hkept : stopped = run :=
      (stays_of_step hresult hends hrouted (.refl t.world)).run
    rw [hkept] at hlater ⊢
    have hstays : ∀ u : Trace σ, c.SeenAlike t.world u.world →
        w.Stays c x run u outcome :=
      fun u => stays_of_step hresult hends hrouted
    obtain rfl := hlater.eq_of_stays hstays
    exact ⟨rfl, hstays u halike⟩

/-- A relay among collaborators who do not know its second task is told so,
and the steps after that tell it the same and do nothing else. -/
theorem relay_stays_unresolvable :
    let run : Run := { Workflow.relay.newRun (.fresh false) []
      with current := some "second" }
    let step := Workflow.relay.step .counting
      (Task.unbounded (.counting : Collaborators Unit))
    let once := step run (.start ())
    let twice := step once.run once.trace
    let obstacle := Obstacle.unresolvable "second"
    once.result = .ok (.failed obstacle)
      ∧ Workflow.relay.Stays .counting (Task.unbounded .counting)
        once.run once.trace (.failed obstacle)
      ∧ Workflow.relay.Stays .counting (Task.unbounded .counting)
        twice.run twice.trace (.failed obstacle) := by
  intro run step once twice obstacle
  have hbudget : (0 : UInt32) < 1 := by decide
  have honce : once.result = .ok (.failed obstacle) := by
    rw [show once = _ from (StepsTo.unresolvable rfl rfl hbudget rfl).step_eq]
  have halike : ∀ world : Unit, Collaborators.counting.SeenAlike () world :=
    fun _ => .refl ()
  obtain ⟨hstays, -⟩ := stopped_stays_iff_routed honce (by simp)
  have hlater := hstays.2 (by simp)
  obtain ⟨-, hsecond⟩ := hlater once.run .none once.trace (halike _)
  obtain ⟨-, hthird⟩ :=
    hlater twice.run (.step .none (halike _)) twice.trace (halike _)
  exact ⟨honce, hsecond, hthird⟩

end Workflow

/-- Collaborators whose agents refuse to say anything the first time, and say
their names from then on. They know no task. -/
def Collaborators.reluctant : Collaborators Bool :=
  .among
    (fun agent _ asked =>
      if asked then .saying agent.name true
      else .answer (.error (.generationFailed "busy")) true)
    fun _ => none

/-- A relay whose first task has no route for its failure is failed, and goes
on at the next step as if it were not: the task is run once more. -/
theorem Workflow.relay_goes_on_from_missing_route :
    let run := Workflow.relay.newRun (.fresh false) []
    let step := Workflow.relay.step .reluctant (Task.unbounded .reluctant)
    let once := step run (.start false)
    let twice := step once.run once.trace
    Collaborators.reluctant.SeenAlike false once.trace.world
      ∧ once.result = .ok (.failed (.noRoute 1 "first"))
      ∧ once.run.history.length = 1
      ∧ twice.result = .ok .goesOn
      ∧ twice.run.history.length = 2
      ∧ twice.run.current = some "second" := by
  intro run step once twice
  have hbudget : (0 : UInt32) < 1 := by decide
  have hready : Workflow.relay.Ready .reluctant run (.start false) "first"
      (.prompt (.asking "first")) (.start false) :=
    ⟨rfl, rfl, hbudget, rfl, rfl⟩
  let refusal := Silence.failed "first" (.generationFailed "busy")
  let refused : Response :=
    .failure Instant.epoch (Identity.named "first" "first").header []
      failureCode refusal.message
  let asked : Trace Bool :=
    { (Trace.start false).call (.agent "first" [] [] none)
      with world := true }
  -- The first step is evaluated with a bound of one, which is enough for a
  -- prompt without tools.
  have hasked : Task.execute .reluctant 1 run.context
      (.prompt (.asking "first")) [] (.start false)
      = (.ok refused, asked) := rfl
  have hrefused : Task.unbounded .reluctant run.context
      (.prompt (.asking "first")) [] (.start false) = (.ok refused, asked) :=
    (Task.unbounded_eq (settles_of_ok hasked)).trans hasked
  have honce : once = ⟨.ok (.failed (.noRoute 1 "first")),
      run.record "first" refused, asked⟩ :=
    (StepsTo.unrouted hready hrefused rfl).step_eq
  have hagain : Workflow.relay.Ready .reluctant once.run once.trace "first"
      (.prompt (.asking "first")) once.trace := by
    rw [honce]
    exact ⟨rfl, rfl, hbudget, rfl, rfl⟩
  have htalks : once.trace.world = true := by rw [honce]
  have htwice : twice = _ :=
    step_of_routed hagain (Task.unbounded_asking (by rw [htalks]; rfl)) rfl
  have hpast : once.run.history.length = 1 := by
    rw [honce]
    rfl
  have hlonger : twice.run.history.length = 2 := by
    rw [htwice, Run.history_follow, Run.history_record,
      List.length_append, hpast]
    rfl
  have hsecond : twice.run.current = some "second" := by
    rw [htwice]
    rfl
  exact ⟨⟨fun _ => rfl, rfl⟩, by rw [honce], hpast, by rw [htwice], hlonger,
    hsecond⟩

end TaskRouting
