import TaskRouting.Proofs.Bound
import TaskRouting.Proofs.Setting
/-!
Workflows that are run by hand.

Whoever begins a run, takes one step after the other until one does not go on,
and then ends the run, has executed the workflow: the same calls have been
made, and what comes of it is the same response or the same stop
(`execution_is_steps_by_hand`). Sub-tasks are executed in both cases as they
always are, nested workflows included.

# Driving is stepping

`TakesSteps` is the run in somebody's hands, with no bound on the steps. A run
that is so stepped is driven to the same end under some bound
(`TakesSteps.drive`, by induction on the steps), and a run that is driven to
its end has been driven by such steps (`exists_takesSteps`, by induction on
the bound). From there one layer of an execution ends the run that it has
driven (`perform_of_drive`), and an execution without a bound is one layer
with a bound on its own steps alone.

# Inputs

Executing a workflow is more than that in one respect. Before the run begins,
the inputs are checked and defaults are filled in; the run begins with the
prepared inputs, and the response shows the given ones. A run that is begun by
hand takes its inputs as they are, so whoever begins it has to prepare them
(`runs_begun_by_hand_lack_defaults`).
-/

namespace TaskRouting

open Execution

namespace Workflow

variable {σ : Type} (c : Collaborators σ) (x : Executor σ) (w : Workflow Task)

/-- Somebody takes one step of a run after the other, until one does not go
on. What counts is what that last step leaves behind. -/
inductive TakesSteps : Run → Trace σ → Stepped σ → Prop where
  | last {run : Run} {t : Trace σ} {stepped : Stepped σ}
      (step : w.step c x run t = stepped)
      (ends : stepped.result ≠ .ok .goesOn) : TakesSteps run t stepped
  | next {run run' : Run} {t t' : Trace σ} {stepped : Stepped σ}
      (step : w.step c x run t = ⟨.ok .goesOn, run', t'⟩)
      (rest : TakesSteps run' t' stepped) : TakesSteps run t stepped

/-- Ends a run after its last step. The response shows the inputs that are
named here. A run whose last step was stopped has no response. -/
def endRun (given : Inputs) (stepped : Stepped σ) :
    Except Stop Response × Trace σ :=
  (stepped.result.map fun outcome =>
      w.finish (c.clock stepped.trace.world) stepped.run outcome given,
    stepped.trace)

variable {c x w}

-- ================================================= driving is stepping

/-- A run whose next step does not go on is driven by that step alone, as
`drive` unfolds. -/
theorem drive_of_last {bound : Nat} {run : Run} {t : Trace σ}
    {stepped : Stepped σ} (step : w.step c x run t = stepped)
    (ends : stepped.result ≠ .ok .goesOn) :
    w.drive c x (bound + 1) run t
      = (stepped.result.map fun outcome => (outcome, stepped.run),
        stepped.trace) := by
  unfold drive
  rw [step]
  obtain ⟨stop | (_ | _ | obstacle), run', t'⟩ := stepped
  · rfl
  · exact absurd rfl ends
  · rfl
  · rfl

/-- A run is driven as far as steps can be taken, if the bound is large
enough. By induction on the steps: `drive_of_last` for the last, and one more
for each step that goes on. -/
theorem TakesSteps.drive {run : Run} {t : Trace σ} {stepped : Stepped σ}
    (h : w.TakesSteps c x run t stepped) :
    ∃ bound, w.drive c x bound run t
      = (stepped.result.map fun outcome => (outcome, stepped.run),
        stepped.trace) := by
  induction h with
  | last step ends => exact ⟨1, drive_of_last step ends⟩
  | next step _ ih =>
    obtain ⟨bound, hdrive⟩ := ih
    refine ⟨bound + 1, ?_⟩
    rw [drive_of_goesOn step, hdrive]

/-- A run that is driven to its end has been driven by steps that somebody can
take: by induction on the bound, the first step is either the last one
(`TakesSteps.last`) or is followed by those of the rest. -/
theorem exists_takesSteps : ∀ {bound : Nat} {run : Run} {t : Trace σ},
    (w.drive c x bound run).Settles t →
    ∃ stepped, w.TakesSteps c x run t stepped
      ∧ w.drive c x bound run t
        = (stepped.result.map fun outcome => (outcome, stepped.run),
          stepped.trace) := by
  intro bound
  induction bound with
  | zero =>
    intro run t hsettles
    exact absurd rfl hsettles
  | succ bound ih =>
    intro run t hsettles
    by_cases hgoes : (w.step c x run t).result = .ok .goesOn
    · have hstep : w.step c x run t
          = ⟨.ok .goesOn, (w.step c x run t).run,
            (w.step c x run t).trace⟩ := by
        rw [← hgoes]
      have hdrive : w.drive c x (bound + 1) run t
          = w.drive c x bound (w.step c x run t).run
            (w.step c x run t).trace :=
        drive_of_goesOn hstep
      obtain ⟨stepped, hrest, hdriven⟩ := ih (hsettles.congr hdrive.symm)
      exact ⟨stepped, .next hstep hrest, hdrive.trans hdriven⟩
    · exact ⟨_, .last rfl hgoes, drive_of_last rfl hgoes⟩

-- =============================================== executing is stepping

variable {context : Context} {inputs prepared : Inputs} {t : Trace σ}

/-- One layer of an execution ends the run that it has driven, with
`endRun`. -/
theorem perform_of_drive {bound : Nat} {stepped : Stepped σ}
    (haccepts : w.identity.inputSchema.prepare inputs = .ok prepared)
    (hdrive : w.drive c x bound (w.newRun context prepared) t
      = (stepped.result.map fun outcome => (outcome, stepped.run),
        stepped.trace)) :
    Task.perform c x bound context (.workflow w) inputs t
      = w.endRun c inputs stepped := by
  rw [Task.perform_workflow haccepts, execute, bind_apply, hdrive]
  unfold endRun
  cases stepped.result with
  | error stop => rfl
  | ok outcome => rfl

/-- A workflow is executed to an end exactly if its run can be stepped to one
by hand, and both are the same end. The run begins with the prepared inputs,
and the given ones are shown. Both directions pass through a driven run, by
`exists_takesSteps` and `TakesSteps.drive`. -/
theorem execution_is_steps_by_hand
    (haccepts : w.identity.inputSchema.prepare inputs = .ok prepared)
    (ended : Except Stop Response × Trace σ)
    (hended : ended.1 ≠ .error .exhausted) :
    Task.unbounded c context (.workflow w) inputs t = ended
      ↔ ∃ stepped,
        w.TakesSteps c (Task.unbounded c) (w.newRun context prepared) t
          stepped
        ∧ w.endRun c inputs stepped = ended := by
  constructor
  · rintro rfl
    obtain ⟨bound, hperform⟩ := Task.exists_perform_of_unbounded hended
    have hsettles :
        (w.drive c (Task.unbounded c) bound
          (w.newRun context prepared)).Settles t := by
      have hlayer :
          (Task.perform c (Task.unbounded c) bound context (.workflow w)
            inputs).Settles t :=
        Settles.congr hended hperform
      rw [Task.perform_workflow haccepts] at hlayer
      exact hlayer.of_bind
    obtain ⟨stepped, hsteps, hdrive⟩ := exists_takesSteps hsettles
    exact ⟨stepped, hsteps,
      (perform_of_drive haccepts hdrive).symm.trans hperform⟩
  · rintro ⟨stepped, hsteps, rfl⟩
    obtain ⟨bound, hdrive⟩ := hsteps.drive
    have hperform := perform_of_drive haccepts hdrive
    rw [← hperform]
    apply Task.unbounded_eq_perform
    unfold Settles
    rw [hperform]
    exact hended

/-- A workflow with a place of its own, and one prompt, which is given all
there is. -/
def telling : Workflow Task where
  identity := { Identity.named "telling" "telling" with
    inputSchema := .supplying "place" (.string "here") }
  tasks := [("tell", .prompt (.asking "tell"))]
  start := "tell"
  routing := [("tell", [(0, .finish)])]
  maxAttempts := 1
  recursive := false

/-- Begun with the place that is filled in, the run of `telling` can be
stepped to the response of the execution, which does not show the place. -/
theorem telling_by_hand :
    let prepared : Inputs := [("place", .string "here")]
    telling.identity.inputSchema.prepare [] = .ok prepared
      ∧ ∃ (stepped : Stepped Unit) (r : Response) (t : Trace Unit),
          telling.TakesSteps .counting (Task.unbounded .counting)
            (telling.newRun (.fresh false) prepared) (.start ()) stepped
          ∧ telling.endRun .counting [] stepped = (.ok r, t)
          ∧ Task.unbounded .counting (.fresh false) (.workflow telling) []
            (.start ()) = (.ok r, t)
          ∧ r.inputs = [] ∧ r.outputText = some "1" := by
  intro prepared
  have haccepts : telling.identity.inputSchema.prepare [] = .ok prepared :=
    rfl
  rcases hran : Task.execute .counting 3 (.fresh false) (.workflow telling) []
    (.start ()) with ⟨stop | r, t⟩
  · cases hran
  obtain ⟨hinputs, houtput⟩ : r.inputs = [] ∧ r.outputText = some "1" := by
    cases hran
    exact ⟨rfl, rfl⟩
  have hends : Task.unbounded .counting (.fresh false) (.workflow telling) []
      (.start ()) = (.ok r, t) :=
    (Task.unbounded_eq (settles_of_ok hran)).trans hran
  obtain ⟨stepped, hsteps, hended⟩ :=
    (execution_is_steps_by_hand haccepts (.ok r, t) (fun h => nomatch h)).1
      hends
  exact ⟨haccepts, stepped, r, t, hsteps, hended, hends, hinputs, houtput⟩

/-- A run that is begun with the inputs as they are given lacks what
`InputSchema.prepare` fills in for an execution: the agent is not told of the
place, and answers otherwise. -/
theorem runs_begun_by_hand_lack_defaults :
    ∃ (stepped : Stepped Unit) (byHand executed : Response)
      (t t' : Trace Unit),
      telling.identity.inputSchema.prepare []
        = .ok [("place", .string "here")]
      ∧ telling.TakesSteps .counting (Task.unbounded .counting)
        (telling.newRun (.fresh false) []) (.start ()) stepped
      ∧ telling.endRun .counting [] stepped = (.ok byHand, t)
      ∧ Task.unbounded .counting (.fresh false) (.workflow telling) []
        (.start ()) = (.ok executed, t')
      ∧ t.calls = [.agent "tell" [] [] none] ∧ byHand.outputText = some "0"
      ∧ t'.calls = [.agent "tell" [("place", .string "here")] [] none]
      ∧ executed.outputText = some "1" := by
  let first := telling.newRun (.fresh false) []
  have htold : Task.unbounded .counting first.context
      (.prompt (.asking "tell")) [] (.start ())
      = Task.execute .counting 1 first.context (.prompt (.asking "tell"))
        [] (.start ()) :=
    Task.unbounded_eq (settles_of_ok rfl)
  have hready : telling.Ready .counting first (.start ()) "tell"
      (.prompt (.asking "tell")) (.start ()) :=
    ⟨rfl, rfl, by decide, rfl, rfl⟩
  have hfirst := step_of_routed hready (htold.trans rfl) rfl
  have hexecuted : Task.unbounded .counting (.fresh false) (.workflow telling)
      [] (.start ())
      = Task.execute .counting 3 (.fresh false) (.workflow telling)
        [] (.start ()) :=
    Task.unbounded_eq (settles_of_ok rfl)
  refine ⟨_, _, _, _, _, rfl,
    .next hfirst (.last (StepsTo.step_eq (.completed rfl)) ?_), rfl,
    hexecuted.trans rfl, rfl, rfl, rfl, rfl⟩
  exact fun h => nomatch h

end Workflow

end TaskRouting
