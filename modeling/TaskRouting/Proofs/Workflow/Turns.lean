import TaskRouting.Proofs.Setting
/-!
Runs in somebody's hands.

# Turns

Whoever has begun a run may step it as often as they like, whatever the steps
come to, and the world may change in between. Each step leaves the run as it
is, or takes one turn: a task has been run under the name that was next, and
has responded (`step_keeps_or_advances`). `Reached` lists the runs that come
about in this way, together with the turns that have been taken and with the
latest outcome, which the run itself does not keep. It tells the two kinds of
steps apart by the history alone, which is all that somebody with a run in
their hands can see; `run_of_kept` and `Ready.of_responded` say what the
history tells.

# How a run stands

`Stands` is the invariant: the history is the responses of the turns, no name
is next exactly if a turn has been followed by an end route, and the latest
outcome is right about that (`Fits`). One step keeps it, whether it takes a
turn (`Stands.took`) or not (`Stands.kept`), and so it holds however a run has
been stepped (`Reached.stands`).

# Ending a run

A run has come to its end once a turn has been followed by an end route; then
no name is next any more. The step that takes this route says that the run
goes on, and only the step after it says that the run is completed. So a run
that is ended on the word of the former counts as failed although it has come
to its end (`finish_succeeds_iff`).
-/

namespace TaskRouting.Workflow

open Execution

/-- A task has been run under a name, and has responded. -/
structure Turn where
  name : String
  task : Task
  response : Response

variable {σ : Type} (c : Collaborators σ) (x : Executor σ) (w : Workflow Task)

/-- The runs to which a new run can be stepped, each with the turns that have
been taken and with the latest outcome. A `step` may come to anything; one
that is stopped has no outcome. Each step begins in a world of its own. -/
inductive Reached (context : Context) (inputs : Inputs) :
    List Turn → Option Outcome → Run → Prop where
  | begun : Reached context inputs [] none (w.newRun context inputs)
  | kept {turns : List Turn} {latest : Option Outcome} {run : Run}
      {t : Trace σ} (before : Reached context inputs turns latest run)
      (kept : (w.step c x run t).run.history = run.history) :
      Reached context inputs turns
        ((w.step c x run t).result.toOption.or latest)
        (w.step c x run t).run
  | took {turns : List Turn} {latest : Option Outcome} {run : Run}
      {t t' : Trace σ} {name : String} {task : Task} {response : Response}
      (before : Reached context inputs turns latest run)
      (ready : w.Ready c run t name task t')
      (responded :
        (w.step c x run t).run.history = run.history ++ [response]) :
      Reached context inputs (turns ++ [⟨name, task, response⟩])
        ((w.step c x run t).result.toOption.or latest) (w.step c x run t).run

/-- The route taken after a turn is an end route. -/
def Ends (turn : Turn) : Prop :=
  ∃ route, w.route? turn.name turn.response.code = some route
    ∧ route.next = none

variable {c x w}

-- =========================================== what a turn does to a run

section Advancing

variable {name : String} {response : Response} {run : Run}

/-- A turn adds its response to the history, whether `route?` finds a route or
not. -/
@[simp] theorem history_advance :
    (w.advance name response run).2.history = run.history ++ [response] := by
  unfold advance
  cases w.route? name response.code <;> simp

/-- A turn writes its output into the environment, with a route or without. -/
@[simp] theorem environment_advance :
    (w.advance name response run).2.environment
      = Table.insert run.environment (outputKey name)
          (Json.optional .string response.outputText) := by
  unfold advance
  cases w.route? name response.code <;> rfl

/-- Without a route the same name stays next. -/
theorem current_advance :
    (w.advance name response run).2.current
      = match w.route? name response.code with
        | none => run.current
        | some route => route.next := by
  unfold advance
  cases w.route? name response.code <;> rfl

end Advancing

/-- A step leaves the run as it is, or takes a turn. All cases of `StepsTo`
but the last two are of the first kind. -/
theorem step_keeps_or_advances (run : Run) (t : Trace σ) :
    (w.step c x run t).run = run
      ∨ ∃ name task response t' t'', w.Ready c run t name task t'
        ∧ x run.context task (run.inputsFor task) t' = (.ok response, t'')
        ∧ (w.step c x run t).run = (w.advance name response run).2 := by
  have hcases : w.StepsTo c x run t (w.step c x run t) := step_stepsTo run t
  generalize w.step c x run t = stepped at hcases
  cases hcases with
  | completed => exact .inl rfl
  | cancelled => exact .inl rfl
  | attempts => exact .inl rfl
  | lookupStopped => exact .inl rfl
  | unresolvable => exact .inl rfl
  | refused => exact .inl rfl
  | taskStopped => exact .inl rfl
  | unrouted ready ran unrouted =>
    refine .inr ⟨_, _, _, _, _, ready, ran, ?_⟩
    simp [advance, unrouted]
  | routed ready ran routed =>
    refine .inr ⟨_, _, _, _, _, ready, ran, ?_⟩
    simp [advance, routed]

/-- A step that adds no response leaves the run as it is: of the two things
that a step can do to a run (`step_keeps_or_advances`), the other would have
added one. -/
theorem run_of_kept {run : Run} {t : Trace σ}
    (h : (w.step c x run t).run.history = run.history) :
    (w.step c x run t).run = run := by
  obtain hrun | ⟨name, task, response, t', t'', -, -, hrun⟩ :=
    w.step_keeps_or_advances run t
  · exact hrun
  · simp [hrun] at h

/-- The response that a step adds is that of the task that it has run
(`step_of_ready`). -/
theorem Ready.of_responded {run : Run} {t t' : Trace σ} {name : String}
    {task : Task} {response : Response} (ready : w.Ready c run t name task t')
    (responded : (w.step c x run t).run.history = run.history ++ [response]) :
    (∃ t'', x run.context task (run.inputsFor task) t' = (.ok response, t''))
      ∧ (w.step c x run t).run = (w.advance name response run).2 := by
  have hstep : w.step c x run t = _ := step_of_ready ready
  rcases hran : x run.context task (run.inputsFor task) t'
    with ⟨stop | given, t''⟩
  · simp [hstep, hran] at responded
  · obtain rfl : given = response := by simpa [hstep, hran] using responded
    exact ⟨⟨t'', rfl⟩, by rw [hstep, hran]⟩

/-- Stepping a run that has been reached leads to a run that has been reached,
by one more turn or by none. So `Reached` leaves no run out. -/
theorem Reached.step {context : Context} {inputs : Inputs} {turns : List Turn}
    {latest : Option Outcome} {run : Run}
    (h : w.Reached c x context inputs turns latest run) (t : Trace σ) :
    ∃ more, w.Reached c x context inputs (turns ++ more)
      ((w.step c x run t).result.toOption.or latest)
      (w.step c x run t).run := by
  obtain hrun | ⟨name, task, response, t', t'', ready, -, hrun⟩ :=
    w.step_keeps_or_advances run t
  · refine ⟨[], ?_⟩
    rw [List.append_nil]
    exact h.kept (by rw [hrun])
  · exact ⟨_, h.took ready (by rw [hrun, history_advance])⟩

-- ==================================================== how a run stands

/-- An outcome is right about whether a name is next: for a completed run none
is, for a failed one some name still is. The word that a run goes on says
nothing about it. -/
def Fits : Outcome → Run → Prop
  | .goesOn, _ => True
  | .completed, run => run.current = none
  | .failed _, run => run.current ≠ none

/-- The outcome of a step is right about the run that the step leaves, case by
case of `StepsTo`. -/
theorem fits_of_step {run : Run} {t : Trace σ} {outcome : Outcome}
    (h : (w.step c x run t).result = .ok outcome) :
    Fits outcome (w.step c x run t).run := by
  have hcases : w.StepsTo c x run t (w.step c x run t) := step_stepsTo run t
  generalize w.step c x run t = stepped at h hcases
  cases hcases with
  | completed current => cases h; exact current
  | cancelled current => cases h; simp [Fits, current]
  | attempts current => cases h; simp [Fits, current]
  | lookupStopped => cases h
  | unresolvable current => cases h; simp [Fits, current]
  | refused current => cases h; simp [Fits, current]
  | taskStopped => cases h
  | unrouted ready => cases h; simp [Fits, Run.record, ready.current]
  | routed => cases h; exact True.intro

/-- A run and what is told of it agree: its history is the responses of the
turns, no name is next exactly if a turn `Ends` the run, and the latest
outcome `Fits`. -/
structure Stands (w : Workflow Task) (turns : List Turn)
    (latest : Option Outcome) (run : Run) : Prop where
  history : run.history = turns.map Turn.response
  ended : run.current = none ↔ ∃ turn ∈ turns, w.Ends turn
  latest : ∀ outcome, latest = some outcome → Fits outcome run

/-- Whatever has been told before, the outcome of a step `Fits`. -/
theorem fits_of_latest {latest : Option Outcome} {run : Run} {t : Trace σ}
    (stopped : ∀ stop, (w.step c x run t).result = .error stop →
      ∀ outcome, latest = some outcome →
        Fits outcome (w.step c x run t).run) :
    ∀ outcome, (w.step c x run t).result.toOption.or latest = some outcome →
      Fits outcome (w.step c x run t).run := by
  intro outcome hlatest
  cases hresult : (w.step c x run t).result with
  | error stop =>
    exact stopped stop hresult outcome
      (by simpa [hresult, Except.toOption] using hlatest)
  | ok told =>
    obtain rfl : told = outcome := by
      simpa [hresult, Except.toOption] using hlatest
    exact fits_of_step hresult

/-- A step that adds no response leaves all as it stands, since it leaves the
run as it is (`run_of_kept`). -/
theorem Stands.kept {turns : List Turn} {latest : Option Outcome} {run : Run}
    {t : Trace σ} (h : w.Stands turns latest run)
    (kept : (w.step c x run t).run.history = run.history) :
    w.Stands turns ((w.step c x run t).result.toOption.or latest)
      (w.step c x run t).run where
  history := by rw [kept, h.history]
  ended := by rw [run_of_kept kept, h.ended]
  latest := by
    refine fits_of_latest fun stop _ => ?_
    rw [run_of_kept kept]
    exact h.latest

/-- A turn is followed by an end route exactly if no name is next after it
(`current_advance`). None of the turns before it was, as a name was next when
it began. -/
theorem Stands.took {turns : List Turn} {latest : Option Outcome} {run : Run}
    {t t' : Trace σ} {name : String} {task : Task} {response : Response}
    (h : w.Stands turns latest run) (ready : w.Ready c run t name task t')
    (responded : (w.step c x run t).run.history = run.history ++ [response]) :
    w.Stands (turns ++ [⟨name, task, response⟩])
      ((w.step c x run t).result.toOption.or latest)
      (w.step c x run t).run := by
  obtain ⟨⟨t'', ran⟩, hrun⟩ := ready.of_responded responded
  have hnone : ¬ ∃ turn ∈ turns, w.Ends turn := by
    rw [← h.ended, ready.current]
    simp
  constructor
  case history => simp [responded, h.history]
  case ended =>
    rw [hrun, current_advance]
    constructor
    · intro hcurrent
      refine ⟨⟨name, task, response⟩, by simp, ?_⟩
      cases hroute : w.route? name response.code with
      | none => simp [hroute, ready.current] at hcurrent
      | some route => exact ⟨route, hroute, by simpa [hroute] using hcurrent⟩
    · rintro ⟨turn, hmem, hends⟩
      rcases List.mem_append.1 hmem with hmem | hmem
      · exact absurd ⟨turn, hmem, hends⟩ hnone
      · obtain rfl := List.mem_singleton.1 hmem
        obtain ⟨route, hroute, hnext⟩ := hends
        simp [hroute, hnext]
  case latest =>
    -- A task that has responded does not stop the step that has run it.
    refine fits_of_latest fun stop hstopped => ?_
    rw [step_of_ready ready, ran] at hstopped
    cases hstopped

/-- However a run has been stepped, it `Stands` as it is told. By induction on
how it has been reached: `Stands.kept` or `Stands.took` for each step. -/
theorem Reached.stands {context : Context} {inputs : Inputs}
    {turns : List Turn} {latest : Option Outcome} {run : Run}
    (h : w.Reached c x context inputs turns latest run) :
    w.Stands turns latest run := by
  induction h with
  | begun => exact ⟨rfl, by simp [newRun], by simp⟩
  | kept _ kept ih => exact ih.kept kept
  | took _ ready responded ih => exact ih.took ready responded

-- ======================================================== ending a run

/-- `finish` reports success exactly on the word that the run is completed. -/
theorem isSuccess_finish_iff {now : Instant} {run : Run} {outcome : Outcome}
    {given : Inputs} :
    (w.finish now run outcome given).isSuccess = true
      ↔ outcome = .completed := by
  cases outcome with
  | goesOn => exact ⟨(fun h => nomatch h), (fun h => nomatch h)⟩
  | completed => exact ⟨fun _ => rfl, fun _ => rfl⟩
  | failed obstacle => exact ⟨(fun h => nomatch h), (fun h => nomatch h)⟩

/-- A run that is ended on its latest outcome is reported as a success exactly
if it has taken an end route, which it has exactly if no name is next, and the
outcome is not that of the very step that has taken it. Otherwise it is
reported as failed. In any case the report has the whole history.

All of that is in `Reached.stands`: an outcome other than `goesOn` is right
about whether a name is next. -/
theorem finish_succeeds_iff {context : Context} {inputs : Inputs}
    {turns : List Turn} {outcome : Outcome} {run : Run}
    (h : w.Reached c x context inputs turns (some outcome) run)
    (now : Instant) (given : Inputs) :
    let r := w.finish now run outcome given
    (run.current = none ↔ ∃ turn ∈ turns, w.Ends turn)
      ∧ (r.isSuccess = true ↔ (∃ turn ∈ turns, w.Ends turn)
        ∧ outcome ≠ .goesOn)
      ∧ (r.isSuccess = false → r.status = .failed ∧ r.code = failureCode
        ∧ r.outputs = none)
      ∧ r.history = some (turns.map Turn.response) := by
  intro r
  have hstands := h.stands
  refine ⟨hstands.ended, ?_, ?_, ?_⟩
  · rw [isSuccess_finish_iff, ← hstands.ended]
    cases outcome with
    | goesOn => simp
    | completed =>
      have hcurrent : run.current = none := hstands.latest _ rfl
      simp [hcurrent]
    | failed obstacle =>
      have hcurrent : run.current ≠ none := hstands.latest _ rfl
      simp [hcurrent]
  · intro hfails
    cases outcome with
    | goesOn => exact ⟨rfl, rfl, rfl⟩
    | completed => exact absurd hfails (by simp [r, isSuccess_finish_iff.2])
    | failed obstacle => exact ⟨rfl, rfl, rfl⟩
  · rw [← hstands.history]
    exact history_finish

/-- A step that goes on leads a run that has been reached on by a turn:
`step_of_routed` tells what the step does, and `Reached.took` adds it. -/
theorem Reached.routed {context : Context} {inputs : Inputs}
    {turns : List Turn} {latest : Option Outcome} {run : Run}
    {t t' t'' : Trace σ} {name : String} {task : Task} {response : Response}
    {route : Route} (h : w.Reached c x context inputs turns latest run)
    (ready : w.Ready c run t name task t')
    (ran : x run.context task (run.inputsFor task) t' = (.ok response, t''))
    (routed : w.route? name response.code = some route) :
    w.Reached c x context inputs (turns ++ [⟨name, task, response⟩])
      (some .goesOn) ((run.record name response).follow route) := by
  have hstep := step_of_routed ready ran routed
  have hresponded : (w.step c x run t).run.history = run.history
      ++ [response] := by simp [hstep]
  simpa [hstep, Except.toOption] using h.took ready hresponded

/-- A prompt of the plainest kind has been run, and has said its name. -/
def Turn.saying (name : String) (inputs : Inputs) : Turn where
  name := name
  task := .prompt (.asking name)
  response :=
    .success Instant.epoch (Identity.named name name).header inputs
      [Message.plain name]

/-- Stepped twice, the relay has come to its end, and has not been told so. -/
theorem relay_takes_two_turns (inputs : Inputs) :
    ∃ run,
      relay.Reached .echoing
        (Task.unbounded (.echoing : Collaborators Unit)) (.fresh false) inputs
        [.saying "first" inputs,
          .saying "second"
            (Table.insert inputs "outputs_first" (.string "first"))]
        (some .goesOn) run
      ∧ run.current = none := by
  let first := relay.newRun (.fresh false) inputs
  let told := (Turn.saying "first" inputs).response
  let second := (first.record "first" told).follow (.plain "second")
  have hbudget : (0 : UInt32) < 1 := by decide
  have hbegun : relay.Reached .echoing
      (Task.unbounded (.echoing : Collaborators Unit)) (.fresh false) inputs
      [] none first := .begun
  have hfirst : relay.Ready .echoing first (.start ()) "first"
      (.prompt (.asking "first")) (.start ()) := ⟨rfl, rfl, hbudget, rfl, rfl⟩
  have honce : relay.Reached .echoing
      (Task.unbounded (.echoing : Collaborators Unit))
      (.fresh false) inputs [.saying "first" inputs] (some .goesOn) second :=
    hbegun.routed hfirst (Task.unbounded_asking rfl) rfl
  have hsecond : relay.Ready .echoing second (.start ()) "second"
      (.prompt (.asking "second"))
      ((Trace.start ()).call (.lookup "second")) :=
    ⟨rfl, rfl, hbudget, rfl, rfl⟩
  exact ⟨_, honce.routed hsecond (Task.unbounded_asking rfl) rfl, rfl⟩

/-- Ended on the word of its second step, the relay is reported as failed
although it has come to its end, and the report has no name to say where it
has stopped. -/
theorem ended_relay_reported_failed :
    ∃ turns run,
      relay.Reached .echoing
        (Task.unbounded (.echoing : Collaborators Unit))
        (.fresh false) [] turns (some .goesOn) run
      ∧ (∃ turn ∈ turns, relay.Ends turn)
      ∧ (relay.finish Instant.epoch run .goesOn []).isSuccess = false
      ∧ (relay.finish Instant.epoch run .goesOn []).diagnostic
        = some "workflow run stopped before completion at ''" := by
  obtain ⟨run, hreached, hcurrent⟩ := relay_takes_two_turns []
  refine ⟨_, run, hreached, hreached.stands.ended.1 hcurrent, rfl, ?_⟩
  show some ("workflow run stopped before completion at '"
    ++ run.current.getD "" ++ "'") = _
  rw [hcurrent]
  rfl

/-- Stepped once more, the relay is told that it is completed, and is reported
as a success with both of its responses. -/
theorem completed_relay_reported_success :
    ∃ turns run,
      relay.Reached .echoing
        (Task.unbounded (.echoing : Collaborators Unit))
        (.fresh false) [] turns (some .completed) run
      ∧ turns.map Turn.name = ["first", "second"]
      ∧ (relay.finish Instant.epoch run .completed []).isSuccess = true
      ∧ (relay.finish Instant.epoch run .completed []).history
        = some (turns.map Turn.response) := by
  obtain ⟨run, hreached, hcurrent⟩ := relay_takes_two_turns []
  have hstep : relay.step .echoing
      (Task.unbounded (.echoing : Collaborators Unit)) run (.start ())
      = ⟨.ok .completed, run, .start ()⟩ :=
    StepsTo.step_eq (.completed hcurrent)
  have hkept := hreached.kept (t := .start ()) (by rw [hstep])
  simp only [hstep, Except.toOption, Option.some_or] at hkept
  obtain ⟨hended, hsuccess, -, hhistory⟩ :=
    finish_succeeds_iff hkept Instant.epoch []
  exact ⟨_, run, hkept, rfl,
    hsuccess.2 ⟨hended.1 hcurrent, by simp⟩, hhistory⟩

end TaskRouting.Workflow
