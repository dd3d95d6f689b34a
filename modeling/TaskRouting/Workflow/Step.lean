import TaskRouting.Workflow.Run
/-!
Steps of a run, and whole runs.

A step runs at most one sub-task. Before it does, it looks for obstacles in a
fixed order: the run has been asked to stop, its budget is used up, the name
is unknown, the task may not run here. A run changes only when a sub-task has
responded; whatever stops a step before that leaves the run as it is, to be
stepped again.
-/

namespace TaskRouting.Workflow

variable {σ : Type} (c : Collaborators σ)

/-- How sub-tasks are executed. -/
abbrev Executor (σ : Type) := Context → Task → Inputs → Execution σ Response

/-- The task that a name stands for: the workflow's own sub-task, or one that
is looked up. -/
def find (w : Workflow Task) (name : String) : Execution σ (Option Task) :=
  match w.own? name with
  | some task => return some task
  | none => do
    match ← c.lookUp name with
    | .ok found => return found
    | .error error => Execution.stop (.fault (.lookup error))

/-- What a step leaves behind. The run is there also when the step was
stopped. -/
structure Stepped (σ : Type) where
  result : Except Stop Outcome
  run : Run
  trace : Trace σ

/-- One step of a run. -/
def step (execute : Executor σ) (w : Workflow Task) (run : Run)
    (t : Trace σ) : Stepped σ :=
  match run.current with
  -- A run at its end stays there, whatever else might stop it.
  | none => ⟨.ok .completed, run, t⟩
  | some name =>
    if run.context.isCancelled c t.world then
      ⟨.ok (.failed .cancelled), run, t⟩
    else if w.maxAttempts ≤ run.attempts then
      ⟨.ok (.failed (.attempts run.attempts w.maxAttempts)), run, t⟩
    else
      match w.find c name t with
      | (.error stop, t) => ⟨.error stop, run, t⟩
      | (.ok none, t) => ⟨.ok (.failed (.unresolvable name)), run, t⟩
      | (.ok (some task), t) =>
        match refusal? run.context task with
        | some obstacle => ⟨.ok (.failed obstacle), run, t⟩
        | none =>
          let inputs := task.identity.inputSchema.select run.environment
          match execute run.context task inputs t with
          | (.error stop, t) => ⟨.error stop, run, t⟩
          | (.ok response, t) =>
            -- From here on the step counts, also where no route is found.
            let (outcome, run) := w.advance name response run
            ⟨.ok outcome, run, t⟩

/-- Takes steps until the run does not go on. The bound is on their number. -/
def drive (execute : Executor σ) (w : Workflow Task) :
    Nat → Run → Execution σ (Outcome × Run)
  | 0, _ => Execution.stop .exhausted
  | n + 1, run => fun t =>
    match w.step c execute run t with
    | ⟨.error stop, _, t⟩ => (.error stop, t)
    | ⟨.ok .goesOn, run, t⟩ => drive execute w n run t
    | ⟨.ok outcome, run, t⟩ => (.ok (outcome, run), t)

/-- Executes a workflow on inputs with their defaults filled in; the response
shows the inputs as they were given. -/
def execute (executeTask : Executor σ) (bound : Nat) (w : Workflow Task)
    (context : Context) (prepared given : Inputs) : Execution σ Response := do
  let (outcome, run) ← w.drive c executeTask bound (w.newRun context prepared)
  return w.finish (← c.now) run outcome given

end TaskRouting.Workflow
