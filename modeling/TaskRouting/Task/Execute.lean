import TaskRouting.Execution.Leaf
import TaskRouting.Workflow.Step
/-!
Executing tasks.

The inputs are checked first. A task that misses one that it requires fails at
once and calls nobody; otherwise it runs on the inputs with their defaults
filled in. In any case the response shows the inputs as they were given.
-/

namespace TaskRouting.Task

variable {σ : Type} (c : Collaborators σ)

/-- The diagnostic of a task that misses inputs. -/
def missingText (missing : List String) : String :=
  "Missing required inputs: " ++ String.intercalate ", " missing

/-- Executes a task, given how the tasks inside it are executed and a bound on
the steps of a workflow. -/
def perform (executeTask : Workflow.Executor σ) (bound : Nat)
    (context : Context) (task : Task) (inputs : Inputs) :
    Execution σ Response := do
  match task.identity.inputSchema.prepare inputs with
  | .error missing =>
    return .failure (← c.now) task.identity.header inputs failureCode
      (missingText missing)
  | .ok prepared =>
    match task with
    | .prompt p => p.execute c (executeTask context) prepared inputs
    | .check k => k.execute c (executeTask context) prepared inputs
    | .workflow w => w.execute c executeTask bound context prepared inputs

/-- Executes a task. The bound is on how deep tasks run inside tasks and on
the number of steps of each workflow. -/
def execute : Nat → Workflow.Executor σ
  | 0 => fun _ _ _ => Execution.stop .exhausted
  | n + 1 => perform c (execute n) n

end TaskRouting.Task
