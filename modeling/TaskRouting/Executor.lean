import TaskRouting.Availability
import TaskRouting.Task.Execute
/-!
Executing tasks safely.

Whatever happens while a task is looked up, checked or executed, the caller of
an executor gets one record of one response, and that response has been
offered to the store. A fault or a crash becomes a failed response; a store
that refuses leaves the record unpersisted. Only a store that crashes itself
is not caught.
-/

namespace TaskRouting

/-- Runs tasks among collaborators. -/
structure Executor (σ : Type) where
  collaborators : Collaborators σ
  /-- Whether executions heed being asked to stop. -/
  cancellable : Bool
  /-- The bound on the length of executions. -/
  bound : Nat

namespace Executor

variable {σ : Type} (e : Executor σ)

/-- The task name on responses for keys under which no task is found. -/
def unknownName : String := "Unknown"

/-- What stands between a diagnostic and the place where it arose. -/
def backtraceMark : String := "\n\nBacktrace:\n"

/-- Where the executor's tasks are executed: outside of all workflows. -/
def context : Context := .fresh e.cancellable

/-- The line of text that shows an executor. -/
def line : String :=
  Text.enclosed "TaskExecutor \x7b " " \x7d"
    ["cancellable: " ++ toString e.cancellable, ".."]

/-- The health of the APIs that a task depends on. -/
def check (task : Task) : Execution σ AvailabilityReport :=
  checkAvailability e.collaborators e.bound task

/-- The diagnostic of what stopped an execution, if it can be answered for. -/
def diagnostic? : Stop → Option String
  | .fault fault => some (fault.fullMessage ++ backtraceMark)
  | .crash crash => some ("panic: " ++ crash.message ++ backtraceMark)
  | .exhausted => none

/-- Turns faults and crashes into a failed response. -/
def guarded (run : Execution σ Response) (header : Header) (inputs : Inputs) :
    Execution σ Response := fun t =>
  match run t with
  | (.ok response, t) => (.ok response, t)
  | (.error stop, t) =>
    match diagnostic? stop with
    | none => (.error stop, t)
    | some diagnostic =>
      -- What the collaborators have done by then stays done.
      let now := e.collaborators.clock t.world
      (.ok (.failure now header inputs failureCode diagnostic), t)

/-- A record that no store has accepted. -/
def unpersisted (response : Response) : Execution σ StoredResponse := do
  let (id, world) ← Execution.observe e.collaborators.freshId
  Execution.setWorld world
  let storedAt ← e.collaborators.now
  return { id, storedAt, persisted := false, response }

/-- Offers a response to the store. -/
def persist (response : Response) : Execution σ StoredResponse := do
  match ← e.collaborators.keep response with
  | .ok stored => return stored
  | .error _ => e.unpersisted response

/-- Executes a task and stores its response. -/
def execute (task : Task) (inputs : Inputs) : Execution σ StoredResponse := do
  let run : Execution σ Response := do
    -- The report is dropped: the task is executed however its APIs fare, and
    -- only a crash while they are asked makes a difference.
    let _ ← e.check task
    task.execute e.collaborators e.bound e.context inputs
  e.persist (← e.guarded run task.identity.header inputs)

/-- What looking up a task has come to. -/
inductive Finding where
  | found (task : Task)
  | unknown
  | failed (error : LookupError)
  | crashed (crash : Crash)

/-- Looks a task up. -/
def seek (key : String) : Execution σ Finding := fun t =>
  match e.collaborators.lookUp key t with
  | (.ok (.ok (some task)), t) => (.ok (.found task), t)
  | (.ok (.ok none), t) => (.ok .unknown, t)
  | (.ok (.error error), t) => (.ok (.failed error), t)
  | (.error (.crash crash), t) => (.ok (.crashed crash), t)
  | (.error stop, t) => (.error stop, t)

/-- Stores a failed response in the name of a key under which no task is
found. -/
def refuse (key : String) (inputs : Inputs) (diagnostic : String) :
    Execution σ StoredResponse := do
  let header : Header := ⟨key, unknownName, ""⟩
  e.persist (.failure (← e.collaborators.now) header inputs
    failureCode diagnostic)

/-- Looks a task up, executes it and stores its response. -/
def executeByKey (key : String) (inputs : Inputs) :
    Execution σ StoredResponse := do
  match ← e.seek key with
  | .found task => e.execute task inputs
  | .unknown => e.refuse key inputs ("Unknown task '" ++ key ++ "'")
  | .failed error =>
    e.refuse key inputs ("Task lookup for '" ++ key ++ "' failed: "
      ++ error.message)
  | .crashed crash =>
    e.refuse key inputs
      ("Task lookup for '" ++ key ++ "' panicked: " ++ crash.message
        ++ backtraceMark)

end Executor

end TaskRouting
