import TaskRouting.Executor
import TaskRouting.Rehearsal.World
/-!
Rehearsals: tasks executed step by step among scripted collaborators.

A session holds the world, the runs of workflows that are under way, and the
records that it got back. A run keeps the workflow with which it was started,
whatever happens to the catalog.
-/

namespace TaskRouting.Rehearsal

/-- A run under way. -/
structure Journey where
  workflow : Workflow Task
  run : Run
  /-- The inputs with which it was started. -/
  inputs : Inputs
  /-- What the last step has led to. -/
  outcome : Outcome

/-- A rehearsal under way: its world, the agents that may be assigned to
tasks, the runs begun, and the records got back. -/
structure Session where
  world : World
  agents : Table String Agent
  /-- Whether executions heed being asked to stop. -/
  cancellable : Bool
  journeys : List (String × Journey)
  /-- The records got back, the earliest first. -/
  records : List StoredResponse

namespace Session

/-- The bound on executions in a rehearsal. -/
def bound : Nat := 1000000000

/-- The executor of the session: the collaborators of `World`, and the bound
on executions. -/
def executor (s : Session) : Executor World :=
  ⟨World.collaborators, s.cancellable, bound⟩

/-- What an execution has led to, and whom it has called. -/
structure Report (α : Type) where
  result : Except Stop α
  calls : List Call

/-- Lets an execution take place. -/
def perform {α : Type} (s : Session) (e : Execution World α) :
    Report α × Session :=
  let (result, trace) := e.runFrom (.start s.world)
  (⟨result, trace.calls⟩, { s with world := trace.world })

/-- Keeps a record that was got back. -/
def remember (s : Session) (r : Report StoredResponse) : Session :=
  match r.result with
  | .ok record => { s with records := s.records ++ [record] }
  | .error _ => s

/-- Lets an execution take place that ends in a record. -/
def performKept (s : Session) (e : Execution World StoredResponse) :
    Report StoredResponse × Session :=
  let (report, s) := s.perform e
  (report, s.remember report)

/-- Hands a response to the store and reports what the store makes of it. -/
def offer (s : Session) (r : Response) :
    Report (Except StoreError StoredResponse) × Session :=
  let (report, s) := s.perform (World.collaborators.keep r)
  match report.result with
  | .ok (.ok record) => (report, { s with records := s.records ++ [record] })
  | _ => (report, s)

/-- Puts another catalog into the world. Runs under way keep the workflow with
which they were started. -/
def withCatalog (s : Session) (c : Catalog) : Session :=
  { s with world := { s.world with catalog := c } }

/-- Puts another registry of APIs into the world. -/
def withRegistry (s : Session) (r : Registry) : Session :=
  { s with world := { s.world with registry := r } }

/-- Asks executions to stop; those that are not `cancellable` take no
notice. -/
def cancel (s : Session) : Session :=
  { s with world := { s.world with cancelled := true } }

/-- What is done to the file of a record before it is read back. -/
inductive Damage where
  | none
  | removed
  | overwritten (text : String)

/-- What becomes of a store when the file of a record is damaged; none if that
cannot be done. -/
def Damage.apply? (damage : Damage) (store : FileStore) (id : RecordId) :
    Option FileStore :=
  match damage with
  | .none => some store
  | .removed => some (store.remove id)
  | .overwritten text => store.overwrite? id text

/-- Reads a record back from its file; none where records are not kept in
files, or where the file cannot be damaged in the way it should be. -/
def reload (s : Session) (record : StoredResponse) (damage : Damage) :
    Option (Except StoreError StoredResponse × Session) :=
  match s.world.shelf with
  | .files store => do
    let store ← damage.apply? store record.id
    return (store.load record.id,
      { s with world := { s.world with shelf := .files store } })
  | _ => none

-- ================================================================ runs

/-- Begins a run. -/
def start (s : Session) (name : String) (w : Workflow Task)
    (inputs : Inputs) : Journey × Session :=
  let journey : Journey :=
    ⟨w, w.newRun (.fresh s.cancellable) inputs, inputs, .goesOn⟩
  (journey, { s with journeys := Table.insert s.journeys name journey })

/-- Takes one step of a run. -/
def step (s : Session) (name : String) (j : Journey) :
    Report Outcome × Journey × Session :=
  let execute := Task.execute World.collaborators bound
  let stepped := j.workflow.step World.collaborators execute j.run
    (.start s.world)
  -- A step that was stopped leads to nothing, so the last outcome stands.
  let outcome := match stepped.result with
    | .ok outcome => outcome
    | .error _ => j.outcome
  let j := { j with run := stepped.run, outcome }
  (⟨stepped.result, stepped.trace.calls⟩, j,
    { s with
      world := stepped.trace.world
      journeys := Table.insert s.journeys name j })

/-- Ends a run. -/
def finish (s : Session) (name : String) (j : Journey) (outcome : Outcome)
    (inputs : Inputs) : Response × Session :=
  (j.workflow.finish s.world.clock j.run outcome inputs,
    { s with journeys := Table.erase s.journeys name })

end Session

end TaskRouting.Rehearsal
