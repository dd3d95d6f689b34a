import TaskRouting.Fault
import TaskRouting.Task.Basic
/-!
Workflows in the making.

A draft collects sub-tasks, routes and settings in any order, the later of two
writes to one place winning; setting the whole routing table discards the
routes before it. `build` accepts a draft that has a sub-task, starts at one,
has routes only from names that are sub-tasks or targets of routes, and may
make at least one attempt. Targets are free: a name that the workflow does not
own is looked up when it is reached.
-/

namespace TaskRouting

/-- How many attempts a workflow has that does not say. -/
def usualMaxAttempts : UInt32 := 3

/-- A workflow that is not yet checked. -/
structure Workflow.Draft (τ : Type) where
  identity : Identity
  tasks : List (String × τ)
  start : Option String
  routing : RoutingTable
  maxAttempts : UInt32
  recursive : Bool

namespace Workflow.Draft

variable {τ : Type}

/-- A draft with nothing in it. -/
def new (identity : Identity) : Draft τ :=
  { identity
    tasks := []
    start := none
    routing := []
    maxAttempts := usualMaxAttempts
    recursive := false }

/-- Puts a sub-task under a name. -/
def task (d : Draft τ) (name : String) (t : τ) : Draft τ :=
  { d with tasks := Table.insert d.tasks name t }

/-- Sets the name that runs first. -/
def startAt (d : Draft τ) (name : String) : Draft τ :=
  { d with start := some name }

/-- Sets the route after a name has ended with a code. -/
def route (d : Draft τ) (name : String) (code : UInt32) (r : Route) :
    Draft τ :=
  { d with routing := d.routing.set name code r }

/-- Sets the whole routing table, and with it drops the routes set before. -/
def withRouting (d : Draft τ) (t : RoutingTable) : Draft τ :=
  { d with routing := t }

/-- Sets how many retry routes a run may take. -/
def attempts (d : Draft τ) (n : UInt32) : Draft τ :=
  { d with maxAttempts := n }

/-- Sets whether the workflow may run inside itself. -/
def mayRecur (d : Draft τ) (b : Bool) : Draft τ := { d with recursive := b }

/-- Whether there is a sub-task under a name. -/
def owns (d : Draft τ) (name : String) : Bool := Table.contains d.tasks name

/-- The least name that has routes but is neither a sub-task nor a target. -/
def strayed? (d : Draft τ) : Option String :=
  d.routing.keys.find? fun name =>
    !d.owns name && !d.routing.targets.contains name

/-- The workflow, if the draft holds together. -/
def build (d : Draft τ) : Except WorkflowError (Workflow τ) :=
  -- A draft that does not say where to start starts at the empty name.
  let start := d.start.getD ""
  if d.tasks.isEmpty then .error (.empty d.identity.key)
  else if !d.owns start then .error (.unknownStart d.identity.key start)
  else match d.strayed? with
    | some name => .error (.unknownSource d.identity.key name)
    | none =>
      if d.maxAttempts = 0 then .error (.noAttempts d.identity.key)
      else .ok
        { identity := d.identity
          tasks := d.tasks
          start
          routing := d.routing
          maxAttempts := d.maxAttempts
          recursive := d.recursive }

end Workflow.Draft

end TaskRouting
