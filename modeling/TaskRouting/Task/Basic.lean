import TaskRouting.Identity
import TaskRouting.Workflow.Route
/-!
Tasks: what they are, not yet how they run.

A prompt task hands its inputs to an agent; a check task also turns the
agent's answer into a result code; a workflow runs named sub-tasks along a
routing table. A definition holds nothing that belongs to a single run, so one
definition may serve any number of them.
-/

namespace TaskRouting

/-- An agent that tasks refer to. What it answers is up to whoever runs the
tasks. -/
structure Agent where
  /-- The key under which the agent is found. -/
  key : String
  /-- The name that the agent goes by. -/
  name : String
  /-- Whether the agent makes use of tools when it is given some. -/
  usesTools : Bool
  deriving DecidableEq

/-- What the agent of a task may do. -/
structure Capabilities where
  /-- The agent may call the task's tools. -/
  hasFunctions : Bool
  deriving DecidableEq

namespace Capabilities

/-- The capabilities of an agent that may call nothing. -/
def none : Capabilities := ⟨false⟩

/-- Capabilities as JSON. -/
def toJson (c : Capabilities) : Json :=
  .ofMembers [("has_functions", .bool c.hasFunctions)]

/-- Reads capabilities; what is not said is not allowed. -/
def ofJson? (v : Json) : Option Capabilities := do
  let fields ← v.fields? ["has_functions"]
  return {
    hasFunctions := ← fields.defaulted "has_functions" false Json.bool? }

end Capabilities

/-- A task that returns what an agent answers; `τ` is the type of its
tools. -/
structure Prompt (τ : Type) where
  identity : Identity
  agent : Agent
  capabilities : Capabilities
  tools : List (String × τ)

/-- The tools that the agent may call. -/
def Prompt.callable {τ : Type} (p : Prompt τ) : List τ :=
  if p.capabilities.hasFunctions then Table.values p.tools else []

/-- A task that turns an agent's answer into a result code. -/
structure Check (τ : Type) where
  prompt : Prompt τ
  /-- The result code of each answer that is expected. -/
  labels : Table String UInt32
  /-- The result code of any other answer. -/
  defaultCode : UInt32

/-- A task that runs named sub-tasks of type `τ` along a routing table. -/
structure Workflow (τ : Type) where
  identity : Identity
  tasks : List (String × τ)
  /-- The name that runs first. -/
  start : String
  routing : RoutingTable
  /-- How many retry routes a run may take. -/
  maxAttempts : UInt32
  /-- Whether the workflow may run inside itself. -/
  recursive : Bool

namespace Workflow

variable {τ : Type}

/-- The key of a workflow is that of its identity. -/
def key (w : Workflow τ) : String := w.identity.key

/-- The sub-task that the workflow itself has under a name. -/
def own? (w : Workflow τ) (name : String) : Option τ :=
  Table.get? w.tasks name

/-- Whether the workflow itself has a sub-task under a name. -/
def owns (w : Workflow τ) (name : String) : Bool :=
  Table.contains w.tasks name

/-- The route after a name has ended with a code. -/
def route? (w : Workflow τ) (name : String) (code : UInt32) : Option Route :=
  w.routing.route? name code

/-- The names that routes lead to and that the workflow does not own,
ascending. -/
def externalReferences (w : Workflow τ) : List String :=
  sortedSet (w.routing.targets.filter fun name => !w.owns name)

end Workflow

/-- A task of any kind. The tools of a prompt and the sub-tasks of a workflow
are tasks again. -/
inductive Task where
  | prompt (prompt : Prompt Task)
  | check (check : Check Task)
  | workflow (workflow : Workflow Task)

namespace Task

/-- What a task is called and what it declares; that of a check is its
prompt's. -/
def identity : Task → Identity
  | prompt p => p.identity
  | check c => c.prompt.identity
  | workflow w => w.identity

/-- The key under which a task is known. -/
def key (t : Task) : String := t.identity.key

/-- The name that a task goes by. -/
def name (t : Task) : String := t.identity.name

/-- The kind of the task in one word. -/
def kind : Task → String
  | prompt _ => "prompt"
  | check _ => "check"
  | workflow _ => "workflow"

/-- The workflow that a task is, if it is one. -/
def workflow? : Task → Option (Workflow Task)
  | workflow w => some w
  | _ => none

end Task

end TaskRouting
