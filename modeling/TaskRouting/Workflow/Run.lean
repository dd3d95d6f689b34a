import TaskRouting.Execution.Basic
/-!
Runs of workflows: their state, and what becomes of them.

A run knows the name that comes next, the retry routes taken, the responses so
far, and an environment of values from which sub-tasks draw their inputs: the
workflow's own inputs, and the latest output of each name that has run. A run
goes on, comes to an end route, or meets an obstacle.
-/

namespace TaskRouting

/-- How deep workflows may be nested. -/
def maxCallDepth : Nat := 32

/-- What keeps a run from going on. -/
inductive Obstacle where
  | cancelled
  /-- The budget of retry routes is used up. -/
  | attempts (taken allowed : UInt32)
  /-- A name that is no sub-task and that nobody knows. -/
  | unresolvable (name : String)
  /-- A workflow inside itself that does not allow it. -/
  | recursion (workflow : String)
  /-- Workflows nested too deep. -/
  | depth (workflow : String)
  /-- A result for which there is no route. -/
  | noRoute (code : UInt32) (name : String)
  /-- Anything else, in the words of whoever ends the run. -/
  | stated (text : String)
  deriving DecidableEq

/-- The diagnostic that an obstacle leaves in the response. -/
def Obstacle.message : Obstacle → String
  | cancelled => "workflow cancelled"
  | attempts taken allowed =>
    "max attempts exceeded (" ++ toString taken.toNat ++ " of "
      ++ toString allowed.toNat ++ ")"
  | unresolvable name => "unresolvable task reference '" ++ name ++ "'"
  | recursion workflow =>
    "recursive workflow execution is not allowed: '" ++ workflow ++ "'"
  | depth workflow =>
    "maximum workflow call depth " ++ toString maxCallDepth
      ++ " exceeded at '" ++ workflow ++ "'"
  | noRoute code name =>
    "no routing entry for exit code " ++ toString code.toNat ++ " of task '"
      ++ name ++ "'"
  | stated text => text

/-- What a step has led to. -/
inductive Outcome where
  /-- A sub-task has run, and there is a route on. -/
  | goesOn
  /-- The run has come to its end. -/
  | completed
  | failed (obstacle : Obstacle)
  deriving DecidableEq

/-- The state of one run of a workflow. -/
structure Run where
  context : Context
  /-- The name that comes next; none after an end route. -/
  current : Option String
  /-- How many retry routes have been taken. -/
  attempts : UInt32
  /-- The responses of sub-tasks, the latest first, so that one more costs the
  same however many there are. -/
  past : List Response
  environment : Inputs

/-- Where the environment keeps the output of a name. -/
def outputKey (name : String) : String := "outputs_" ++ name

namespace Run

/-- The responses of sub-tasks, the earliest first. -/
def history (r : Run) : List Response := r.past.reverse

/-- Keeps the response of a name. -/
def record (r : Run) (name : String) (response : Response) : Run :=
  { r with
    environment := r.environment.insert (outputKey name)
      (Json.optional .string response.outputText)
    past := response :: r.past }

/-- The response of a name comes last in the history. -/
@[simp] theorem history_record (r : Run) (name : String)
    (response : Response) :
    (r.record name response).history = r.history ++ [response] :=
  List.reverse_cons

/-- Goes along a route. -/
def follow (r : Run) (route : Route) : Run :=
  { r with
    attempts := if route.isRetry then r.attempts + 1 else r.attempts
    current := route.next }

/-- Going along a route leaves the history as it is. -/
@[simp] theorem history_follow (r : Run) (route : Route) :
    (r.follow route).history = r.history :=
  rfl

end Run

namespace Workflow

variable {τ : Type}

/-- A run that has not taken a step. -/
def newRun (w : Workflow τ) (context : Context) (inputs : Inputs) : Run :=
  { context := context.enter w.key
    current := some w.start
    attempts := 0
    past := []
    environment := inputs }

/-- Keeps the response of a name and takes the route for its result. -/
def advance (w : Workflow τ) (name : String) (response : Response) (r : Run) :
    Outcome × Run :=
  let r := r.record name response
  match w.route? name response.code with
  -- The run keeps the response, but stays at the name.
  | none => (.failed (.noRoute response.code name), r)
  | some route => (.goesOn, r.follow route)

/-- Why a task may not run inside the workflows under way. Only workflows are
ever refused. -/
def refusal? (context : Context) : Task → Option Obstacle
  | .workflow nested =>
    if context.isActive nested.key && !nested.recursive then
      some (.recursion nested.key)
    else if maxCallDepth ≤ context.depth then some (.depth nested.key)
    else none
  | _ => none

/-- The response for a run that is over. A run that could still go on counts
as failed. -/
def finish (w : Workflow τ) (now : Instant) (r : Run) (outcome : Outcome)
    (given : Inputs) : Response :=
  let header := w.identity.header
  let failed (why : String) :=
    (Response.failure now header given failureCode why).withHistory r.history
  match outcome with
  | .completed =>
    -- The outputs of a workflow are those of the sub-task that ran last.
    let outputs := r.past.head?.bind (·.outputs)
    (Response.completed now header given successCode outputs none).withHistory
      r.history
  | .goesOn =>
    failed ("workflow run stopped before completion at '"
      ++ r.current.getD "" ++ "'")
  | .failed obstacle => failed obstacle.message

end Workflow

end TaskRouting
