import TaskRouting.Execution.Collaborators
/-!
Executions.

An execution changes the world of the collaborators and leaves a list of the
calls made to them, in the order in which they were made. It ends with a
value, or it is stopped: by a fault, by the crash of a collaborator, or
because the bound on its length is used up. Such a bound is not part of what
tasks mean; it is there because a routing table or an agent may go round in
circles for ever.
-/

namespace TaskRouting

/-- The state of the world and the calls that were made. -/
structure Trace (σ : Type) where
  world : σ
  /-- The calls, the latest first, so that one more costs the same however
  many there are. -/
  made : List Call

namespace Trace

variable {σ : Type}

/-- No call has been made. -/
def start (world : σ) : Trace σ := ⟨world, []⟩

/-- The calls, the earliest first. -/
def calls (t : Trace σ) : List Call := t.made.reverse

/-- Makes a call. -/
def call (t : Trace σ) (c : Call) : Trace σ := { t with made := c :: t.made }

/-- At first no call has been made. -/
@[simp] theorem calls_start (world : σ) : (start world).calls = [] := rfl

/-- A call comes after those that have been made before. -/
@[simp] theorem calls_call (t : Trace σ) (c : Call) :
    (t.call c).calls = t.calls ++ [c] :=
  List.reverse_cons

end Trace

/-- Why an execution has no value. -/
inductive Stop where
  | fault (fault : Fault)
  | crash (crash : Crash)
  /-- The bound on its length is used up. -/
  | exhausted
  deriving DecidableEq

/-- A change of the world that makes calls, and ends with a value or is
stopped. -/
abbrev Execution (σ : Type) := ExceptT Stop (StateM (Trace σ))

namespace Execution

variable {σ α : Type}

/-- How an execution ends when it begins with a certain trace. -/
def runFrom (e : Execution σ α) (t : Trace σ) : Except Stop α × Trace σ := e t

/-- Stops the execution. -/
def stop (s : Stop) : Execution σ α := throw s

/-- Something that depends on the world and leaves it as it is. -/
def observe (f : σ → α) : Execution σ α := fun t => (.ok (f t.world), t)

/-- Gives the collaborators another world. -/
def setWorld (world : σ) : Execution σ Unit :=
  fun t => (.ok (), { t with world })

/-- Notes a call. -/
def note (call : Call) : Execution σ Unit := fun t => (.ok (), t.call call)

/-- Calls a collaborator. -/
def consult (call : Call) (answer : σ → Except Crash α × σ) :
    Execution σ α := do
  note call
  let (result, world) ← observe answer
  setWorld world
  match result with
  | .ok a => return a
  | .error crash => stop (.crash crash)

end Execution

namespace Collaborators

open Execution

variable {σ : Type} (c : Collaborators σ)

/-- Asks the registry whether an API can be used. -/
def askHealth (api : String) : Execution σ ApiHealth :=
  consult (.health api) (c.health api)

/-- Asks the registry for the configuration of an API. -/
def askConfig (api : String) : Execution σ (Except ApiError ApiConfig) :=
  consult (.config api) (c.config api)

/-- Looks a task up by its name. -/
def lookUp (name : String) : Execution σ (Except LookupError (Option Task)) :=
  consult (.lookup name) (c.lookup name)

/-- Offers a response to the store. -/
def keep (r : Response) : Execution σ (Except StoreError StoredResponse) :=
  consult (.store r.header.taskId) (c.store r)

/-- The time by the collaborators' clock. -/
def now : Execution σ Instant := observe c.clock

end Collaborators

/-- Where in a chain of workflows an execution takes place. -/
structure Context where
  /-- The keys of the workflows under way, the outermost first. -/
  active : List String
  /-- Whether the execution heeds being asked to stop. -/
  cancellable : Bool
  deriving DecidableEq

namespace Context

/-- Outside of all workflows. -/
def fresh (cancellable : Bool) : Context := ⟨[], cancellable⟩

/-- How many workflows are under way. -/
def depth (c : Context) : Nat := c.active.length

/-- Whether a workflow with this key is under way. -/
def isActive (c : Context) (key : String) : Bool := c.active.contains key

/-- Inside a workflow. -/
def enter (c : Context) (key : String) : Context :=
  { c with active := c.active ++ [key] }

/-- Whether the execution has been asked to stop and heeds it. -/
def isCancelled {σ : Type} (c : Context) (collaborators : Collaborators σ)
    (world : σ) : Bool :=
  c.cancellable && collaborators.cancelled world

end Context

end TaskRouting
