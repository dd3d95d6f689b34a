import TaskRouting.Identity
import TaskRouting.Instant
import TaskRouting.Message
import TaskRouting.RecordId
/-!
The record of one execution of a task.

`completed` and `failure` build the record of a single task, `withHistory`
adds the responses of a workflow's sub-tasks in the order in which they ran.
The status follows from the result code, and usage is counted once: a single
task reports its own messages, a workflow its history.
-/

namespace TaskRouting

/-- How far a task has come. -/
inductive Status where
  | pending
  | success
  | failed
  deriving DecidableEq

namespace Status

/-- The word for a status in a record. -/
def name : Status → String
  | pending => "pending"
  | success => "success"
  | failed => "failed"

/-- The status of a task that ended with a result code. -/
def ofCode (code : UInt32) : Status :=
  if code = successCode then success else failed

/-- Nothing more will happen. -/
def isTerminal : Status → Bool
  | pending => false
  | _ => true

/-- A status is written as its word. -/
def toJson (s : Status) : Json := .string s.name

/-- Reads a status, in any form in which an alternative may stand. -/
def ofJson? (v : Json) : Option Status :=
  v.alternative? ([pending, success, failed].map fun s => (s.name, s))

end Status

/-- The record of one execution. -/
structure Response where
  header : Header
  status : Status
  code : UInt32
  outputs : Option (List Message)
  inputs : Inputs
  diagnostic : Option String
  usage : Option Usage
  /-- The responses of a workflow's sub-tasks, in the order in which they
  ran. -/
  history : Option (List Response)
  createdAt : Instant

namespace Response

/-- The record of a task that ended with a result code. -/
def completed (now : Instant) (header : Header) (inputs : Inputs)
    (code : UInt32) (outputs : Option (List Message))
    (diagnostic : Option String) : Response :=
  { header, status := .ofCode code, code, outputs, inputs, diagnostic
    usage := outputs.bind fun messages => Usage.sum (messages.map (·.usage))
    history := none, createdAt := now }

/-- The record of a task that succeeded with some messages. -/
def success (now : Instant) (header : Header) (inputs : Inputs)
    (outputs : List Message) : Response :=
  completed now header inputs successCode (some outputs) none

/-- The record of a failure, which never has the code of success. -/
def failure (now : Instant) (header : Header) (inputs : Inputs)
    (code : UInt32) (diagnostic : String) : Response :=
  completed now header inputs
    (if code = successCode then failureCode else code) none (some diagnostic)

/-- Adds the history of a workflow, whose usage takes the place of the
outputs' own. -/
def withHistory (r : Response) (history : List Response) : Response :=
  { r with
    usage := Usage.sum (history.map (·.usage))
    history := some history }

/-- Whether the task has succeeded. -/
def isSuccess (r : Response) : Bool := r.status = .success

/-- The contents of the outputs, a line break between them. -/
def outputText (r : Response) : Option String :=
  r.outputs.map fun messages =>
    String.intercalate "\n" (messages.map (·.content))

/-- How many sub-task responses the record has; zero without a history. -/
def historyLength (r : Response) : Nat := (r.history.map List.length).getD 0

end Response

/-- A response as a store has kept it, or has failed to. -/
structure StoredResponse where
  id : RecordId
  storedAt : Instant
  /-- Whether a store has accepted the response. -/
  persisted : Bool
  response : Response

end TaskRouting
