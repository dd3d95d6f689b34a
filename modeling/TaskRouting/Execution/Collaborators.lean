import TaskRouting.Api
import TaskRouting.Response.Basic
import TaskRouting.Task.Basic
/-!
Whom an execution talks to.

Tasks run among agents, a registry of APIs, a lookup of tasks by name and a
store, all of which keep their state in a world that the program never looks
into. Each of them may answer, refuse, or crash. An agent that has tools does
not answer at once: asking it opens a conversation, in which it may call tools
before it answers.
-/

namespace TaskRouting

/-- A collaborator broke off without an answer. -/
structure Crash where
  /-- What it said, if that can be read. -/
  text : Option String
  deriving DecidableEq

/-- What is said of a crash. -/
def Crash.message (c : Crash) : String := c.text.getD "unknown panic payload"

/-- Configurations of APIs by name. -/
abbrev ApiConfigs := Table String ApiConfig

/-- What an agent is asked. -/
structure Request where
  inputs : Inputs
  apis : ApiConfigs
  /-- The tools at hand; none where the agent is not told of any. -/
  tools : Option (List (String × Task))

/-- Talking to an agent, up to its answer. -/
inductive Conversation (σ : Type) where
  | answer (result : Except AgentError (List Message)) (world : σ)
  | crash (crash : Crash) (world : σ)
  /-- The agent calls a tool. It goes on with the tool's response, with
  nothing if there is no such tool, or with the fault that stopped it. -/
  | callTool (name : String) (inputs : Inputs) (world : σ)
      (resume : Except Fault (Option Response) → σ → Conversation σ)

/-- Everyone whom an execution talks to; `σ` is the type of their world. -/
structure Collaborators (σ : Type) where
  agent : Agent → Request → σ → Conversation σ
  health : String → σ → Except Crash ApiHealth × σ
  config : String → σ → Except Crash (Except ApiError ApiConfig) × σ
  lookup : String → σ → Except Crash (Except LookupError (Option Task)) × σ
  store : Response → σ → Except Crash (Except StoreError StoredResponse) × σ
  /-- Whether executions have been asked to stop. -/
  cancelled : σ → Bool
  clock : σ → Instant
  /-- An identifier for a record that no store has accepted. -/
  freshId : σ → RecordId × σ

/-- One call to a collaborator. -/
inductive Call where
  | agent (name : String) (inputs : Inputs) (apis : ApiConfigs)
      (tools : Option (List String))
  | health (api : String)
  | config (api : String)
  | lookup (name : String)
  | store (taskId : String)

end TaskRouting
