import TaskRouting.Execution.Basic
import TaskRouting.Task.Verdict
/-!
Executing prompts and checks.

The APIs of the task are looked up first, in the order in which it names them;
one that cannot be used is a fault. Then the agent is asked, with the task's
tools if the task allows them and the agent makes use of them. An agent that
refuses or says nothing makes the task fail in the ordinary way.
-/

namespace TaskRouting

/-- Why an agent's messages are missing. -/
inductive Silence where
  | failed (agent : String) (error : AgentError)
  | empty (agent : String)

/-- What is said of messages that are missing. -/
def Silence.message : Silence → String
  | failed agent error => "Agent '" ++ agent ++ "' failed: " ++ error.message
  | empty agent => "No messages returned from agent '" ++ agent ++ "'"

/-- Carries a conversation on to its end. Tools are run where they are
called. -/
def Conversation.finish {σ : Type}
    (runTool : Task → Inputs → Execution σ Response)
    (tools : List (String × Task)) :
    Conversation σ → Execution σ (Except AgentError (List Message))
  | .answer result world => do
    Execution.setWorld world
    return result
  | .crash why world => do
    Execution.setWorld world
    Execution.stop (.crash why)
  | .callTool name inputs world resume => fun t =>
    let t := { t with world }
    match Table.get? tools name with
    | none => finish runTool tools (resume (.ok none) t.world) t
    | some tool =>
      match runTool tool inputs t with
      | (.ok response, t) =>
        finish runTool tools (resume (.ok (some response)) t.world) t
      -- The agent learns of a fault and may go on; whatever else stops a
      -- tool stops the agent with it.
      | (.error (.fault fault), t) =>
        finish runTool tools (resume (.error fault) t.world) t
      | (.error stop, t) => (.error stop, t)

namespace Prompt

variable {σ : Type} (c : Collaborators σ)

/-- The configurations of some APIs. -/
def resolveApis (apis : List String) : Execution σ ApiConfigs :=
  apis.foldlM (fun (known : ApiConfigs) api => do
    match ← c.askConfig api with
    | .ok config => return known.insert api config
    | .error error => Execution.stop (.fault (.api error))) []

/-- The tools that the agent is told of. -/
def toolbox (p : Prompt Task) : Option (List (String × Task)) :=
  if p.capabilities.hasFunctions && p.agent.usesTools then
    some p.tools else none

/-- Asks the agent for messages. -/
def generate (runTool : Task → Inputs → Execution σ Response)
    (p : Prompt Task) (prepared : Inputs) :
    Execution σ (Except Silence (List Message)) := do
  let apis ← resolveApis c p.identity.requiredApis
  -- The call is noted before what it leads to, such as calls of tools.
  Execution.note (.agent p.agent.name prepared apis
    (p.toolbox.map Table.keys))
  let conversation ← Execution.observe
      (c.agent p.agent ⟨prepared, apis, p.toolbox⟩)
  match ← conversation.finish runTool (p.toolbox.getD []) with
  | .error error => return .error (.failed p.agent.name error)
  | .ok [] => return .error (.empty p.agent.name)
  | .ok messages => return .ok messages

/-- Executes a prompt on inputs with their defaults filled in; the response
shows the inputs as they were given. -/
def execute (runTool : Task → Inputs → Execution σ Response) (p : Prompt Task)
    (prepared given : Inputs) : Execution σ Response := do
  match ← generate c runTool p prepared with
  | .ok messages => return .success (← c.now) p.identity.header given messages
  | .error why =>
    return .failure (← c.now) p.identity.header given failureCode why.message

end Prompt

/-- Executes a check. The last message is the answer that is judged. -/
def Check.execute {σ : Type} (c : Collaborators σ)
    (runTool : Task → Inputs → Execution σ Response) (k : Check Task)
    (prepared given : Inputs) : Execution σ Response := do
  let header := k.prompt.identity.header
  match ← k.prompt.generate c runTool prepared with
  | .ok messages =>
    -- `generate` answers with at least one message, so there is a last one.
    let answer := (messages.getLast?.map (·.content)).getD ""
    let (code, diagnostic) := k.judge answer
    return .completed (← c.now) header given code (some messages) diagnostic
  | .error why =>
    return .failure (← c.now) header given failureCode why.message

end TaskRouting
