import TaskRouting.Execution.Collaborators
/-!
Scripted agents.

An agent in a rehearsal has a list of replies. The n-th time it is asked it
gives the n-th of them, and the last one ever after. A reply may also ask for
executions to be stopped.
-/

namespace TaskRouting.Rehearsal

/-- One call of a tool. -/
structure ToolCall where
  name : String
  /-- The inputs of the call; without them the agent passes on its own. -/
  inputs : Option Inputs

/-- What an agent does when it is asked. -/
inductive Act where
  /-- Delivers no messages. -/
  | silent
  | say (text : String) (usage : Option Usage)
  | deliver (messages : List Message)
  /-- Repeats an input, which must be a text. -/
  | echo (input : String)
  | refuse (error : AgentError)
  | crash (crash : Crash)
  | useTools (calls : List ToolCall)
  /-- Calls each tool once, in order. -/
  | useAllTools

/-- One reply of a script. -/
structure Reply where
  /-- Asks for executions to be stopped before anything else. -/
  cancels : Bool
  act : Act

/-- The reply to the question after so many others. -/
def reply (replies : List Reply) (asked : Nat) : Reply :=
  (replies[asked]?.orElse fun _ => replies.getLast?).getD ⟨false, .silent⟩

/-- What an agent that repeats an input answers. -/
def echoOf (agent : Agent) (inputs : Inputs) (input : String) :
    Except AgentError (List Message) :=
  match inputs.get? input with
  | some (.string text) => .ok [.assistant agent.name text none]
  | _ => .error (.invalidInput input)

/-- What an agent writes down about a tool that it has called. -/
def toolLine (name : String) (tool : Option Task)
    (response : Option Response) : String :=
  match tool, response with
  | some task, some r =>
    let said := (r.outputText.orElse fun _ => r.diagnostic).getD ""
    String.intercalate " " [name, task.kind, toString r.code.toNat, said]
  | _, _ => name ++ " none unknown"

variable {σ : Type}

/-- Calls tools one after the other, and answers with a line about each. A
fault ends it. -/
def callTools (agent : Agent) (request : Request)
    (tools : List (String × Task)) :
    List ToolCall → List String → σ → Conversation σ
  | [], lines, world =>
    .answer (.ok [.assistant agent.name ("\n".intercalate lines) none]) world
  | call :: rest, lines, world =>
    .callTool call.name (call.inputs.getD request.inputs) world
      fun result world =>
      match result with
      | .error fault =>
        .answer (.error (.generationFailed fault.message)) world
      | .ok response =>
        let line := toolLine call.name (Table.get? tools call.name) response
        callTools agent request tools rest (lines ++ [line]) world

/-- The conversation in which an agent does something. -/
def perform (agent : Agent) (request : Request) (world : σ) :
    Act → Conversation σ
  | .silent => .answer (.ok []) world
  | .say text usage => .answer (.ok [.assistant agent.name text usage]) world
  | .deliver messages => .answer (.ok messages) world
  | .echo input => .answer (echoOf agent request.inputs input) world
  | .refuse error => .answer (.error error) world
  | .crash crash => .crash crash world
  | .useTools calls =>
    withTools fun tools => callTools agent request tools calls [] world
  | .useAllTools => withTools fun tools =>
    callTools agent request tools (tools.map fun e => ⟨e.1, none⟩) [] world
where
  /-- Without tools the agent only says so. -/
  withTools (go : List (String × Task) → Conversation σ) : Conversation σ :=
    match request.tools with
    | none => .answer (.ok [.assistant agent.name "no tools" none]) world
    | some tools => go tools

end TaskRouting.Rehearsal
