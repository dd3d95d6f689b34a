import TaskRouting.Proofs.Workflow.Stepping
import TaskRouting.Task.Execute
/-!
What one layer of an execution does.

`perform` executes a task, given how the tasks inside it are executed. It
checks the inputs and then does one of three things: it talks to the agent of
a prompt or of a check and runs tools where they are called, or it drives the
run of a workflow. The lemmas here say so once, branch by branch, so that
proofs about executions never open `perform`, `Prompt.generate` or
`Workflow.execute` themselves.

# Tools

A tool that is called runs inside the conversation. `Execution.heard` is what
the agent is told of it, and `Conversation.finish_callTool` turns the call
into an ordinary sequence of two executions, so that whatever holds of
sequences holds of tool calls.

# Prompts, workflows, tasks

`generate_of_resolved` and `generate_of_unresolved` are the two things that
asking an agent can come to before it answers; `of_generate_ok` reads a
finished one backwards. `of_execute_ok` does that for a workflow: its response
is the end of a driven run. `perform_missing`, `perform_prompt`,
`perform_check` and `perform_workflow` are the four branches of `perform`.
-/

namespace TaskRouting

variable {σ α β : Type}

namespace Execution

/-- What an agent hears of a tool that is run for it: the response, or the
fault that stopped the tool. Nothing else that stops the tool is told; it
stops the agent as well. -/
def heard (e : Execution σ Response) :
    Execution σ (Except Fault (Option Response)) :=
  fun t =>
  match e t with
  | (.ok response, t') => (.ok (.ok (some response)), t')
  | (.error (.fault fault), t') => (.ok (.error fault), t')
  | (.error stop, t') => (.error stop, t')

end Execution

open Execution

-- =============================================================== tools

/-- What an agent hears when it calls a tool by its name. -/
def Conversation.hear (runTool : Task → Inputs → Execution σ Response)
    (tools : List (String × Task)) (name : String) (inputs : Inputs) :
    Execution σ (Except Fault (Option Response)) :=
  match Table.get? tools name with
  | none => return .ok none
  | some tool => (runTool tool inputs).heard

/-- A conversation in which a tool is called goes on with what is heard of the
tool: `hear` and the rest, as one bind. The cases are how the tool can end;
only a response and a fault are told to the agent. -/
theorem Conversation.finish_callTool
    (runTool : Task → Inputs → Execution σ Response)
    (tools : List (String × Task)) (name : String) (inputs : Inputs)
    (world : σ) (resume : Except Fault (Option Response) → σ → Conversation σ)
    (t : Trace σ) :
    (callTool name inputs world resume).finish runTool tools t
      = (hear runTool tools name inputs >>= fun told t =>
          (resume told t.world).finish runTool tools t) { t with world } := by
  rw [finish, bind_apply]
  unfold hear
  cases Table.get? tools name with
  | none => rfl
  | some tool =>
    unfold heard
    dsimp only
    rcases runTool tool inputs { t with world }
      with ⟨(fault | crash | _) | response, t'⟩
    all_goals rfl

-- ============================================================= prompts

/-- Once its APIs are known, a prompt notes that its agent is asked, and
carries the conversation on to its end by `Conversation.finish`. -/
theorem Prompt.generate_of_resolved {c : Collaborators σ}
    {runTool : Task → Inputs → Execution σ Response} {p : Prompt Task}
    {prepared : Inputs} {apis : ApiConfigs} {t t' : Trace σ}
    (h : resolveApis c p.identity.requiredApis t = (.ok apis, t')) :
    p.generate c runTool prepared t
      = ((c.agent p.agent ⟨prepared, apis, p.toolbox⟩ t'.world).finish runTool
        (p.toolbox.getD [])
          >>= fun
          | .error error => return .error (.failed p.agent.name error)
          | .ok [] => return .error (.empty p.agent.name)
          | .ok messages => return .ok messages)
        (t'.call (.agent p.agent.name prepared apis
          (p.toolbox.map Table.keys))) := by
  unfold generate
  rw [bind_apply, h]
  rfl

/-- A prompt is stopped where `resolveApis` is, before its agent is asked. -/
theorem Prompt.generate_of_unresolved {c : Collaborators σ}
    {runTool : Task → Inputs → Execution σ Response} {p : Prompt Task}
    {prepared : Inputs} {stop : Stop} {t t' : Trace σ}
    (h : resolveApis c p.identity.requiredApis t = (.error stop, t')) :
    p.generate c runTool prepared t = (.error stop, t') := by
  unfold generate
  rw [bind_apply, h]

/-- What an agent is heard to say comes out of a conversation with it, and is
something: an empty answer is turned into `Silence`. -/
theorem Prompt.of_generate_ok {c : Collaborators σ}
    {runTool : Task → Inputs → Execution σ Response} {p : Prompt Task}
    {prepared : Inputs} {t t' : Trace σ}
    {answer : Except Silence (List Message)}
    (h : p.generate c runTool prepared t = (.ok answer, t')) :
    (∃ apis t₁ answered,
      resolveApis c p.identity.requiredApis t = (.ok apis, t₁)
      ∧ (c.agent p.agent ⟨prepared, apis, p.toolbox⟩ t₁.world).finish runTool
          (p.toolbox.getD [])
          (t₁.call (.agent p.agent.name prepared apis
            (p.toolbox.map Table.keys)))
        = (.ok answered, t'))
    ∧ ∀ messages, answer = .ok messages → messages ≠ [] := by
  rcases hapis : resolveApis c p.identity.requiredApis t
    with ⟨stop | apis, t₁⟩
  · rw [generate_of_unresolved hapis] at h
    cases h
  · rw [generate_of_resolved hapis] at h
    obtain ⟨answered, t₂, htalk, hanswer⟩ := ok_of_bind h
    -- The agent may refuse, say nothing, or say something; only the last one
    -- answers with messages.
    rcases answered with error | (_ | ⟨message, messages⟩)
    all_goals
      cases hanswer
      refine ⟨⟨apis, t₁, _, rfl, htalk⟩, fun messages hmessages => ?_⟩
      cases hmessages
    exact List.cons_ne_nil _ _

-- =========================================================== workflows

namespace Workflow

variable {c : Collaborators σ}

/-- The response that `Workflow.finish` makes carries the whole history of the
run, whatever its `Outcome`. -/
theorem history_finish {w : Workflow Task} {now : Instant} {run : Run}
    {outcome : Outcome} {given : Inputs} :
    (w.finish now run outcome given).history = some run.history := by
  cases outcome with
  | goesOn => rfl
  | completed => rfl
  | failed obstacle => rfl

/-- A workflow responds by driving a new run to its end; `finish` makes the
response of what the run has come to. -/
theorem of_execute_ok {x : Executor σ} {bound : Nat} {w : Workflow Task}
    {context : Context} {prepared given : Inputs} {t t' : Trace σ}
    {r : Response}
    (h : w.execute c x bound context prepared given t = (.ok r, t')) :
    ∃ outcome run, w.drive c x bound (w.newRun context prepared) t
      = (.ok (outcome, run), t')
      ∧ r = w.finish (c.clock t'.world) run outcome given := by
  unfold execute at h
  rw [bind_apply] at h
  rcases hdrive : w.drive c x bound (w.newRun context prepared) t
    with ⟨stop | ⟨outcome, run⟩, t₁⟩
  · rw [hdrive] at h
    cases h
  · rw [hdrive] at h
    cases h
    exact ⟨outcome, run, rfl, rfl⟩

end Workflow

-- =============================================================== tasks

namespace Task

variable {c : Collaborators σ} {x : Workflow.Executor σ} {bound : Nat}
  {context : Context} {inputs prepared : Inputs}

/-- A task whose schema finds inputs `missing` fails at once, and calls nobody
but the clock. -/
theorem perform_missing {task : Task} {missing : List String}
    (h : task.identity.inputSchema.prepare inputs = .error missing) :
    perform c x bound context task inputs
      = (do return .failure (← c.now) task.identity.header inputs failureCode
              (missingText missing)) := by
  unfold perform
  rw [h]

/-- With its inputs prepared, a prompt asks its agent by `Prompt.execute`. -/
theorem perform_prompt {p : Prompt Task}
    (h : p.identity.inputSchema.prepare inputs = .ok prepared) :
    perform c x bound context (.prompt p) inputs
      = p.execute c (x context) prepared inputs := by
  unfold perform
  rw [show (prompt p).identity.inputSchema.prepare inputs
    = .ok prepared from h]

/-- With its inputs prepared, a check asks its agent and judges the answer by
`Check.execute`. -/
theorem perform_check {k : Check Task}
    (h : k.prompt.identity.inputSchema.prepare inputs = .ok prepared) :
    perform c x bound context (.check k) inputs
      = k.execute c (x context) prepared inputs := by
  unfold perform
  rw [show (check k).identity.inputSchema.prepare inputs
    = .ok prepared from h]

/-- With its inputs prepared, a workflow drives a run by `Workflow.execute`.
The response shows the inputs as they were given, so both go in. -/
theorem perform_workflow {w : Workflow Task}
    (h : w.identity.inputSchema.prepare inputs = .ok prepared) :
    perform c x bound context (.workflow w) inputs
      = w.execute c x bound context prepared inputs := by
  unfold perform
  rw [show (workflow w).identity.inputSchema.prepare inputs
    = .ok prepared from h]

end Task

end TaskRouting
