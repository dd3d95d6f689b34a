import TaskRouting.Proofs.Bound
/-!
Which executions an execution starts.

A workflow runs its sub-tasks, and the agent of a prompt or of a check calls
tools. Each of these is an execution of a task of its own (`Activation`), so
an execution without a bound is the root of a tree, `Activation.Within`, which
need not be finite. Statements about everything that happens in an execution
(how deep it nests, what it starts after it has been cancelled, which tasks it
may run) quantify over this tree.

# The two kinds of branches

`RunsSubtask` follows a run: a workflow that `Enters` passes through runs, and
one that is `Ready` runs a task on the inputs that it selects. `CallsTool`
follows a conversation: `Conversation.Calls` walks down it, answering each
tool call before the one that is meant with what is `hear`d of it.

# Nothing is left out

A tree of executions would be of little use if an execution could start one
that is not in it. `Activation.perform_congr` excludes that: two ways of
executing tasks that agree on what an execution starts, by `RunsSubtask` or by
`CallsTool`, agree on the execution itself. So whatever runs in an execution
and bears on it is a branch of the tree. The proof puts together
`Conversation.finish_congr`, by induction on the conversation,
`Workflow.drive_congr`, by induction on the bound, and `perform_of_prompt?`,
by which prompts and checks are one case.
-/

namespace TaskRouting

open Execution

variable {σ : Type}

/-- One execution of a task: where it takes place, what it is given, and the
trace with which it begins. -/
structure Activation (σ : Type) where
  context : Context
  task : Task
  inputs : Inputs
  trace : Trace σ

/-- The prompt with which a task asks an agent. -/
def Task.prompt? : Task → Option (Prompt Task)
  | .prompt p => some p
  | .check k => some k.prompt
  | .workflow _ => none

/-- A task that asks an agent has the identity of the prompt with which it
asks. -/
theorem Task.identity_of_prompt? {task : Task} {p : Prompt Task}
    (h : task.prompt? = some p) : task.identity = p.identity := by
  cases task with
  | prompt p' =>
    cases h
    rfl
  | check k =>
    cases h
    rfl
  | workflow w => cases h

/-- A tool in the `toolbox` of an agent is one that it may call. -/
theorem Prompt.of_toolbox {p : Prompt Task} {name : String} {tool : Task}
    (h : Table.get? (p.toolbox.getD []) name = some tool) :
    p.capabilities.hasFunctions = true ∧ (name, tool) ∈ p.tools := by
  unfold toolbox at h
  by_cases hmay : (p.capabilities.hasFunctions && p.agent.usesTools) = true
  · rw [if_pos hmay] at h
    exact ⟨(Bool.and_eq_true_iff.1 hmay).1, Table.mem_of_get? h⟩
  · rw [if_neg hmay] at h
    cases h

/-- The tools that are called in a conversation, each with its inputs and with
the trace at which it is run. -/
inductive Conversation.Calls (runTool : Task → Inputs → Execution σ Response)
    (tools : List (String × Task)) (tool : Task) (given : Inputs)
    (begun : Trace σ) : Conversation σ → Trace σ → Prop where
  | here {name : String} {world : σ}
      {resume : Except Fault (Option Response) → σ → Conversation σ}
      {t : Trace σ} (known : Table.get? tools name = some tool)
      (now : begun = { t with world }) :
      Calls runTool tools tool given begun
        (.callTool name given world resume) t
  | later {name : String} {inputs : Inputs} {world : σ}
      {resume : Except Fault (Option Response) → σ → Conversation σ}
      {t t' : Trace σ} {told : Except Fault (Option Response)}
      (heard : Conversation.hear runTool tools name inputs { t with world }
        = (.ok told, t'))
      (calls : Calls runTool tools tool given begun
        (resume told t'.world) t') :
      Calls runTool tools tool given begun
        (.callTool name inputs world resume) t

/-- A tool that is called in a conversation is one of those at hand. By
induction on `Calls`. -/
theorem Conversation.Calls.known
    {runTool : Task → Inputs → Execution σ Response}
    {tools : List (String × Task)} {tool : Task} {given : Inputs}
    {begun t : Trace σ} {talk : Conversation σ}
    (h : talk.Calls runTool tools tool given begun t) :
    ∃ name, Table.get? tools name = some tool := by
  induction h with
  | here known => exact ⟨_, known⟩
  | later _ _ ih => exact ih

namespace Activation

variable (c : Collaborators σ) (execute : Workflow.Executor σ)

/-- A workflow begins to run, on inputs with their defaults filled in. -/
def Enters (a : Activation σ) (w : Workflow Task) (prepared : Inputs) :
    Prop :=
  a.task = .workflow w ∧ w.identity.inputSchema.prepare a.inputs
    = .ok prepared

/-- A workflow runs a sub-task. -/
inductive RunsSubtask (a : Activation σ) : Activation σ → Prop where
  | mk {w : Workflow Task} {prepared : Inputs} {run : Run} {t t' : Trace σ}
      {name : String} {task : Task} (enters : a.Enters w prepared)
      (passed : w.Passes c execute (w.newRun a.context prepared)
        a.trace run t)
      (ready : w.Ready c run t name task t') :
      RunsSubtask a ⟨run.context, task, run.inputsFor task, t'⟩

/-- The agent that a task asks calls a tool. -/
inductive CallsTool (a : Activation σ) : Activation σ → Prop where
  | mk {p : Prompt Task} {prepared given : Inputs} {apis : ApiConfigs}
      {t t' : Trace σ} {tool : Task} (asks : a.task.prompt? = some p)
      (accepts : p.identity.inputSchema.prepare a.inputs = .ok prepared)
      (resolved : Prompt.resolveApis c p.identity.requiredApis a.trace
        = (.ok apis, t))
      (calls : Conversation.Calls (execute a.context)
        (p.toolbox.getD []) tool given t'
        (c.agent p.agent ⟨prepared, apis, p.toolbox⟩ t.world)
        (t.call (.agent p.agent.name prepared apis
          (p.toolbox.map Table.keys)))) :
      CallsTool a ⟨a.context, tool, given, t'⟩

/-- The executions within an execution that has no bound: what it starts, what
that starts, and so on. By `Activation.perform_congr` an execution depends on
no other executions than these. -/
inductive Within (root : Activation σ) : Activation σ → Prop where
  | root : Within root root
  | subtask {a b : Activation σ} (within : Within root a)
      (runs : a.RunsSubtask c (Task.unbounded c) b) : Within root b
  | tool {a b : Activation σ} (within : Within root a)
      (calls : a.CallsTool c (Task.unbounded c) b) : Within root b

end Activation

-- ================================================= nothing is left out

section Congruence

variable {c : Collaborators σ}

/-- A conversation depends on how tools are run only through the tools that
are called in it. By induction on the conversation: the tool that is called
here is run the same way, so the same is heard of it, and the rest is a
conversation in which fewer tools are called. -/
theorem Conversation.finish_congr {x y : Task → Inputs → Execution σ Response}
    {tools : List (String × Task)} {talk : Conversation σ} {t : Trace σ}
    (h : ∀ tool given t', talk.Calls x tools tool given t' t →
      y tool given t' = x tool given t') :
    talk.finish y tools t = talk.finish x tools t := by
  induction talk generalizing t with
  | answer result world => rfl
  | crash why world => rfl
  | callTool name inputs world resume ih =>
    have hhear : hear y tools name inputs { t with world }
        = hear x tools name inputs { t with world } := by
      unfold hear
      cases hknown : Table.get? tools name with
      | none => rfl
      | some tool =>
        dsimp only
        unfold heard
        rw [h tool inputs _ (.here hknown rfl)]
    rw [finish_callTool, finish_callTool, bind_apply, bind_apply, hhear]
    -- What is called after this tool is called in the conversation that goes
    -- on with what has been heard.
    rcases hheard : hear x tools name inputs { t with world }
      with ⟨stop | told, t'⟩
    · rfl
    · exact ih told t'.world fun tool given begun hcalls =>
        h tool given begun (.later hheard hcalls)

/-- A driven run depends on how tasks are executed only through the tasks that
it runs. By induction on the bound: the first step is the same (`step_congr`),
and what is run after it is run in the whole drive (`Passes.after`). -/
theorem Workflow.drive_congr {x y : Executor σ} {w : Workflow Task} :
    ∀ {bound : Nat} {run : Run} {t : Trace σ},
      (∀ run' t₁ name task t₂, w.Passes c x run t run' t₁ →
        w.Ready c run' t₁ name task t₂ →
        y run'.context task (run'.inputsFor task) t₂
          = x run'.context task (run'.inputsFor task) t₂) →
      w.drive c y bound run t = w.drive c x bound run t := by
  intro bound
  induction bound with
  | zero => intro run t _; rfl
  | succ bound ih =>
    intro run t h
    have hstep : w.step c y run t = w.step c x run t :=
      step_congr fun name task t' ready => h run t name task t' .start ready
    unfold drive
    rw [hstep]
    rcases heq : w.step c x run t with ⟨stop | (_ | _ | obstacle), run', t'⟩
    · rfl
    · exact ih fun run'' t₁ name task t₂ passed ready =>
        h run'' t₁ name task t₂ (passed.after heq) ready
    · rfl
    · rfl

/-- A task that asks an agent makes a response of the answer, whatever that
is, and calls nobody for it. That has nothing to do with its tools, so
`generate` is all that depends on how they are executed. -/
theorem Task.perform_of_prompt? {task : Task} {p : Prompt Task}
    {inputs prepared : Inputs} (hasks : task.prompt? = some p)
    (haccepts : p.identity.inputSchema.prepare inputs = .ok prepared) :
    ∃ conclude : Except Silence (List Message) → Execution σ Response,
      (∀ answer t, ∃ response, conclude answer t = (.ok response, t))
      ∧ ∀ (x : Workflow.Executor σ) bound context,
          perform c x bound context task inputs
            = p.generate c (x context) prepared >>= conclude := by
  cases task with
  | prompt p' =>
    cases hasks
    refine ⟨_, ?_, fun x bound context => perform_prompt haccepts⟩
    intro answer t
    cases answer with
    | error why => exact ⟨_, rfl⟩
    | ok messages => exact ⟨_, rfl⟩
  | check k =>
    cases hasks
    refine ⟨_, ?_, fun x bound context => perform_check haccepts⟩
    intro answer t
    cases answer with
    | error why => exact ⟨_, rfl⟩
    | ok messages => exact ⟨_, rfl⟩
  | workflow w => cases hasks

/-- What an execution does depends on nothing but on what the executions do
that it starts, so the tree of `Within` leaves nothing out. The cases are
those of `perform`: inputs that are missing, an agent that is asked, and a
run. -/
theorem Activation.perform_congr {x y : Workflow.Executor σ}
    {a : Activation σ} {bound : Nat}
    (hsubtasks : ∀ b, a.RunsSubtask c x b →
      y b.context b.task b.inputs b.trace
        = x b.context b.task b.inputs b.trace)
    (htools : ∀ b, a.CallsTool c x b →
      y b.context b.task b.inputs b.trace
        = x b.context b.task b.inputs b.trace) :
    Task.perform c y bound a.context a.task a.inputs a.trace
      = Task.perform c x bound a.context a.task a.inputs a.trace := by
  obtain ⟨context, task, inputs, t⟩ := a
  show Task.perform c y bound context task inputs t
      = Task.perform c x bound context task inputs t
  cases hprepare : task.identity.inputSchema.prepare inputs with
  | error missing =>
    rw [Task.perform_missing hprepare, Task.perform_missing hprepare]
  | ok prepared =>
    cases hasks : task.prompt? with
    | some p =>
      have haccepts : p.identity.inputSchema.prepare inputs
          = .ok prepared := by
        rw [← hprepare, Task.identity_of_prompt? hasks]
      obtain ⟨conclude, -, hperform⟩ :=
        Task.perform_of_prompt? (c := c) hasks haccepts
      rw [hperform, hperform, bind_apply, bind_apply]
      rcases hapis : Prompt.resolveApis c p.identity.requiredApis t
        with ⟨stop | apis, t₁⟩
      · rw [Prompt.generate_of_unresolved hapis,
          Prompt.generate_of_unresolved hapis]
      · have htalk :
            (c.agent p.agent ⟨prepared, apis, p.toolbox⟩ t₁.world).finish
                (y context) (p.toolbox.getD [])
                (t₁.call (.agent p.agent.name prepared apis
                  (p.toolbox.map Table.keys)))
              = (c.agent p.agent ⟨prepared, apis, p.toolbox⟩ t₁.world).finish
                (x context) (p.toolbox.getD [])
                (t₁.call (.agent p.agent.name prepared apis
                  (p.toolbox.map Table.keys))) :=
          Conversation.finish_congr fun tool given begun hcalls =>
            htools _ (.mk hasks haccepts hapis hcalls)
        rw [Prompt.generate_of_resolved hapis,
          Prompt.generate_of_resolved hapis, bind_apply, bind_apply, htalk]
    | none =>
      cases task with
      | prompt p => cases hasks
      | check k => cases hasks
      | workflow w =>
        have hdrive : w.drive c y bound (w.newRun context prepared) t
            = w.drive c x bound (w.newRun context prepared) t :=
          Workflow.drive_congr fun run t₁ name task t₂ passed ready =>
            hsubtasks _ (.mk ⟨rfl, hprepare⟩ passed ready)
        rw [Task.perform_workflow hprepare, Task.perform_workflow hprepare,
          Workflow.execute, Workflow.execute, bind_apply, bind_apply, hdrive]

end Congruence

end TaskRouting
