import TaskRouting.Proofs.Watching
import TaskRouting.Proofs.Workflow.TableWalk
/-!
What a task may respond.

# Forms of responses

A response is signed with the names of its task and with the inputs that the
task was given, and its status is that of its result code (`Deed.Signed`).
What else it says depends on the kind of task: a prompt says what its agent
has said (`Speaks`), a check judges it (`JudgedBy`), a workflow keeps the
history of its run and repeats the outputs of the last task in it (`Keeps`,
`Completes`), and any of them may fail instead (`Fails`). Usage is that of the
response's own messages (`Alone`), or else that of its history.
`Deed.WellFormed` lists these forms, one constructor for each way in which a
kind of task can end.

# What tasks respond

Responses are made in two places, so that their fields are looked at twice
only: `completed` makes those of prompts, checks and refusals
(`signed_completed`, `completed_alone`), and `finish` those of workflows
(`signed_finish`, `finish_keeps`). Each kind of task then has one lemma, and
`Task.perform_wellFormed` puts them together. That a workflow which completes
has a last response is read off the walk of its run (`walks_of_drive`), which
ends with a leg.
-/

namespace TaskRouting

open Execution

variable {σ : Type}

-- ================================================== forms of responses

namespace Response

/-- A response without a history, which reports the `Usage.sum` of its own
messages. -/
structure Alone (r : Response) : Prop where
  history : r.history = none
  usage : r.usage = Usage.sum ((r.outputs.getD []).map Message.usage)

/-- A response with a history, which reports the `Usage.sum` of that. -/
structure Keeps (r : Response) (entries : List Response) : Prop where
  history : r.history = some entries
  usage : r.usage = Usage.sum (entries.map Response.usage)

/-- A failure: its code is 1, and it says why instead of having outputs. -/
structure Fails (r : Response) : Prop where
  code : r.code = 1
  outputs : r.outputs = none
  diagnostic : ∃ why, r.diagnostic = some why

/-- A success with something to say. -/
structure Speaks (r : Response) : Prop where
  code : r.code = 0
  outputs : ∃ messages, r.outputs = some messages ∧ messages ≠ []
  diagnostic : r.diagnostic = none

/-- The outputs are judged by their last message. -/
def JudgedBy (r : Response) (k : Check Task) : Prop :=
  ∃ messages last, r.outputs = some messages ∧ messages.getLast? = some last
    ∧ (r.code, r.diagnostic) = k.judge last.content

/-- A success with the outputs of the last response in the history. -/
structure Completes (r : Response) (history : List Response) : Prop where
  code : r.code = 0
  diagnostic : r.diagnostic = none
  outputs : ∃ last, history.getLast? = some last ∧ r.outputs = last.outputs

end Response

namespace Deed

/-- A response shows which task it comes from, what the task was given, and
how it went. -/
structure Signed (d : Deed) : Prop where
  key : d.response.header.taskId = d.task.identity.key
  name : d.response.header.taskName = d.task.identity.name
  description : d.response.header.taskDescription
    = d.task.identity.description
  inputs : d.response.inputs = d.inputs
  status : d.response.status
    = if d.response.code = 0 then .success else .failed

/-- The forms that the response of a task may have. -/
inductive WellFormed : Deed → Prop where
  | prompt {p : Prompt Task} {inputs : Inputs} {r : Response}
      (signed : Signed ⟨.prompt p, inputs, r⟩) (alone : r.Alone)
      (ends : r.Fails ∨ r.Speaks) : WellFormed ⟨.prompt p, inputs, r⟩
  | check {k : Check Task} {inputs : Inputs} {r : Response}
      (signed : Signed ⟨.check k, inputs, r⟩) (alone : r.Alone)
      (ends : r.Fails ∨ r.JudgedBy k) : WellFormed ⟨.check k, inputs, r⟩
  | refused {w : Workflow Task} {inputs : Inputs} {r : Response}
      {missing : List String} (signed : Signed ⟨.workflow w, inputs, r⟩)
      (refuses : w.identity.inputSchema.prepare inputs = .error missing)
      (alone : r.Alone) (fails : r.Fails) :
      WellFormed ⟨.workflow w, inputs, r⟩
  | ran {w : Workflow Task} {inputs prepared : Inputs} {r : Response}
      {history : List Response} (signed : Signed ⟨.workflow w, inputs, r⟩)
      (accepts : w.identity.inputSchema.prepare inputs = .ok prepared)
      (kept : r.Keeps history) (ends : r.Fails ∨ r.Completes history) :
      WellFormed ⟨.workflow w, inputs, r⟩

/-- Whatever its form, a response is signed. -/
theorem WellFormed.signed {d : Deed} (h : d.WellFormed) : d.Signed := by
  cases h with
  | prompt signed _ _ => exact signed
  | check signed _ _ => exact signed
  | refused signed _ _ _ => exact signed
  | ran signed _ _ _ => exact signed

/-- Only a workflow that has run has a history: the case `ran` of `WellFormed`
is the only one that `Keeps` anything. -/
theorem WellFormed.history_eq_none {d : Deed} {p : Prompt Task}
    (h : d.WellFormed) (hasks : d.task.prompt? = some p) :
    d.response.history = none := by
  cases h with
  | prompt _ alone _ => exact alone.history
  | check _ alone _ => exact alone.history
  | refused => cases hasks
  | ran => cases hasks

end Deed

-- ================================================== what tasks respond

section Records

variable {now : Instant} {header : Header} {inputs : Inputs} {code : UInt32}
  {outputs : Option (List Message)} {diagnostic : Option String}

/-- What `Response.completed` makes of what a task has come to is signed. -/
theorem Deed.signed_completed {task : Task} :
    Signed ⟨task, inputs, .completed now task.identity.header inputs code
      outputs diagnostic⟩ :=
  ⟨rfl, rfl, rfl, rfl, rfl⟩

theorem Response.completed_alone :
    (Response.completed now header inputs code outputs diagnostic).Alone := by
  cases outputs with
  | none => exact ⟨rfl, rfl⟩
  | some messages => exact ⟨rfl, rfl⟩

theorem Response.failure_fails {why : String} :
    (Response.failure now header inputs failureCode why).Fails :=
  ⟨rfl, rfl, why, rfl⟩

theorem Deed.signed_finish {w : Workflow Task} {run : Run}
    {outcome : Outcome} :
    Signed ⟨.workflow w, inputs, w.finish now run outcome inputs⟩ := by
  cases outcome with
  | goesOn => exact ⟨rfl, rfl, rfl, rfl, rfl⟩
  | completed => exact ⟨rfl, rfl, rfl, rfl, rfl⟩
  | failed obstacle => exact ⟨rfl, rfl, rfl, rfl, rfl⟩

/-- Whatever the outcome, `Workflow.finish` gives the response the history of
the run. -/
theorem Workflow.finish_keeps {w : Workflow Task} {run : Run}
    {outcome : Outcome} :
    (w.finish now run outcome inputs).Keeps run.history := by
  cases outcome with
  | goesOn => exact ⟨rfl, rfl⟩
  | completed => exact ⟨rfl, rfl⟩
  | failed obstacle => exact ⟨rfl, rfl⟩

end Records

section Forms

open Deed Response

variable {c : Collaborators σ} {inputs prepared : Inputs} {t t' : Trace σ}
  {r : Response}

/-- A prompt fails, or says what its agent has said, which is something
(`of_generate_ok`). -/
theorem Prompt.wellFormed_of_execute
    {runTool : Task → Inputs → Execution σ Response} {p : Prompt Task}
    (h : p.execute c runTool prepared inputs t = (.ok r, t')) :
    Deed.WellFormed ⟨.prompt p, inputs, r⟩ := by
  obtain ⟨answer, t₁, hanswer, hends⟩ := ok_of_bind h
  obtain ⟨-, hmessages⟩ := of_generate_ok hanswer
  cases answer with
  | error why =>
    cases hends
    exact .prompt signed_completed completed_alone (Or.inl failure_fails)
  | ok messages =>
    cases hends
    exact .prompt signed_completed completed_alone
      (Or.inr ⟨rfl, ⟨messages, rfl, hmessages messages rfl⟩, rfl⟩)

/-- A check fails, or is `JudgedBy` the last message of its agent, of which
there is one (`Prompt.of_generate_ok`). -/
theorem Check.wellFormed_of_execute
    {runTool : Task → Inputs → Execution σ Response} {k : Check Task}
    (h : k.execute c runTool prepared inputs t = (.ok r, t')) :
    Deed.WellFormed ⟨.check k, inputs, r⟩ := by
  obtain ⟨answer, t₁, hanswer, hends⟩ := ok_of_bind h
  obtain ⟨-, hmessages⟩ := Prompt.of_generate_ok hanswer
  cases answer with
  | error why =>
    cases hends
    exact .check signed_completed completed_alone (Or.inl failure_fails)
  | ok messages =>
    cases hends
    have hlast := List.getLast?_eq_some_getLast (hmessages messages rfl)
    refine .check signed_completed completed_alone
      (Or.inr ⟨messages, _, rfl, hlast, ?_⟩)
    rw [hlast]
    rfl

/-- A workflow keeps its history, and fails or repeats the last outputs in it.
A run that completes has walked to an end route (`walks_of_drive`), so some
task has responded last. -/
theorem Workflow.wellFormed_of_execute {x : Executor σ} {bound : Nat}
    {w : Workflow Task} {context : Context}
    (haccepts : w.identity.inputSchema.prepare inputs = .ok prepared)
    (h : w.execute c x bound context prepared inputs t = (.ok r, t')) :
    Deed.WellFormed ⟨.workflow w, inputs, r⟩ := by
  obtain ⟨outcome, run, hdrive, rfl⟩ := of_execute_ok h
  obtain ⟨legs, environment, tₗ, -, hhistory, hends⟩ := walks_of_drive hdrive
  rcases hends with ⟨rfl, ⟨leg, -, hleg, -, -⟩, -⟩ | ⟨obstacle, rfl, -, -⟩
  · -- A run completes only after some task has responded, so there is a last
    -- response.
    have hlast : run.history.getLast? = some leg.response := by
      rw [hhistory, List.getLast?_map, hleg]
      rfl
    refine .ran signed_finish haccepts finish_keeps
      (Or.inr ⟨rfl, rfl, leg.response, hlast, ?_⟩)
    rw [Run.history, List.getLast?_reverse] at hlast
    show run.past.head?.bind (·.outputs) = leg.response.outputs
    rw [hlast]
    rfl
  · exact .ran signed_finish haccepts finish_keeps (Or.inl ⟨rfl, rfl, _, rfl⟩)

/-- Whatever a task responds is `WellFormed`. One case for each kind of task,
with its inputs refused or accepted. -/
theorem Task.perform_wellFormed {x : Workflow.Executor σ} {bound : Nat}
    {context : Context} {task : Task}
    (h : perform c x bound context task inputs t = (.ok r, t')) :
    Deed.WellFormed ⟨task, inputs, r⟩ := by
  cases hprepare : task.identity.inputSchema.prepare inputs with
  | error missing =>
    rw [perform_missing hprepare] at h
    cases h
    cases task with
    | prompt p =>
      exact .prompt signed_completed completed_alone (Or.inl failure_fails)
    | check k =>
      exact .check signed_completed completed_alone (Or.inl failure_fails)
    | workflow w =>
      exact .refused signed_completed hprepare completed_alone failure_fails
  | ok prepared =>
    cases task with
    | prompt p =>
      rw [perform_prompt hprepare] at h
      exact p.wellFormed_of_execute h
    | check k =>
      rw [perform_check hprepare] at h
      exact k.wellFormed_of_execute h
    | workflow w =>
      rw [perform_workflow hprepare] at h
      exact w.wellFormed_of_execute hprepare h

end Forms

end TaskRouting
