import TaskRouting.Proofs.CallTree
/-!
Conditions that executions uphold.

A condition may speak of the trace, which holds all calls made and the world,
and of what has stopped the execution, if anything has. It is upheld by an
execution if it holds at the end wherever it holds at the beginning
(`Execution.Upholds`), and so it is upheld by a sequence if both of its parts
uphold it (`Upholds.bind`).

# What has to be shown

An execution in which agents call no tools calls the lookup, the registry and
agents, and nobody else. `Collaborators.Serve` asks that the first two of
these calls uphold the condition, `Collaborators.Uphold` that all three do;
what they uphold is upheld by every execution (`Task.execute_upholds`),
however deep it goes and however soon it is cut short. So a statement about
whole executions comes down to one about three kinds of calls.

# The two levels

The lemmas are stated for `Serve`, with what agents and sub-tasks do as
hypotheses of their own, since some conditions are upheld only by the agents
and the sub-tasks that an execution really meets. `step_upholds` reads the
cases of `StepsTo`, `drive_upholds` is an induction on the bound along
`Passes`, and `Activation.perform_upholds` puts prompts, checks and runs
together. `execute_upholds` then is the induction on the depth.
-/

namespace TaskRouting

open Execution

variable {σ α β : Type}

/-- What has stopped an execution that has come to this. -/
def Stop.of? : Except Stop α → Option Stop
  | .ok _ => none
  | .error stop => some stop

/-- What stops an execution that gets such an answer: the crash of whoever was
asked, or an error, wrapped in a `Fault`. -/
def Stop.ofAnswer? {ε : Type} (fault : ε → Fault) :
    Except Crash (Except ε α) → Option Stop
  | .error why => some (.crash why)
  | .ok (.error error) => some (.fault (fault error))
  | .ok (.ok _) => none

namespace Execution

/-- Wherever the condition holds with nothing having stopped the execution so
far, it holds of what the execution comes to. -/
def Upholds (P : Option Stop → Trace σ → Prop) (e : Execution σ α) : Prop :=
  ∀ t, P none t → P (Stop.of? (e t).1) (e t).2

variable {P : Option Stop → Trace σ → Prop} {e : Execution σ α}

theorem upholds_pure (a : α) : (pure a : Execution σ α).Upholds P :=
  fun _ h => h

theorem upholds_stop {stop : Stop} (h : ∀ t, P none t → P (some stop) t) :
    (Execution.stop stop : Execution σ α).Upholds P := h

/-- What holds of an execution that ends with a value holds with nothing
having stopped it. -/
theorem Upholds.of_ok {t t' : Trace σ} {a : α} (he : e.Upholds P)
    (h : P none t) (heq : e t = (.ok a, t')) : P none t' := by
  have hends := he t h
  rw [heq] at hends
  exact hends

/-- What holds of an execution that is stopped holds with what has stopped
it. -/
theorem Upholds.of_error {t t' : Trace σ} {stop : Stop} (he : e.Upholds P)
    (h : P none t) (heq : e t = (.error stop, t')) : P (some stop) t' := by
  have hends := he t h
  rw [heq] at hends
  exact hends

/-- A sequence upholds what both of its parts do. Where the first part is
stopped, the sequence is stopped by the same, in the same trace
(`bind_apply`). -/
theorem Upholds.bind {f : α → Execution σ β} (he : e.Upholds P)
    (hf : ∀ a, (f a).Upholds P) : (e >>= f).Upholds P := by
  intro t h
  rw [bind_apply]
  rcases heq : e t with ⟨stop | a, t'⟩
  · exact he.of_error h heq
  · exact hf a t' (he.of_ok h heq)

/-- A fold upholds what each turn of it does: `Upholds.bind`, by induction on
the things that are folded. -/
theorem foldlM_upholds {ι : Type} {go : β → ι → Execution σ β}
    (hgo : ∀ b i, (go b i).Upholds P) (things : List ι) :
    ∀ b, (things.foldlM go b).Upholds P := by
  induction things with
  | nil => exact upholds_pure
  | cons first rest ih =>
    intro b
    rw [List.foldlM_cons]
    exact (hgo b first).bind ih

/-- Asking somebody and going on with the answer, unless it is an error,
upholds what asking does: going on leaves the trace as it is. The three cases
are a crash, an error that becomes a fault, and an answer. -/
theorem consult_upholds {ε : Type} {call : Call}
    {answer : σ → Except Crash (Except ε α) × σ} {fault : ε → Fault}
    {next : Except ε α → Execution σ β}
    (hasked : ∀ t, P none t →
      P (Stop.ofAnswer? fault (answer t.world).1)
        { t.call call with world := (answer t.world).2 })
    (hok : ∀ a t, ∃ b, next (.ok a) t = (.ok b, t))
    (herror : ∀ error t, next (.error error) t
      = (.error (.fault (fault error)), t)) :
    (consult call answer >>= next).Upholds P := by
  intro t h
  have hends := hasked t h
  rw [bind_apply, consult_apply]
  rcases hanswer : answer t.world with ⟨why | error | a, world⟩
  all_goals
    rw [hanswer] at hends
    dsimp only
  · exact hends
  · rw [herror]
    exact hends
  · obtain ⟨b, hb⟩ := hok a { t.call call with world }
    rw [hb]
    exact hends

end Execution

-- =============================================================== calls

/-- The call by which an agent is asked. -/
def Call.ask (agent : Agent) (request : Request) : Call :=
  .agent agent.name request.inputs request.apis (request.tools.map Table.keys)

/-- The condition holds of what a conversation without tools comes to: an
answer, or the crash of the agent. -/
def Conversation.Upholds (P : Option Stop → Trace σ → Prop) (t : Trace σ) :
    Conversation σ → Prop
  | answer _ world => P none { t with world }
  | crash why world => P (some (.crash why)) { t with world }
  | callTool .. => False

variable (c : Collaborators σ) (P : Option Stop → Trace σ → Prop)

/-- The condition is upheld by looking up tasks and APIs, and by being cut
short. -/
structure Collaborators.Serve : Prop where
  exhausted : ∀ t, P none t → P (some .exhausted) t
  lookup : ∀ name t, P none t →
    P (Stop.ofAnswer? .lookup (c.lookup name t.world).1)
      { t.call (.lookup name) with world := (c.lookup name t.world).2 }
  config : ∀ api t, P none t →
    P (Stop.ofAnswer? .api (c.config api t.world).1)
      { t.call (.config api) with world := (c.config api t.world).2 }

/-- The condition is upheld by all calls that executions make (`Serve`, and
asking agents), and by being cut short. -/
structure Collaborators.Uphold : Prop extends c.Serve P where
  agent : ∀ agent request t, P none t →
    (c.agent agent request t.world).Upholds P (t.call (.ask agent request))

/-- An agent is asked in an execution. The APIs of its task have been looked
up until then. -/
structure Activation.Asks (a : Activation σ) (p : Prompt Task)
    (request : Request) (t : Trace σ) : Prop where
  asks : a.task.prompt? = some p
  accepts : p.identity.inputSchema.prepare a.inputs = .ok request.inputs
  resolved : Prompt.resolveApis c p.identity.requiredApis a.trace
    = (.ok request.apis, t)
  tools : request.tools = p.toolbox

-- ========================================================== executions

section Executions

variable {c P}

/-- Resolving APIs upholds what the registry does, one API after the other
(`consult_upholds`). -/
theorem Prompt.resolveApis_upholds (h : c.Serve P) (apis : List String) :
    (resolveApis c apis).Upholds P :=
  foldlM_upholds
    (fun _ api => consult_upholds (h.config api) (fun _ _ => ⟨_, rfl⟩)
      fun _ _ => rfl) apis []

/-- A conversation without tools comes to what the agent says first, so how
tools are run is of no account. -/
theorem Conversation.Upholds.finish {talk : Conversation σ} {t : Trace σ}
    (h : talk.Upholds P t) (runTool : Task → Inputs → Execution σ Response)
    (tools : List (String × Task)) :
    P (Stop.of? (talk.finish runTool tools t).1)
      (talk.finish runTool tools t).2 := by
  cases talk with
  | answer result world => exact h
  | crash why world => exact h
  | callTool name inputs world resume => cases h

/-- A prompt upholds the condition if its agent does, when it is asked with
the APIs that have been resolved (`resolveApis_upholds`). -/
theorem Prompt.generate_upholds (h : c.Serve P)
    (runTool : Task → Inputs → Execution σ Response) {p : Prompt Task}
    {prepared : Inputs} {t : Trace σ} (ht : P none t)
    (hagent : ∀ apis t', resolveApis c p.identity.requiredApis t
      = (.ok apis, t') → P none t' →
      (c.agent p.agent ⟨prepared, apis, p.toolbox⟩ t'.world).Upholds P
        (t'.call (.ask p.agent ⟨prepared, apis, p.toolbox⟩))) :
    P (Stop.of? (p.generate c runTool prepared t).1)
      (p.generate c runTool prepared t).2 := by
  have hresolve := resolveApis_upholds h p.identity.requiredApis
  rcases hapis : resolveApis c p.identity.requiredApis t
    with ⟨stop | apis, t₁⟩
  · rw [generate_of_unresolved hapis]
    exact hresolve.of_error ht hapis
  · have htalk := (hagent apis t₁ hapis (hresolve.of_ok ht hapis)).finish
      runTool (p.toolbox.getD [])
    rw [generate_of_resolved hapis, bind_apply]
    rcases hends :
      (c.agent p.agent ⟨prepared, apis, p.toolbox⟩ t₁.world).finish runTool
      (p.toolbox.getD []) (t₁.call (.ask p.agent ⟨prepared, apis, p.toolbox⟩))
      with ⟨stop | answer, t₂⟩
    all_goals
      rw [hends] at htalk
      unfold Call.ask at hends
      rw [hends]
    · exact htalk
    · rcases answer with error | (_ | ⟨message, messages⟩)
      all_goals exact htalk

namespace Workflow

variable {w : Workflow Task} {x : Executor σ}

/-- Finding the task of a name upholds what the lookup does
(`consult_upholds`); one of the workflow's own is found without asking. -/
theorem find_upholds (h : c.Serve P) {name : String} :
    (w.find c name).Upholds P := by
  unfold find
  cases w.own? name with
  | some task => exact upholds_pure _
  | none =>
    exact consult_upholds (h.lookup name) (fun found _ => ⟨found, rfl⟩)
      fun _ _ => rfl

/-- A step upholds the condition if the task that it runs does. Every case of
`StepsTo` ends in the trace of the lookup or in that of the task. -/
theorem step_upholds (h : c.Serve P) {run : Run} {t : Trace σ}
    (hx : ∀ name task t', w.Ready c run t name task t' → P none t' →
      P (Stop.of? (x run.context task (run.inputsFor task) t').1)
        (x run.context task (run.inputsFor task) t').2)
    (ht : P none t) :
    P (Stop.of? (w.step c x run t).result) (w.step c x run t).trace := by
  have hcases : w.StepsTo c x run t (w.step c x run t) := step_stepsTo run t
  generalize w.step c x run t = stepped at hcases
  cases hcases with
  | completed current => exact ht
  | cancelled current cancelled => exact ht
  | attempts current going spent => exact ht
  | lookupStopped current going budget stopped =>
    exact (find_upholds h).of_error ht stopped
  | unresolvable current going budget unknown =>
    exact (find_upholds h).of_ok ht unknown
  | refused current going budget found refused =>
    exact (find_upholds h).of_ok ht found
  | taskStopped ready stopped =>
    have hran := hx _ _ _ ready ((find_upholds h).of_ok ht ready.found)
    rw [stopped] at hran
    exact hran
  | unrouted ready ran unrouted =>
    have hran := hx _ _ _ ready ((find_upholds h).of_ok ht ready.found)
    rw [ran] at hran
    exact hran
  | routed ready ran routed =>
    have hran := hx _ _ _ ready ((find_upholds h).of_ok ht ready.found)
    rw [ran] at hran
    exact hran

/-- A driven run upholds the condition if the tasks do that it runs: those in
the runs that it `Passes`, so that facts about its run are at hand for
each. -/
theorem drive_upholds (h : c.Serve P) (bound : Nat) :
    ∀ {run : Run} {t : Trace σ},
      (∀ run' t₁ name task t', w.Passes c x run t run' t₁ →
        w.Ready c run' t₁ name task t' →
        P none t' →
        P (Stop.of? (x run'.context task (run'.inputsFor task) t').1)
          (x run'.context task (run'.inputsFor task) t').2) →
      P none t → P (Stop.of? (w.drive c x bound run t).1)
        (w.drive c x bound run t).2 := by
  induction bound with
  | zero => exact fun _ ht => h.exhausted _ ht
  | succ bound ih =>
    intro run t hx ht
    have hstep := step_upholds h (hx run t · · · .start) ht
    unfold drive
    rcases heq : w.step c x run t with ⟨stop | (_ | _ | obstacle), run', t'⟩
    all_goals rw [heq] at hstep
    · exact hstep
    · exact ih (fun run'' t₁ name task t₂ passed =>
        hx run'' t₁ name task t₂ (passed.after heq)) hstep
    · exact hstep
    · exact hstep

end Workflow

/-- One layer of an execution upholds the condition if the agent does that it
asks (`Asks`), and the sub-tasks do that it runs (`RunsSubtask`). -/
theorem Activation.perform_upholds (h : c.Serve P) {x : Workflow.Executor σ}
    {bound : Nat} {a : Activation σ} (ha : P none a.trace)
    (hagent : ∀ p request t, a.Asks c p request t → P none t →
      (c.agent p.agent request t.world).Upholds P
        (t.call (.ask p.agent request)))
    (hsubtasks : ∀ b, a.RunsSubtask c x b → P none b.trace →
      P (Stop.of? (x b.context b.task b.inputs b.trace).1)
        (x b.context b.task b.inputs b.trace).2) :
    P (Stop.of? (Task.perform c x bound a.context a.task a.inputs a.trace).1)
      (Task.perform c x bound a.context a.task a.inputs a.trace).2 := by
  obtain ⟨context, task, inputs, t⟩ := a
  dsimp only at ha ⊢
  cases hprepare : task.identity.inputSchema.prepare inputs with
  | error missing =>
    rw [Task.perform_missing hprepare]
    exact ha
  | ok prepared =>
    cases hasks : task.prompt? with
    | some p =>
      have haccepts : p.identity.inputSchema.prepare inputs
          = .ok prepared := by
        rw [← hprepare, Task.identity_of_prompt? hasks]
      obtain ⟨conclude, hconclude, hperform⟩ :=
        Task.perform_of_prompt? (c := c) hasks haccepts
      have hsaid := Prompt.generate_upholds h (x context) ha
        fun apis t' hapis =>
          hagent p ⟨prepared, apis, p.toolbox⟩ t'
            ⟨hasks, haccepts, hapis, rfl⟩
      rw [hperform, bind_apply]
      rcases heq : p.generate c (x context) prepared t
        with ⟨stop | answer, t₁⟩
      all_goals rw [heq] at hsaid
      · exact hsaid
      · obtain ⟨response, hresponse⟩ := hconclude answer t₁
        dsimp only
        rw [hresponse]
        exact hsaid
    | none =>
      cases task with
      | prompt p => cases hasks
      | check k => cases hasks
      | workflow w =>
        have hdrive :
            P (Stop.of? (w.drive c x bound (w.newRun context prepared) t).1)
              (w.drive c x bound (w.newRun context prepared) t).2 :=
          Workflow.drive_upholds h bound
            (fun run t₁ name task t' passed ready =>
              hsubtasks _ (.mk ⟨rfl, hprepare⟩ passed ready)) ha
        rw [Task.perform_workflow hprepare]
        unfold Workflow.execute
        rw [bind_apply]
        rcases heq : w.drive c x bound (w.newRun context prepared) t
          with ⟨stop | ended, t₁⟩
        all_goals
          rw [heq] at hdrive
          exact hdrive

/-- What all calls uphold is upheld by every execution: by induction on the
bound, with `Activation.perform_upholds` for the step. -/
theorem Task.execute_upholds (h : c.Uphold P) :
    ∀ {bound : Nat} {context : Context} {task : Task} {inputs : Inputs},
      (execute c bound context task inputs).Upholds P := by
  intro bound
  induction bound with
  | zero => exact upholds_stop h.exhausted
  | succ bound ih =>
    intro context task inputs t ht
    exact Activation.perform_upholds (a := ⟨context, task, inputs, t⟩)
      h.toServe ht (fun p request t' _ => h.agent p.agent request t')
      fun b _ => ih b.trace

end Executions

end TaskRouting
