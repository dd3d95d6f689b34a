import TaskRouting.Proofs.Reach
import TaskRouting.Proofs.RecursionGuard
import TaskRouting.Proofs.Workflow.Circles
/-!
Executions in which every circle pays come to an end.

# Three measures

Whatever tasks are looked up, and whatever agents do with their tools, an
execution is bounded by three things: the guard on recursion bounds how deep
workflows are nested, the budget of retry routes and the names in the routing
table bound each run of a workflow, and the tools of a task are smaller than
the task. The first two take that no workflow goes round a circle of plain
routes, and that none is called as a tool, which is `CirclesPay`.

# One layer

A layer settles if all it starts does. For a task that asks an agent these are
the tools (`Activation.settles_of_tools`), by induction on the conversation;
for a workflow they are the sub-tasks (`Activation.settles_of_subtasks`), with
the bound on the run from the counting of its rounds. By
`Activation.perform_congr` there is nothing else that a layer could start.

# The tree

The measures are used up one inside the other. Tasks that ask an agent end, by
induction on their size (`CirclesPay.settles_of_asks`): among their tools are
no workflows. Workflows end, by induction on the depth that is left
(`CirclesPay.settles_of_workflow`): each sub-task is either of the first kind
or a workflow one deeper, and the guard leaves no room below the limit.

`settles_of_circlesPay` adds what the guard and the counting say anyway: how
deep workflows are nested, and how long their histories get.
-/

namespace TaskRouting

open Execution Relation

variable {σ : Type} {c : Collaborators σ}

-- ===================================================== routes that pay

/-- Some result leads from a name to another one by a plain route. -/
def Workflow.PlainRoute (w : Workflow Task) (name name' : String) : Prop :=
  ∃ code, w.route? name code = some (.plain name')

/-- Without a circle of plain routes there is none to which a run could get. A
circle of `Circles` is made of hops, and each hop is a plain route. -/
theorem Workflow.not_circles {w : Workflow Task}
    (h : ∀ name, ¬ TransGen w.PlainRoute name name) : ¬ w.Circles := by
  rintro ⟨s, -, -, hcircle⟩
  exact h s.2 (TransGen.mono (fun _ _ hop => hop.2) _ _ hcircle)

-- ============================================= tasks that ask an agent

/-- Looking up the APIs of a prompt uses up no bound: it is one call after the
other (`consult_settles`). -/
theorem Prompt.resolveApis_settles {apis : List String} {t : Trace σ} :
    (resolveApis c apis).Settles t := by
  unfold resolveApis
  -- The induction is on the APIs still to be looked up, whichever are known
  -- already.
  generalize ([] : ApiConfigs) = known
  induction apis generalizing known t with
  | nil => exact fun hexhausted => nomatch hexhausted
  | cons api rest ih =>
    rw [List.foldlM_cons]
    refine Settles.bind (Settles.bind consult_settles fun answer t' _ => ?_)
      fun known' t' _ => ih known'
    cases answer with
    | ok config => exact fun hexhausted => nomatch hexhausted
    | error error => exact fun hexhausted => nomatch hexhausted

/-- A conversation ends if all tools do that are called in it. By induction on
the conversation; the tools of the rest are called by the whole of it
(`Calls.later`). -/
theorem Conversation.finish_settles
    {runTool : Task → Inputs → Execution σ Response}
    {tools : List (String × Task)} {talk : Conversation σ} {t : Trace σ}
    (h : ∀ tool given begun, talk.Calls runTool tools tool given begun t →
      (runTool tool given).Settles begun) :
    (talk.finish runTool tools).Settles t := by
  induction talk generalizing t with
  | answer result world => exact fun hexhausted => nomatch hexhausted
  | crash why world => exact fun hexhausted => nomatch hexhausted
  | callTool name inputs world resume ih =>
    refine Settles.congr ?_ (finish_callTool ..)
    refine Settles.bind ?_ fun told t' hheard => ?_
    · unfold hear
      cases hknown : Table.get? tools name with
      | none => exact fun hexhausted => nomatch hexhausted
      | some tool =>
        exact heard_settles_iff.2 (h tool inputs _ (.here hknown rfl))
    · exact ih told t'.world fun tool given begun hcalls =>
        h tool given begun (.later hheard hcalls)

/-- A task that asks an agent ends if all tools do that the agent calls. The
layer is taken apart as in `perform_of_prompt?`, and only the conversation
could use up the bound. -/
theorem Activation.settles_of_tools {a : Activation σ} {p : Prompt Task}
    (hasks : a.task.prompt? = some p)
    (htools : ∀ b, a.CallsTool c (Task.unbounded c) b →
      (Task.unbounded c b.context b.task b.inputs).Settles b.trace) :
    (Task.unbounded c a.context a.task a.inputs).Settles a.trace := by
  obtain ⟨context, task, inputs, t⟩ := a
  have hperform : (Task.perform c (Task.unbounded c) 0 context task
      inputs).Settles t := by
    cases hprepare : task.identity.inputSchema.prepare inputs with
    | error missing =>
      rw [Task.perform_missing hprepare]
      exact fun hexhausted => nomatch hexhausted
    | ok prepared =>
      have haccepts : p.identity.inputSchema.prepare inputs
          = .ok prepared := by
        rw [← hprepare, Task.identity_of_prompt? hasks]
      obtain ⟨conclude, hconclude, hperform⟩ :=
        Task.perform_of_prompt? (c := c) hasks haccepts
      rw [hperform]
      refine Settles.bind ?_ fun answer t' _ =>
        settles_of_ok (hconclude answer t').choose_spec
      rcases hapis : Prompt.resolveApis c p.identity.requiredApis t
        with ⟨stop | apis, t₁⟩
      · intro hexhausted
        rw [Prompt.generate_of_unresolved hapis] at hexhausted
        cases Except.error.inj hexhausted
        exact Prompt.resolveApis_settles (congrArg Prod.fst hapis)
      · refine Settles.congr ?_ (Prompt.generate_of_resolved hapis)
        refine Settles.bind ?_ fun result t' _ => ?_
        · exact Conversation.finish_settles fun tool given begun hcalls =>
            htools _ (.mk hasks haccepts hapis hcalls)
        · rcases result with error | (_ | ⟨message, messages⟩)
          all_goals exact fun hexhausted => nomatch hexhausted
  exact hperform.congr (Task.unbounded_eq_perform hperform)

-- =========================================================== workflows

/-- A workflow ends if it cannot go round a circle and all sub-tasks do that
it runs (`Workflow.settles_of_not_circles`). One that refuses its inputs ends
at once. -/
theorem Activation.settles_of_subtasks {a : Activation σ} {w : Workflow Task}
    (htask : a.task = .workflow w)
    (hcircles : ∀ prepared, a.Enters w prepared → ¬ w.Circles)
    (hsubtasks : ∀ b, a.RunsSubtask c (Task.unbounded c) b →
      (Task.unbounded c b.context b.task b.inputs).Settles b.trace) :
    (Task.unbounded c a.context a.task a.inputs).Settles a.trace := by
  obtain ⟨context, task, inputs, t⟩ := a
  subst htask
  have hperform :
      (Task.perform c (Task.unbounded c)
        (w.maxAttempts.toNat * w.names.length + 1)
        context (.workflow w) inputs).Settles t := by
    cases hprepare : w.identity.inputSchema.prepare inputs with
    | error missing =>
      have hmissing : (Task.workflow w).identity.inputSchema.prepare inputs
          = .error missing := hprepare
      rw [Task.perform_missing hmissing]
      exact fun hexhausted => nomatch hexhausted
    | ok prepared =>
      rw [Task.perform_workflow hprepare]
      refine Settles.bind ?_ fun ended t' _ => fun hexhausted =>
        nomatch hexhausted
      refine Workflow.settles_of_not_circles
        (hcircles prepared ⟨rfl, hprepare⟩) ?_
      -- The bound is that of the counting, so what is left to show are the
      -- sub-tasks.
      exact fun run t₁ name task t₂ passed ready =>
        hsubtasks _ (.mk ⟨rfl, hprepare⟩ passed ready)
  exact hperform.congr (Task.unbounded_eq_perform hperform)

-- ================================================= trees of executions

namespace Activation

/-- Every circle pays in an execution: no workflow that runs within it has a
circle of plain routes, and none is called as a tool. -/
structure CirclesPay (c : Collaborators σ) (root : Activation σ) : Prop where
  acyclic : ∀ a w prepared, Within c root a → a.Enters w prepared →
    ∀ name, ¬ TransGen w.PlainRoute name name
  untooled : ∀ a b w, Within c root a → a.CallsTool c (Task.unbounded c) b →
    b.task ≠ .workflow w

/-- A tool is a smaller task than the one whose agent calls it, since it is a
part of it (`Task.Holds.sizeOf_lt`). -/
theorem CallsTool.sizeOf_lt {execute : Workflow.Executor σ}
    {a b : Activation σ} (h : a.CallsTool c execute b) :
    sizeOf b.task < sizeOf a.task := by
  cases h with
  | mk asks accepts resolved calls =>
    obtain ⟨name, hknown⟩ := calls.known
    exact (Task.Holds.tool asks (Prompt.of_toolbox hknown).2).sizeOf_lt

/-- A task asks an agent or is a workflow. -/
theorem exists_prompt?_or_workflow (task : Task) :
    (∃ p, task.prompt? = some p) ∨ ∃ w, task = .workflow w := by
  cases task with
  | prompt p => exact Or.inl ⟨p, rfl⟩
  | check k => exact Or.inl ⟨k.prompt, rfl⟩
  | workflow w => exact Or.inr ⟨w, rfl⟩

variable {root : Activation σ}

/-- The guard on recursion holds throughout an execution in which no workflow
is called as a tool: `Guarded.within`, where nothing is asked of a tool that
is no workflow. -/
theorem CirclesPay.guarded {cancellable : Bool} {task : Task}
    {inputs : Inputs} {t : Trace σ}
    (h : CirclesPay c ⟨.fresh cancellable, task, inputs, t⟩) :
    ∀ a, Within c ⟨.fresh cancellable, task, inputs, t⟩ a → a.Guarded := by
  refine guarded_of_fresh.within fun a b hwithin hcalls ha =>
    ha.tool hcalls fun _ _ => ?_
  refine Workflow.refusal?_eq_none_iff.2 fun w hw => ?_
  exact absurd hw (h.untooled a b w hwithin hcalls)

/-- Tasks that ask an agent end, since their tools are smaller. By induction
on a bound for the size, because the tools belong to another execution. -/
theorem CirclesPay.settles_of_asks (h : CirclesPay c root) :
    ∀ (size : Nat) (a : Activation σ) (p : Prompt Task), Within c root a →
      a.task.prompt? = some p →
      sizeOf a.task ≤ size →
        (Task.unbounded c a.context a.task a.inputs).Settles a.trace := by
  intro size
  induction size with
  | zero =>
    intro a p hwithin hasks hsize
    refine settles_of_tools hasks fun b hcalls => ?_
    have hlt := hcalls.sizeOf_lt
    omega
  | succ size ih =>
    intro a p hwithin hasks hsize
    refine settles_of_tools hasks fun b hcalls => ?_
    have hlt := hcalls.sizeOf_lt
    rcases exists_prompt?_or_workflow b.task with ⟨p', hasks'⟩ | ⟨w, hw⟩
    · exact ih b p' (.tool hwithin hcalls) hasks' (by omega)
    · exact absurd hw (h.untooled a b w hwithin hcalls)

/-- Workflows end, since each of their sub-tasks is nested one deeper
(`settles_of_subtasks`). By induction on what is left of the depth; with
nothing left no workflow begins to run at all. -/
theorem CirclesPay.settles_of_workflow (h : CirclesPay c root)
    (hguarded : ∀ a, Within c root a → a.Guarded) :
    ∀ (left : Nat) (a : Activation σ) (w : Workflow Task), Within c root a →
      a.task = .workflow w →
      maxCallDepth ≤ a.context.depth + left →
      (Task.unbounded c a.context a.task a.inputs).Settles a.trace := by
  intro left
  induction left with
  | zero =>
    intro a w hwithin htask hdeep
    -- There is no room left in which a workflow could begin to run.
    have hnever : ∀ w' prepared, ¬ a.Enters w' prepared := by
      intro w' prepared hentered
      have hroom := (hguarded a hwithin).room w' prepared hentered
      rw [Context.depth_enter] at hroom
      omega
    refine settles_of_subtasks htask
      (fun prepared hentered => absurd hentered (hnever w prepared))
      fun b hruns => ?_
    cases hruns with
    | mk enters passed ready => exact absurd enters (hnever _ _)
  | succ left ih =>
    intro a w hwithin htask hdeep
    refine settles_of_subtasks htask
      (fun prepared hentered =>
        Workflow.not_circles (h.acyclic a w prepared hwithin hentered))
      fun b hruns => ?_
    have hwithin' : Within c root b := .subtask hwithin hruns
    rcases exists_prompt?_or_workflow b.task with ⟨p, hasks⟩ | ⟨w', hw'⟩
    · exact h.settles_of_asks _ b p hwithin' hasks (Nat.le_refl _)
    · -- One deeper, so one less is left.
      refine ih b w' hwithin' hw' ?_
      cases hruns with
      | @mk w'' prepared run t t' name task enters passed ready =>
        have hcontext : run.context = a.context.enter w''.key :=
          passed.context_eq
        show maxCallDepth ≤ run.context.depth + left
        rw [hcontext, Context.depth_enter]
        omega

/-- The response of a workflow without circles has at most as many responses
in its history as there are names that it can get to, times the attempts that
it is allowed (`Workflow.length_history_le`). -/
theorem historyLength_le {a : Activation σ} {w : Workflow Task} {r : Response}
    {t' : Trace σ} (htask : a.task = .workflow w)
    (hcircles : ∀ prepared, a.Enters w prepared → ¬ w.Circles)
    (hran : Task.unbounded c a.context a.task a.inputs a.trace
      = (.ok r, t')) :
    r.historyLength ≤ w.maxAttempts.toNat * w.names.length := by
  obtain ⟨context, task, inputs, t⟩ := a
  subst htask
  obtain ⟨bound, hperform⟩ :=
    Task.exists_perform_of_unbounded (settles_of_ok hran)
  rw [hran] at hperform
  cases hprepare : w.identity.inputSchema.prepare inputs with
  | error missing =>
    have hmissing : (Task.workflow w).identity.inputSchema.prepare inputs
        = .error missing := hprepare
    rw [Task.perform_missing hmissing] at hperform
    cases hperform
    exact Nat.zero_le _
  | ok prepared =>
    rw [Task.perform_workflow hprepare] at hperform
    obtain ⟨outcome, run, hdrive, rfl⟩ := Workflow.of_execute_ok hperform
    have hlength : run.history.length
        ≤ w.maxAttempts.toNat * w.names.length :=
      Workflow.length_history_le (hcircles prepared ⟨rfl, hprepare⟩) hdrive
    rw [Response.historyLength, Workflow.history_finish]
    exact hlength

/-- An execution in which every circle pays comes to an end. Workflows are
nested in it no deeper than they may be, and the history of each is bounded by
its attempts and its names.

Two measures go down along the tree: the size of the task from an agent to its
tools (`settles_of_asks`), and what is left of the depth from a workflow to
its sub-tasks (`settles_of_workflow`). The guard holds throughout
(`CirclesPay.guarded`). -/
theorem settles_of_circlesPay {cancellable : Bool} {task : Task}
    {inputs : Inputs} {t : Trace σ}
    (h : CirclesPay c ⟨.fresh cancellable, task, inputs, t⟩) :
    (∃ bound,
        (Task.execute c bound (.fresh cancellable) task inputs).Settles t)
      ∧ (∀ a w prepared, Within c ⟨.fresh cancellable, task, inputs, t⟩ a →
          a.Enters w prepared →
          (a.context.enter w.key).depth ≤ maxCallDepth)
      ∧ ∀ a w r t', Within c ⟨.fresh cancellable, task, inputs, t⟩ a →
          a.task = .workflow w →
          Task.unbounded c a.context a.task a.inputs a.trace = (.ok r, t') →
          r.historyLength ≤ w.maxAttempts.toNat * w.names.length := by
  have hguarded := h.guarded
  have hroom : ∀ a w prepared,
      Within c ⟨.fresh cancellable, task, inputs, t⟩ a →
      a.Enters w prepared → (a.context.enter w.key).depth ≤ maxCallDepth :=
    fun a w prepared hwithin hentered =>
      (hguarded a hwithin).room w prepared hentered
  refine ⟨Task.unbounded_settles_iff.1 ?_, hroom,
    fun a w r t' hwithin htask hran => ?_⟩
  · rcases exists_prompt?_or_workflow task with ⟨p, hasks⟩ | ⟨w, hw⟩
    · exact h.settles_of_asks _ _ p .root hasks (Nat.le_refl _)
    · exact h.settles_of_workflow hguarded maxCallDepth _ w .root hw
        (Nat.le_refl _)
  · exact historyLength_le htask
      (fun prepared hentered =>
        Workflow.not_circles (h.acyclic a w prepared hwithin hentered)) hran

-- ============================================= a workflow of two tasks

/-- The relay has a single `PlainRoute`. -/
theorem plainRoute_relay {name name' : String}
    (h : Workflow.relay.PlainRoute name name') :
    name = "first" ∧ name' = "second" := by
  obtain ⟨code, hroute⟩ := h
  by_cases hfirst : name = "first"
  · by_cases hcode : code = 0
    · rw [hfirst, hcode] at hroute
      cases hroute
      exact ⟨hfirst, rfl⟩
    · simp [Workflow.route?, RoutingTable.route?, Workflow.relay, Table.get?,
        hfirst, hcode] at hroute
  · by_cases hsecond : name = "second"
    · by_cases hcode : code = 0
      · rw [hsecond, hcode] at hroute
        cases hroute
      · simp [Workflow.route?, RoutingTable.route?, Workflow.relay,
          Table.get?, hsecond, hcode] at hroute
    · simp [Workflow.route?, RoutingTable.route?, Workflow.relay, Table.get?,
        hfirst, hsecond] at hroute

/-- Of the relay and plain prompts, only the relay begins to run as a
workflow. -/
theorem eq_relay_of_enters {a : Activation σ} {w : Workflow Task}
    {prepared : Inputs}
    (h : a.task = .workflow .relay ∨ ∃ name, a.task = .prompt (.asking name))
    (hentered : a.Enters w prepared) : w = .relay := by
  rcases h with htask | ⟨name, htask⟩
  · cases htask.symm.trans hentered.1
    rfl
  · cases htask.symm.trans hentered.1

/-- Neither the relay nor a plain prompt calls a tool. -/
theorem not_callsTool_of_plain {execute : Workflow.Executor σ}
    {a b : Activation σ} (h : a.task = .workflow .relay
      ∨ ∃ name, a.task = .prompt (.asking name)) :
    ¬ a.CallsTool c execute b := by
  intro hcalls
  cases hcalls with
  | mk asks accepts resolved calls =>
    obtain ⟨name, hknown⟩ := calls.known
    rcases h with htask | ⟨name, htask⟩
    · rw [htask] at asks
      cases asks
    · rw [htask] at asks
      cases asks
      cases hknown

/-- Within an execution of the relay, only the relay and plain prompts are
executed. By induction on the way down the tree; the relay finds a task of its
own or what the lookup answers, and neither calls a tool
(`not_callsTool_of_plain`). -/
theorem task_within_relay {a : Activation Unit}
    (h : Within .echoing ⟨.fresh false, .workflow .relay, [], .start ()⟩ a) :
    a.task = .workflow .relay ∨ ∃ name, a.task = .prompt (.asking name) := by
  induction h with
  | root => exact Or.inl rfl
  | @subtask a b within runs ih =>
    cases runs with
    | @mk w prepared run t t' name task enters passed ready =>
      have hw : w = .relay := eq_relay_of_enters ih enters
      have hfound := ready.found
      rw [hw] at hfound
      refine Or.inr ?_
      by_cases hfirst : name = "first"
      · rw [hfirst] at hfound
        cases hfound
        exact ⟨"first", rfl⟩
      · have hown : Workflow.relay.own? name = none := by
          simp [Workflow.own?, Workflow.relay, Table.get?, hfirst]
        unfold Workflow.find at hfound
        rw [hown] at hfound
        cases hfound
        exact ⟨name, rfl⟩
  | tool within calls ih => exact absurd calls (not_callsTool_of_plain ih)

/-- The relay has no circle of plain routes, and nobody calls it as a tool; so
it comes to an end. -/
theorem relay_settles :
    CirclesPay .echoing ⟨.fresh false, .workflow .relay, [], .start ()⟩
      ∧ ∃ bound, (Task.execute .echoing bound (.fresh false)
          (.workflow .relay) []).Settles (.start ()) := by
  have hpays : CirclesPay .echoing
      ⟨.fresh false, .workflow .relay, [], .start ()⟩ := by
    constructor
    case acyclic =>
      intro a w prepared hwithin hentered name hcircle
      rw [eq_relay_of_enters (task_within_relay hwithin) hentered] at hcircle
      obtain ⟨_, hfrom, -⟩ := TransGen.head'_iff.1 hcircle
      obtain ⟨_, -, hto⟩ := TransGen.tail'_iff.1 hcircle
      have hfirst := (plainRoute_relay hfrom).1
      rw [(plainRoute_relay hto).2] at hfirst
      exact absurd hfirst (by decide)
    case untooled =>
      intro a b w hwithin hcalls
      exact absurd hcalls (not_callsTool_of_plain (task_within_relay hwithin))
  exact ⟨hpays, (settles_of_circlesPay hpays).1⟩

end Activation

end TaskRouting
