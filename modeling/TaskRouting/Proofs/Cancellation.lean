import TaskRouting.Proofs.Chronicle
import TaskRouting.Proofs.RecursionGuard
import TaskRouting.Proofs.Upholding
/-!
Executions that are asked to stop.

# Where it is noticed

A run looks whether it has been asked to stop before each step, and nowhere
else. So an agent that is under way then may finish, and the tasks around it
respond one after the other: each workflow takes the route for the response,
and ends where that leads to the end or where there is none; where the route
leads on, the run is cancelled. `Workflow.WindsUp` names the three endings.
Nobody is called any more, in none of the workflows under way.

# Runs under way

Executions are those of the call tree. By `Activation.perform_congr` an
execution starts nothing that is not a branch of it, so what is shown for all
branches is shown for everything that is under way. `Awaits` is the branch to
a sub-task seen from inside the run: the run has passed so far and is ready
for the task. `Ends` says what the task comes to.

A run is driven on from wherever it passes (`Workflow.Passes.drive`). After
the task that it awaits has responded, at most two more steps are made: the
one that records the response, and the one that finds the run over
(`drive_of_over`). That is `Awaits.windsUp`, one case for no route, for a
route to the end and for a route that leads on. By induction along the
branches it passes to all executions around the one that was asked to stop
(`Within.ends`); each of them ends with the trace that the agent has left.

# Agents that are asked

To say that nobody is called afterwards is to say who has been called so far.
`AskedWithin` is the invariant: each agent that was called has been asked by
some execution of the tree, after exactly the calls before it. The calls of
one layer keep it (`Within.askedWithin`, by induction on the layers). All of
this is put together in `nothing_starts_once_cancelled`.
-/

namespace TaskRouting

open Execution

variable {σ : Type} {c : Collaborators σ}

-- ====================================================== runs under way

namespace Workflow

variable {w : Workflow Task} {x : Executor σ}

/-- A run is driven on from wherever it passes. By induction on the passing,
each step of which is one step of `drive` (`drive_of_goesOn`). -/
theorem Passes.drive {first run : Run} {t₀ t : Trace σ}
    (h : w.Passes c x first t₀ run t) :
    ∃ steps, ∀ bound, w.drive c x (bound + steps) first t₀
      = w.drive c x bound run t := by
  induction h with
  | start => exact ⟨0, fun _ => rfl⟩
  | step _ goesOn ih =>
    obtain ⟨steps, hsteps⟩ := ih
    refine ⟨steps + 1, fun bound => ?_⟩
    rw [← drive_of_goesOn goesOn, ← hsteps, Nat.add_right_comm, Nat.add_assoc]

/-- Where tasks are executed without a bound, a run passes wherever it passes
under one. A step that goes on has run a task that settled (`of_step_goesOn`),
and there the two executors agree. -/
theorem Passes.mono {y : Executor σ} {first run : Run} {t₀ t : Trace σ}
    (hxy : x.Approximates y) (h : w.Passes c x first t₀ run t) :
    w.Passes c y first t₀ run t := by
  induction h with
  | start => exact .start
  | step _ goesOn ih =>
    obtain ⟨name, task, response, route, t', hready, hran, hrouted, rfl⟩ :=
      of_step_goesOn goesOn
    have hsame := (hxy _ _ _ _ (settles_of_ok hran)).trans hran
    exact .step ih (step_of_routed hready hsame hrouted)

/-- A run that has come to an end route, or has been asked to stop, ends with
its next step. That calls nobody: `step` looks at both before anything
else. -/
theorem drive_of_over {run : Run} {t : Trace σ}
    (hcancelled : run.context.isCancelled c t.world = true) (bound : Nat) :
    w.drive c x (bound + 1) run t
      = (.ok (if run.current.isNone then .completed
        else .failed .cancelled, run), t) := by
  unfold drive step
  cases run.current with
  | none => rfl
  | some name =>
    dsimp only
    rw [hcancelled]
    rfl

/-- A workflow that ends with the first step of a run, or with a later one,
responds so without a bound as well (`Task.unbounded_eq_perform`). -/
theorem unbounded_of_drive {context : Context} {inputs prepared : Inputs}
    {bound : Nat} {run : Run} {outcome : Outcome} {t t' : Trace σ}
    (haccepts : w.identity.inputSchema.prepare inputs = .ok prepared)
    (h : w.drive c (Task.unbounded c) bound (w.newRun context prepared) t
      = (.ok (outcome, run), t')) :
    Task.unbounded c context (.workflow w) inputs t
      = (.ok (w.finish (c.clock t'.world) run outcome inputs), t') := by
  have hperform : Task.perform c (Task.unbounded c) bound context
      (.workflow w) inputs t
      = (.ok (w.finish (c.clock t'.world) run outcome inputs), t') := by
    rw [Task.perform_workflow haccepts, execute, bind_apply, h]
    rfl
  rw [← hperform]
  exact Task.unbounded_eq_perform (settles_of_ok hperform)

end Workflow

-- =================================================== how workflows end

/-- The responses of a workflow in which a task has responded under a name
after the execution has been asked to stop. -/
inductive Workflow.WindsUp (w : Workflow Task) (name : String)
    (last r : Response) : Prop where
  /-- The route for the response ends the workflow. -/
  | completed {route : Route} (routed : w.route? name last.code = some route)
      (ends : route.next = none) (success : r.status = .success ∧ r.code = 0)
      (silent : r.diagnostic = none) (outputs : r.outputs = last.outputs)
  /-- There is no route for the response. -/
  | unrouted (unrouted : w.route? name last.code = none)
      (failed : r.status = .failed ∧ r.code = 1)
      (why : r.diagnostic = some (Obstacle.noRoute last.code name).message)
  /-- The route for the response leads on. -/
  | cancelled {route : Route} {next : String}
      (routed : w.route? name last.code = some route)
      (leads : route.next = some next)
      (failed : r.status = .failed ∧ r.code = 1)
      (why : r.diagnostic = some "workflow cancelled")

/-- Collaborators whose agents say their names and ask the execution to stop,
and who know a plain prompt under every name. -/
def Collaborators.halting : Collaborators Bool :=
  { Collaborators.among (fun agent _ _ => .saying agent.name true)
      fun name => some (.prompt (.asking name)) with
    cancelled := id }

/-- A workflow that has `Workflow.relay` run and then ends. -/
def Workflow.delegating : Workflow Task where
  identity := .named "delegating" "delegating"
  tasks := [("relay", .workflow .relay)]
  start := "relay"
  routing := [("relay", [(0, .finish)])]
  maxAttempts := 1
  recursive := false

namespace Activation

/-- A workflow is under way and waits for the task that its run has begun to
run under a name. -/
structure Awaits (c : Collaborators σ) (a : Activation σ) (w : Workflow Task)
    (run : Run) (name : String) (b : Activation σ) : Prop where
  begun : ∃ prepared t, a.Enters w prepared
    ∧ w.Passes c (Task.unbounded c) (w.newRun a.context prepared)
      a.trace run t
    ∧ w.Ready c run t name b.task b.trace
  context : b.context = run.context
  inputs : b.inputs = run.inputsFor b.task

/-- The response with which an execution without a bound ends, and the trace
that it leaves. -/
def Ends (c : Collaborators σ) (a : Activation σ) (r : Response)
    (t : Trace σ) : Prop :=
  Task.unbounded c a.context a.task a.inputs a.trace = (.ok r, t)

variable {root a b leaf : Activation σ}

theorem RunsSubtask.mono {x y : Workflow.Executor σ} (hxy : x.Approximates y)
    (h : a.RunsSubtask c x b) : a.RunsSubtask c y b := by
  cases h with
  | mk enters passed ready => exact .mk enters (passed.mono hxy) ready

/-- An execution that runs a sub-task is that of a workflow whose run `Awaits`
it. -/
theorem exists_awaits (h : a.RunsSubtask c (Task.unbounded c) b) :
    ∃ w run name, a.Awaits c w run name b := by
  cases h with
  | mk enters passed ready =>
    exact ⟨_, _, _, ⟨_, _, enters, passed, ready⟩, rfl, rfl⟩

/-- A task that a run `Awaits` is a branch of the tree. -/
theorem Awaits.runs {w : Workflow Task} {run : Run} {name : String}
    (h : a.Awaits c w run name b) : a.RunsSubtask c (Task.unbounded c) b := by
  obtain ⟨context, task, inputs, t'⟩ := b
  obtain ⟨⟨prepared, t, henters, hpassed, hready⟩, hcontext, hinputs⟩ := h
  dsimp only at hcontext hinputs hready
  subst hcontext hinputs
  exact .mk henters hpassed hready

/-- A task that a run awaits takes place inside the workflow: a run never
leaves the context in which it has begun (`Passes.context_eq`). -/
theorem Awaits.context_eq {w : Workflow Task} {run : Run} {name : String}
    (h : a.Awaits c w run name b) : b.context = a.context.enter w.key := by
  obtain ⟨prepared, t, -, hpassed, -⟩ := h.begun
  exact h.context.trans hpassed.context_eq

/-- Where agents call no tools, all executions within an execution heed being
asked to stop if that does. By induction on the way down the tree; a run keeps
the context of its workflow (`Awaits.context_eq`). -/
theorem Within.cancellable_eq (h : Within c root a) :
    a.context.cancellable = root.context.cancellable := by
  induction h with
  | root => rfl
  | subtask _ runs ih =>
    obtain ⟨w, run, name, hawaits⟩ := exists_awaits runs
    rw [hawaits.context_eq]
    exact ih
  | tool _ calls ih =>
    cases calls
    exact ih

/-- Where agents call no tools, no tool is called. Whichever constructor of
`Calls` says otherwise, the conversation would have to call one first. -/
theorem not_callsTool_of_toolFree (hfree : c.ToolFree)
    {execute : Workflow.Executor σ} : ¬ a.CallsTool c execute b := by
  intro hcalls
  cases hcalls with
  | @mk p prepared given apis t t' tool asks accepts resolved calls =>
    have hplain := hfree p.agent ⟨prepared, apis, p.toolbox⟩ t.world
    generalize c.agent p.agent ⟨prepared, apis, p.toolbox⟩ t.world
      = talk at calls hplain
    cases calls with
    | here _ _ => cases hplain
    | later _ _ => cases hplain

/-- A task whose agent answers responds, and calls nobody after the agent
(`Task.perform_of_prompt?`). The layer is followed with a bound of zero, which
is enough for a task that runs no others. -/
theorem Asks.ends {p : Prompt Task} {request : Request} {t : Trace σ}
    (h : a.Asks c p request t) {answer : Except AgentError (List Message)}
    {world : σ}
    (hanswer : c.agent p.agent request t.world = .answer answer world) :
    ∃ r, a.Ends c r { t.call (.ask p.agent request) with world } := by
  obtain ⟨inputs, apis, tools⟩ := request
  obtain ⟨hasks, haccepts, hresolved, rfl⟩ := h
  -- The prompt ends with something said, be it that the agent has failed or
  -- has said nothing.
  have hgenerate : ∃ said, p.generate c (Task.unbounded c a.context)
      inputs a.trace
      = (.ok said, { t.call (.ask p.agent ⟨inputs, apis, p.toolbox⟩)
        with world }) := by
    rw [Prompt.generate_of_resolved hresolved, hanswer]
    rcases answer with error | (_ | ⟨message, messages⟩)
    all_goals exact ⟨_, rfl⟩
  obtain ⟨said, hsaid⟩ := hgenerate
  obtain ⟨conclude, hconclude, hperform⟩ :=
    Task.perform_of_prompt? (c := c) hasks haccepts
  obtain ⟨r, hr⟩ := hconclude said
    { t.call (.ask p.agent ⟨inputs, apis, p.toolbox⟩) with world }
  have hlayer : Task.perform c (Task.unbounded c) 0 a.context a.task
      a.inputs a.trace
      = (.ok r, { t.call (.ask p.agent ⟨inputs, apis, p.toolbox⟩)
        with world }) := by
    rw [hperform, bind_apply, hsaid]
    exact hr
  refine ⟨r, ?_⟩
  unfold Ends
  rw [← hlayer]
  exact Task.unbounded_eq_perform (settles_of_ok hlayer)

/-- A workflow whose task has responded after the execution has been asked to
stop responds without calling anybody. The run is driven two steps from where
it has come to, and the route for the response decides which of the endings of
`WindsUp` it is. -/
theorem Awaits.windsUp {w : Workflow Task} {run : Run} {name : String}
    {last : Response} {t' : Trace σ} (h : a.Awaits c w run name b)
    (hheeds : a.context.cancellable = true) (hlast : b.Ends c last t')
    (hcancelled : c.cancelled t'.world = true) :
    ∃ r, a.Ends c r t' ∧ w.WindsUp name last r
      ∧ r.history = some (run.history ++ [last]) := by
  obtain ⟨prepared, t, ⟨htask, haccepts⟩, hpassed, hready⟩ := h.begun
  obtain ⟨steps, hsteps⟩ := hpassed.drive
  unfold Ends at hlast
  rw [h.context, h.inputs] at hlast
  -- Two steps from here are `steps + 2` from the beginning of the run.
  have hresponds : ∀ {outcome run'}, w.drive c (Task.unbounded c) 2 run t
      = (.ok (outcome, run'), t') →
      a.Ends c (w.finish (c.clock t'.world) run' outcome a.inputs) t' := by
    intro outcome run' hdrive
    rw [← hsteps] at hdrive
    unfold Ends
    rw [htask]
    exact Workflow.unbounded_of_drive haccepts hdrive
  have hhistory : (run.record name last).history = run.history ++ [last] :=
    run.history_record name last
  cases hroute : w.route? name last.code with
  | none =>
    have hdrive : w.drive c (Task.unbounded c) 2 run t
        = (.ok (.failed (.noRoute last.code name), run.record name last),
          t') := by
      unfold Workflow.drive
      rw [Workflow.step_of_ready hready, hlast]
      dsimp only [Workflow.advance]
      rw [hroute]
    refine ⟨_, hresponds hdrive, .unrouted hroute ⟨rfl, rfl⟩ rfl, ?_⟩
    rw [Workflow.history_finish, hhistory]
  | some route =>
    have hstep := Workflow.step_of_routed hready hlast hroute
    have hover : ((run.record name last).follow route).context.isCancelled c
        t'.world = true := by
      show run.context.isCancelled c t'.world = true
      rw [hpassed.context_eq]
      show (a.context.cancellable && c.cancelled t'.world) = true
      rw [hheeds, hcancelled]
      rfl
    have hdrive := (Workflow.drive_of_goesOn hstep).trans
      (Workflow.drive_of_over hover 0)
    cases hnext : route.next with
    | none =>
      have hcurrent : ((run.record name last).follow route).current.isNone
          = true := by
        show route.next.isNone = true
        rw [hnext]
        rfl
      rw [if_pos hcurrent] at hdrive
      refine ⟨_, hresponds hdrive,
        .completed hroute hnext ⟨rfl, rfl⟩ rfl rfl, ?_⟩
      rw [Workflow.history_finish, Run.history_follow, hhistory]
    | some next =>
      have hcurrent : ¬ ((run.record name last).follow route).current.isNone
          = true := by
        show ¬ route.next.isNone = true
        rw [hnext]
        exact Bool.false_ne_true
      rw [if_neg hcurrent] at hdrive
      refine ⟨_, hresponds hdrive, .cancelled hroute hnext ⟨rfl, rfl⟩ rfl, ?_⟩
      rw [Workflow.history_finish, Run.history_follow, hhistory]

/-- All executions around one that ends after they have been asked to stop end
with it. By induction on the way down the tree, with `Awaits.windsUp` for each
workflow on it. -/
theorem Within.ends (hfree : c.ToolFree) (h : Within c a b)
    (hheeds : a.context.cancellable = true) {t' : Trace σ}
    (hcancelled : c.cancelled t'.world = true) (hends : ∃ r, b.Ends c r t') :
    ∃ r, a.Ends c r t' := by
  induction h with
  | root => exact hends
  | subtask within runs ih =>
    obtain ⟨last, hlast⟩ := hends
    obtain ⟨w, run, name, hawaits⟩ := exists_awaits runs
    obtain ⟨r, hr, -, -⟩ :=
      hawaits.windsUp (within.cancellable_eq.trans hheeds) hlast hcancelled
    exact ih ⟨r, hr⟩
  | tool within calls ih =>
    exact absurd calls (not_callsTool_of_toolFree hfree)

/-- A workflow that begins to run after it has been asked to stop calls
nobody: its very first step finds the run over (`drive_of_over`). -/
theorem ends_of_cancelled {w : Workflow Task} {prepared : Inputs}
    (henters : a.Enters w prepared) (hheeds : a.context.cancellable = true)
    (hcancelled : c.cancelled a.trace.world = true) :
    ∃ r, a.Ends c r a.trace ∧ r.status = .failed ∧ r.code = 1
      ∧ r.diagnostic = some "workflow cancelled" ∧ r.history = some [] := by
  obtain ⟨htask, haccepts⟩ := henters
  have hover : (w.newRun a.context prepared).context.isCancelled c
      a.trace.world = true := by
    show (a.context.cancellable && c.cancelled a.trace.world) = true
    rw [hheeds, hcancelled]
    rfl
  refine ⟨w.finish (c.clock a.trace.world) (w.newRun a.context prepared)
    (.failed .cancelled) a.inputs, ?_, rfl, rfl, rfl, rfl⟩
  unfold Ends
  rw [htask]
  exact Workflow.unbounded_of_drive haccepts (Workflow.drive_of_over hover 0)

-- =============================================== agents that are asked

/-- Every agent that has been called in an execution so far has been asked in
an execution within it, after the calls before. -/
def AskedWithin (c : Collaborators σ) (root : Activation σ) (t : Trace σ) :
    Prop :=
  ∃ made, t.calls = root.trace.calls ++ made
    ∧ ∀ before call after, made = before ++ call :: after →
      call.asked?.isSome = true →
        ∃ leaf p request t', Within c root leaf ∧ leaf.Asks c p request t'
          ∧ t'.calls = root.trace.calls ++ before
          ∧ call = .ask p.agent request

theorem askedWithin_start : AskedWithin c root root.trace := by
  refine ⟨[], (List.append_nil _).symm, fun before call after hmade _ => ?_⟩
  cases before with
  | nil => cases hmade
  | cons first before => cases hmade

/-- One more call keeps `AskedWithin`, if an agent that is called by it is
asked in the tree at this point. Where the split falls decides: either the
last call is meant, or one before it, about which `h` knows. -/
theorem AskedWithin.call {t : Trace σ} {last : Call} {world : σ}
    (h : AskedWithin c root t)
    (hlast : last.asked?.isSome = true →
      ∃ leaf p request t', Within c root leaf ∧ leaf.Asks c p request t'
        ∧ t'.calls = t.calls
        ∧ last = .ask p.agent request) :
    AskedWithin c root { t.call last with world } := by
  obtain ⟨made, hmade, hasked⟩ := h
  refine ⟨made ++ [last], ?_, fun before call after hsplit hagent => ?_⟩
  · show (t.call last).calls = _
    rw [Trace.calls_call, hmade, List.append_assoc]
  · -- The last call ends either `after` or, where nothing comes after, the
    -- split.
    rcases List.eq_nil_or_concat after with rfl | ⟨after, final, rfl⟩
    · obtain ⟨rfl, hsame⟩ := List.append_inj' hsplit rfl
      obtain rfl := List.singleton_inj.1 hsame
      obtain ⟨leaf, p, request, t', hwithin, hasks, hcalls, rfl⟩ :=
        hlast hagent
      exact ⟨leaf, p, request, t', hwithin, hasks, hcalls.trans hmade, rfl⟩
    · rw [List.concat_eq_append, ← List.cons_append,
        ← List.append_assoc] at hsplit
      exact hasked before call after (List.append_inj' hsplit rfl).1 hagent

/-- Lookups of names and APIs call no agent, so `AskedWithin` holds after them
if it did before. -/
theorem serve_askedWithin : c.Serve fun _ => AskedWithin c root where
  exhausted _ h := h
  lookup _ _ h := h.call (fun hagent => nomatch hagent)
  config _ _ h := h.call (fun hagent => nomatch hagent)

/-- Where agents call no tools, all agents that an execution calls are asked
within it. By induction on the bound: one layer is
`Activation.perform_upholds`, which asks for the conversation and for the
sub-tasks. -/
theorem Within.askedWithin (hfree : c.ToolFree) {n : Nat}
    (h : Within c root a) (ha : AskedWithin c root a.trace) :
    AskedWithin c root (Task.execute c n a.context a.task
      a.inputs a.trace).2 := by
  induction n generalizing a with
  | zero => exact ha
  | succ n ih =>
    refine Activation.perform_upholds (P := fun _ => AskedWithin c root)
      serve_askedWithin ha ?_ ?_
    · intro p request t hasks ht
      have hasked : ∀ world, AskedWithin c root
          { t.call (.ask p.agent request) with world } :=
        fun world => ht.call fun _ => ⟨a, p, request, t, h, hasks, rfl, rfl⟩
      have hplain := hfree p.agent request t.world
      cases htalk : c.agent p.agent request t.world with
      | answer answered world => exact hasked world
      | crash why world => exact hasked world
      | callTool name inputs world resume =>
        rw [htalk] at hplain
        cases hplain
    · intro b hruns hb
      have hwithin : Within c root b :=
        .subtask h (hruns.mono fun context task inputs t hsettles =>
          Task.unbounded_eq hsettles)
      exact ih hwithin hb

-- =============================== what happens once it is asked to stop

/-- Where agents call no tools and the execution has been asked to stop when
an agent answers, nobody is called after that agent. All executions around it
end with its answer, and each workflow that waits for a task then responds as
the route for the response of that task has it, which is the last one in its
history. The agents that an execution calls are asked within it; and a
workflow that has been asked to stop before it begins to run calls nobody.

The task that asks the agent ends (`Asks.ends`), and with it each execution
around it (`Within.ends`): the run that awaits it winds up at its next step
(`Awaits.windsUp`). -/
theorem nothing_starts_once_cancelled (hfree : c.ToolFree)
    (hheeds : root.context.cancellable = true) :
    (∀ n, AskedWithin c root
      (Task.execute c n root.context root.task root.inputs root.trace).2)
    ∧ (∀ leaf p request t answer world, Within c root leaf →
        leaf.Asks c p request t →
        c.agent p.agent request t.world = .answer answer world →
        c.cancelled world = true →
        (∀ a, Within c root a → Within c a leaf →
          ∃ r, a.Ends c r { t.call (.ask p.agent request) with world })
        ∧ ∀ a w run name b, Within c root a → a.Awaits c w run name b →
            Within c b leaf →
            ∃ last r, b.Ends c last
                { t.call (.ask p.agent request) with world }
              ∧ a.Ends c r { t.call (.ask p.agent request) with world }
              ∧ w.WindsUp name last r
              ∧ r.history = some (run.history ++ [last]))
    ∧ ∀ w prepared, root.Enters w prepared →
        c.cancelled root.trace.world = true →
        ∃ r, root.Ends c r root.trace ∧ r.status = .failed ∧ r.code = 1
          ∧ r.diagnostic = some "workflow cancelled"
          ∧ r.history = some [] := by
  refine ⟨fun n => Within.root.askedWithin hfree askedWithin_start, ?_,
    fun w prepared henters hcancelled =>
      ends_of_cancelled henters hheeds hcancelled⟩
  intro leaf p request t answer world hleaf hasks hanswer hcancelled
  have hends := hasks.ends hanswer
  constructor
  · intro a ha hinside
    exact hinside.ends hfree (ha.cancellable_eq.trans hheeds) hcancelled hends
  · -- The task that is awaited ends first, and then the workflow winds up.
    intro a w run name b ha hawaits hinside
    have hagrees : b.context.cancellable = true := by
      rw [hawaits.context_eq]
      exact ha.cancellable_eq.trans hheeds
    obtain ⟨last, hlast⟩ := hinside.ends hfree hagrees hcancelled hends
    obtain ⟨r, hr, hwinds, hhistory⟩ :=
      hawaits.windsUp (ha.cancellable_eq.trans hheeds) hlast hcancelled
    exact ⟨last, r, hlast, hr, hwinds, hhistory⟩

/-- An execution of a workflow that has a relay run, among agents that ask
executions to stop. -/
def halted : Activation Bool :=
  ⟨.fresh true, .workflow .delegating, [], .start false⟩

/-- The workflow is asked to stop while the agent of the first task of the
relay inside it talks. The relay is cancelled, since its route leads on; and
then the workflow ends, which has no route for that. -/
theorem delegating_halted :
    ∃ (relay last : Response) (t : Trace Bool),
      Collaborators.halting.ToolFree ∧ halted.context.cancellable = true
      ∧ halted.Ends .halting last t ∧ t.calls.length = 1
      ∧ relay.diagnostic = some "workflow cancelled"
      ∧ last.diagnostic = some (Obstacle.noRoute 1 "relay").message
      ∧ last.history = some [relay] := by
  have hfree : Collaborators.halting.ToolFree := fun _ _ _ => trivial
  let inner : Activation Bool :=
    ⟨halted.context.enter "delegating", .workflow .relay, [], .start false⟩
  let leaf : Activation Bool :=
    ⟨inner.context.enter "relay", .prompt (.asking "first"), [], .start false⟩
  -- Two workflows are under way when the agent is asked.
  have houter : halted.Awaits .halting .delegating
      (Workflow.newRun .delegating halted.context []) "relay" inner :=
    ⟨⟨[], halted.trace, ⟨rfl, rfl⟩, .start,
      ⟨rfl, rfl, (by decide : (0 : UInt32) < 1), rfl, rfl⟩⟩, rfl, rfl⟩
  have hinner : inner.Awaits .halting .relay
      (Workflow.newRun .relay inner.context []) "first" leaf :=
    ⟨⟨[], inner.trace, ⟨rfl, rfl⟩, .start,
      ⟨rfl, rfl, (by decide : (0 : UInt32) < 1), rfl, rfl⟩⟩, rfl, rfl⟩
  have hheeds : halted.context.cancellable = true := rfl
  have hwithin : Within .halting halted inner := .subtask .root houter.runs
  have hasks : leaf.Asks .halting (.asking "first") ⟨[], [], none⟩
      (.start false) :=
    ⟨rfl, rfl, rfl, rfl⟩
  obtain ⟨-, hhalts, -⟩ := nothing_starts_once_cancelled hfree hheeds
  obtain ⟨-, hwaiting⟩ :=
    hhalts leaf _ _ _ _ _ (.subtask hwithin hinner.runs) hasks rfl rfl
  -- The relay takes the route for success, which leads on.
  obtain ⟨first, relay, hfirst, hrelay, hwinds, -⟩ :=
    hwaiting inner _ _ _ leaf hwithin hinner .root
  obtain ⟨relay', last, hrelay', hlast, hwinds', hhistory⟩ :=
    hwaiting halted _ _ _ inner .root houter (.subtask .root hinner.runs)
  obtain rfl : relay = relay' := by
    unfold Ends at hrelay hrelay'
    cases hrelay.symm.trans hrelay'
    rfl
  have hcode : first.code = 0 := by
    have hsaid : Task.execute .halting 1 leaf.context leaf.task
        leaf.inputs leaf.trace
        = (.ok (.success Instant.epoch
            (Identity.named "first" "first").header []
            [Message.plain "first"]),
          { leaf.trace.call (.agent "first" [] [] none)
            with world := true }) := rfl
    have hsettled := Task.unbounded_eq (settles_of_ok hsaid)
    unfold Ends at hfirst
    cases hfirst.symm.trans (hsettled.trans hsaid)
    rfl
  have hroute : Workflow.relay.route? "first" first.code
      = some (.plain "second") := by
    rw [hcode]
    rfl
  obtain ⟨hfailed, hwhy⟩ : relay.code = 1
      ∧ relay.diagnostic = some "workflow cancelled" := by
    cases hwinds with
    | completed routed ends =>
      cases hroute.symm.trans routed
      cases ends
    | unrouted unrouted => cases hroute.symm.trans unrouted
    | cancelled routed leads failed why => exact ⟨failed.2, why⟩
  -- The workflow around it has no route for failure.
  have hnone : Workflow.delegating.route? "relay" relay.code = none := by
    rw [hfailed]
    rfl
  have hwhy' : last.diagnostic
      = some (Obstacle.noRoute 1 "relay").message := by
    cases hwinds' with
    | completed routed => cases hnone.symm.trans routed
    | unrouted unrouted failed why => rw [why, hfailed]
    | cancelled routed => cases hnone.symm.trans routed
  exact ⟨relay, last, _, hfree, rfl, hlast, rfl, hwhy, hwhy', hhistory⟩

end Activation

end TaskRouting
