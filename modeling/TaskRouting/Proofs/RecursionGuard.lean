import TaskRouting.Proofs.CallTree
import TaskRouting.Proofs.Setting
/-!
The guard on recursion, over the whole tree of executions.

# The guard

Workflows are to be nested at most so deep, and one that does not allow it is
not to run inside itself. `Guarded` says so of one execution, at its
beginning: `depth` and `room` bound the workflows under way, and `flat`
forbids the one that begins to be among them.

A step of a run sees to this before it runs a sub-task, wherever that comes
from: it refuses what `Workflow.Admits` does not let in. `Guarded.of_admits`
and `Guarded.admits` translate between the two.

# Over the tree

The guard is an invariant of the branches of the call tree. It holds at the
root (`guarded_of_fresh`) and for the sub-tasks of an execution for which it
holds (`Guarded.subtask`), since the run has stayed in its context
(`Workflow.Passes.context_eq`). By `Activation.perform_congr` no execution
starts anything else but the tools of its agent, and about these nobody asks:
a tool is called without a step.

So the guard holds throughout an execution exactly if no workflow is called
that a step would have refused (`guarded_iff_tools_admitted`).

# A workflow as its own tool

What may happen otherwise is shown by a relay whose second task has the relay
as a tool. It runs again inside itself (`relay_within_relay`), and by
induction on the depth it does so as deep as you like
(`relay_nested_without_limit`).
-/

namespace TaskRouting

open Execution

variable {σ : Type} {c : Collaborators σ}

/-- A context is one deeper inside a workflow. -/
@[simp] theorem Context.depth_enter (context : Context) (key : String) :
    (context.enter key).depth = context.depth + 1 := by
  rw [depth, enter, List.length_append, List.length_singleton, depth]

/-- All runs that a run passes through take place where it does. By induction
on the passing: neither `record` nor `follow` touches the context. -/
theorem Workflow.Passes.context_eq {execute : Executor σ} {w : Workflow Task}
    {first run : Run} {t₀ t : Trace σ}
    (h : w.Passes c execute first t₀ run t) :
    run.context = first.context := by
  induction h with
  | start => rfl
  | step _ goesOn ih =>
    obtain ⟨name, task, response, route, t', -, -, -, rfl⟩ :=
      of_step_goesOn goesOn
    exact ih

namespace Activation

/-- The guard holds where an execution begins: there are at most so many
workflows under way, also with the one that begins to run, if one does, and
that one is not under way yet unless it may run inside itself. -/
structure Guarded (a : Activation σ) : Prop where
  depth : a.context.depth ≤ maxCallDepth
  room : ∀ w prepared, a.Enters w prepared →
    (a.context.enter w.key).depth ≤ maxCallDepth
  flat : ∀ w prepared, a.Enters w prepared → w.recursive = false →
    w.key ∉ a.context.active

/-- The guard holds where a task begins that a step `Admits`: what that says
of a workflow is what the guard asks of one that is entered. -/
theorem Guarded.of_admits {a : Activation σ}
    (hdepth : a.context.depth ≤ maxCallDepth)
    (hadmits : Workflow.Admits a.context a.task) : a.Guarded := by
  constructor
  case depth => exact hdepth
  case room =>
    rintro w prepared ⟨hentered, -⟩
    rw [Context.depth_enter]
    exact (hadmits w hentered).2
  case flat =>
    rintro w prepared ⟨hentered, -⟩ hflat hactive
    have hrecursive := (hadmits w hentered).1 hactive
    rw [hflat] at hrecursive
    cases hrecursive

/-- A step `Admits` the task that begins where the guard holds, if the task
accepts its inputs. -/
theorem Guarded.admits {a : Activation σ} {prepared : Inputs} (h : a.Guarded)
    (haccepts : a.task.identity.inputSchema.prepare a.inputs = .ok prepared) :
    Workflow.Admits a.context a.task := by
  intro w htask
  have hentered : a.Enters w prepared := by
    refine ⟨htask, ?_⟩
    rw [htask] at haccepts
    exact haccepts
  constructor
  · intro hactive
    exact eq_true_of_ne_false fun hflat =>
      h.flat w prepared hentered hflat hactive
  · have hroom := h.room w prepared hentered
    rw [Context.depth_enter] at hroom
    exact hroom

/-- The guard holds where an execution begins outside of all workflows:
nothing is active there, so everything is admitted. -/
theorem guarded_of_fresh {cancellable : Bool} {task : Task} {inputs : Inputs}
    {t : Trace σ} :
    (⟨.fresh cancellable, task, inputs, t⟩ : Activation σ).Guarded := by
  refine .of_admits (Nat.zero_le _) fun w _ => ⟨fun hactive => ?_, ?_⟩
  · cases hactive
  · exact (by decide : 0 < 32)

/-- Where the guard holds, it holds for all sub-tasks: the run is `Ready` only
for a task that has been admitted, at the depth of the workflow that runs it
(`Passes.context_eq`). -/
theorem Guarded.subtask {execute : Workflow.Executor σ} {a b : Activation σ}
    (h : a.Guarded) (hruns : a.RunsSubtask c execute b) : b.Guarded := by
  cases hruns with
  | @mk w prepared run t t' name task enters passed ready =>
    have hcontext : run.context = a.context.enter w.key := passed.context_eq
    refine .of_admits ?_ (Workflow.refusal?_eq_none_iff.1 ready.admitted)
    show run.context.depth ≤ maxCallDepth
    rw [hcontext]
    exact h.room w prepared enters

/-- Where the guard holds, it holds for a tool that a step would let run, if
that accepts its inputs. One that does not is never entered, so the depth is
all that counts. -/
theorem Guarded.tool {execute : Workflow.Executor σ} {a b : Activation σ}
    (h : a.Guarded) (hcalls : a.CallsTool c execute b)
    (hadmitted : ∀ prepared, b.task.identity.inputSchema.prepare b.inputs
      = .ok prepared →
      Workflow.refusal? b.context b.task = none) : b.Guarded := by
  have hcontext : b.context = a.context := by
    cases hcalls
    rfl
  have hdepth : b.context.depth ≤ maxCallDepth := by
    rw [hcontext]
    exact h.depth
  cases hprepare : b.task.identity.inputSchema.prepare b.inputs with
  | ok prepared =>
    exact .of_admits hdepth
      (Workflow.refusal?_eq_none_iff.1 (hadmitted prepared hprepare))
  | error missing =>
    -- A workflow that refuses its inputs does not begin to run.
    have hnever : ∀ w prepared, ¬ b.Enters w prepared := by
      rintro w prepared ⟨htask, haccepts⟩
      rw [htask] at hprepare
      cases hprepare.symm.trans haccepts
    exact ⟨hdepth, fun w prepared hentered =>
      absurd hentered (hnever w prepared),
      fun w prepared hentered => absurd hentered (hnever w prepared)⟩

/-- The guard holds throughout an execution that begins where it holds, if it
holds for the tools that are called. By induction on the way down the tree;
sub-tasks are `Guarded.subtask`. -/
theorem Guarded.within {root : Activation σ} (h : root.Guarded)
    (htools : ∀ a b, Within c root a → a.CallsTool c (Task.unbounded c) b →
      a.Guarded → b.Guarded) :
    ∀ a, Within c root a → a.Guarded := by
  intro a hwithin
  induction hwithin with
  | root => exact h
  | subtask _ runs ih => exact ih.subtask runs
  | tool within calls ih => exact htools _ _ within calls ih

/-- The guard holds throughout an execution exactly if no tool that is called
and accepts its inputs is a workflow that a step would have refused. One way
by `Guarded.admits` at the tool, the other by `Guarded.within` with
`Guarded.tool`. -/
theorem guarded_iff_tools_admitted {cancellable : Bool} {task : Task}
    {inputs : Inputs} {t : Trace σ} :
    (∀ a, Within c ⟨.fresh cancellable, task, inputs, t⟩ a → a.Guarded)
      ↔ ∀ a b prepared, Within c ⟨.fresh cancellable, task, inputs, t⟩ a →
          a.CallsTool c (Task.unbounded c) b →
          b.task.identity.inputSchema.prepare b.inputs = .ok prepared →
          Workflow.refusal? b.context b.task = none := by
  constructor
  · intro hguarded a b prepared hwithin hcalls haccepts
    exact Workflow.refusal?_eq_none_iff.2
      ((hguarded b (.tool hwithin hcalls)).admits haccepts)
  · intro htools
    refine guarded_of_fresh.within fun a b hwithin hcalls ha =>
      ha.tool hcalls fun prepared haccepts => ?_
    exact htools a b prepared hwithin hcalls haccepts

-- ========================================== a workflow as its own tool

/-- A prompt whose agent has a tool that runs a workflow. -/
def recalling (w : Workflow Task) : Prompt Task :=
  { identity := .named "second" "second", agent := ⟨"second", "second", true⟩
    capabilities := ⟨true⟩, tools := [("again", .workflow w)] }

/-- Collaborators among whom agents that make use of tools call theirs, and
who know every name for a prompt that has the relay as a tool. -/
def recallers : Collaborators Unit :=
  .among
    (fun agent _ world =>
      if agent.usesTools then .callTool "again" [] world fun _ world =>
        .saying "done" world
      else .saying agent.name world)
    fun _ => some (.prompt (recalling .relay))

/-- Within an execution of the relay, the relay begins to run again inside
itself. The run is followed by hand through its first step (`step_of_routed`),
to the prompt whose agent calls the relay. -/
theorem relay_within_relay {root : Activation Unit} {context : Context}
    {t : Trace Unit}
    (h : Within recallers root ⟨context, .workflow .relay, [], t⟩)
    (hcontext : context.cancellable = false) :
    ∃ t', Within recallers root
      ⟨context.enter "relay", .workflow .relay, [], t'⟩ := by
  have hentered : (⟨context, .workflow .relay, [], t⟩ :
      Activation Unit).Enters .relay [] :=
    ⟨rfl, rfl⟩
  have hgoing : ∀ world, (context.enter "relay").isCancelled recallers
      world = false := by
    intro world
    rw [Context.isCancelled, Context.enter, hcontext]
    rfl
  have hbudget : (0 : UInt32) < 1 := by decide
  -- The relay runs its own task first.
  have hfirst : Workflow.relay.Ready recallers
      (Workflow.relay.newRun context []) t "first"
      (.prompt (.asking "first")) t :=
    ⟨rfl, hgoing t.world, hbudget, rfl, rfl⟩
  have hran : Task.unbounded recallers (context.enter "relay")
      (.prompt (.asking "first")) [] t
      = (.ok (.success Instant.epoch
          (Identity.named "first" "first").header []
          [Message.plain "first"]), t.call (.agent "first" [] [] none)) := by
    have hperform : Task.perform recallers (Task.unbounded recallers) 0
        (context.enter "relay") (.prompt (.asking "first")) [] t
        = (.ok (.success Instant.epoch
            (Identity.named "first" "first").header []
            [Message.plain "first"]), t.call (.agent "first" [] [] none)) :=
      Task.perform_asking rfl
    rw [← hperform]
    exact Task.unbounded_eq_perform (settles_of_ok hperform)
  have hstep := Workflow.step_of_routed hfirst hran
    (rfl : _ = some (Route.plain "second"))
  -- It goes on to the prompt that is looked up, whose agent calls it.
  have hsecond : Workflow.relay.Ready recallers
      (((Workflow.relay.newRun context []).record "first"
        (.success Instant.epoch (Identity.named "first" "first").header []
        [Message.plain "first"])).follow (.plain "second"))
        (t.call (.agent "first" [] [] none)) "second"
      (.prompt (recalling .relay))
      ((t.call (.agent "first" [] [] none)).call (.lookup "second")) :=
    ⟨rfl, hgoing t.world, hbudget, rfl, rfl⟩
  have hprompt := Within.subtask h (.mk hentered (.step .start hstep) hsecond)
  exact ⟨_, .tool hprompt (.mk rfl rfl rfl (.here rfl rfl))⟩

/-- A workflow that does not allow it runs inside itself, and workflows are
nested as deep as you like, if an agent can call it as a tool. By induction on
the depth: `relay_within_relay` goes one deeper. -/
theorem relay_nested_without_limit :
    (∃ a, Within recallers ⟨.fresh false, .workflow .relay, [], .start ()⟩ a
        ∧ a.Enters .relay [] ∧ Workflow.relay.recursive = false
        ∧ Workflow.relay.key ∈ a.context.active)
      ∧ ∀ depth, ∃ a,
        Within recallers ⟨.fresh false, .workflow .relay, [], .start ()⟩ a
        ∧ a.context.depth = depth := by
  have hnested : ∀ depth, ∃ context t,
      Within recallers ⟨.fresh false, .workflow .relay, [], .start ()⟩
        ⟨context, .workflow .relay, [], t⟩
      ∧ context.cancellable = false ∧ context.depth = depth := by
    intro depth
    induction depth with
    | zero => exact ⟨_, _, .root, rfl, rfl⟩
    | succ depth ih =>
      obtain ⟨context, t, hwithin, hcontext, hdepth⟩ := ih
      obtain ⟨t', hwithin'⟩ := relay_within_relay hwithin hcontext
      refine ⟨_, t', hwithin', hcontext, ?_⟩
      rw [Context.depth_enter, hdepth]
  constructor
  · have hroot : Within recallers
        ⟨.fresh false, .workflow .relay, [], .start ()⟩
        ⟨.fresh false, .workflow .relay, [], .start ()⟩ := .root
    obtain ⟨t', hwithin⟩ := relay_within_relay hroot rfl
    exact ⟨_, hwithin, ⟨rfl, rfl⟩, rfl, List.mem_singleton.2 rfl⟩
  · intro depth
    obtain ⟨context, t, hwithin, -, hdepth⟩ := hnested depth
    exact ⟨_, hwithin, hdepth⟩

end Activation

end TaskRouting
