import TaskRouting.Proofs.Layer
/-!
Executions without a bound.

`Task.execute` takes a bound, which cuts an execution short and does nothing
else: an execution that ends before its bound is used up ends in the same way
under every larger bound (`Task.execute_approximates`). So there is one way in
which a task is executed without a bound, `Task.unbounded`: as under every
bound that is large enough, and if no bound is, it goes on for ever.

# Limits

What holds of one layer of an execution passes to the whole by a limit.
`IsLimit e lim` says that the executions `e n` never do otherwise than `lim`
does where they settle, and that wherever `lim` settles they all do in the
end. Everything out of which tasks are executed keeps limits: sequences
(`IsLimit.bind`), what is heard of tools (`IsLimit.heard`), conversations,
prompts and checks, and driven runs (`isLimit_drive`), so one layer does
(`Task.isLimit_perform`). Approximation needs no second round of the same
lemmas: an execution and one that it approximates are a sequence with a limit
(`IsLimit.pair`), so `perform_approximates` is read off `isLimit_perform`.

# One layer

The bound plays two parts in `execute`: it limits how deep tasks nest, and how
many steps each workflow takes. `perform_approximates_of_le` raises the second
part alone. With it, an execution without a bound is one layer with executions
without a bound inside it (`unbounded_eq_perform`), and wherever it ends, some
bound on the steps of the outermost workflow suffices
(`exists_perform_of_unbounded`). These two are how everything else gets into
an execution without a bound.
-/

namespace TaskRouting

variable {σ α β : Type}

namespace Execution

/-- Wherever the first execution `Settles`, the second does the same. -/
def Approximates (e e' : Execution σ α) : Prop :=
  ∀ t, e.Settles t → e' t = e t

/-- Some executions come closer and closer to another one: they never do
otherwise than it does, and wherever it settles they all do in the end. -/
structure IsLimit (e : Nat → Execution σ α) (lim : Execution σ α) : Prop where
  below : ∀ n, (e n).Approximates lim
  attained : ∀ t, lim.Settles t → ∃ n, ∀ m, n ≤ m → e m t = lim t

theorem Approximates.refl (e : Execution σ α) : e.Approximates e :=
  fun _ _ => rfl

/-- What approximates an execution approximates whatever that approximates: it
settles first, so both do the same from there. -/
theorem Approximates.trans {e e' e'' : Execution σ α} (h : e.Approximates e')
    (h' : e'.Approximates e'') : e.Approximates e'' := by
  intro t hsettles
  have heq := h t hsettles
  rw [h' t (hsettles.congr heq), heq]

/-- A sequence of better executions is better, since a sequence settles only
if its parts do (`Settles.of_bind`, `Settles.of_bind_ok`), as far as it
gets. -/
theorem Approximates.bind {e e' : Execution σ α} {f f' : α → Execution σ β}
    (he : e.Approximates e') (hf : ∀ a, (f a).Approximates (f' a)) :
    (e >>= f).Approximates (e' >>= f') := by
  intro t hsettles
  rw [bind_apply, bind_apply, he t hsettles.of_bind]
  rcases heq : e t with ⟨stop | a, t'⟩
  · rfl
  · exact hf a t' (hsettles.of_bind_ok heq)

theorem IsLimit.const (e : Execution σ α) : IsLimit (fun _ => e) e :=
  ⟨fun _ => .refl e, fun _ _ => ⟨0, fun _ _ => rfl⟩⟩

/-- Sequences keep limits. From some index on the first part is that of the
limit, and from a later one on so is the second part, begun where the first
one ends. So the larger of the two indices serves. -/
theorem IsLimit.bind {e : Nat → Execution σ α} {lim : Execution σ α}
    {f : Nat → α → Execution σ β} {limf : α → Execution σ β}
    (he : IsLimit e lim) (hf : ∀ a, IsLimit (fun n => f n a) (limf a)) :
    IsLimit (fun n => e n >>= f n) (lim >>= limf) := by
  refine ⟨fun n => (he.below n).bind fun a => (hf a).below n,
    fun t hsettles => ?_⟩
  obtain ⟨n, hn⟩ := he.attained t hsettles.of_bind
  rcases heq : lim t with ⟨stop | a, t'⟩
  · refine ⟨n, fun m hm => ?_⟩
    rw [bind_apply, bind_apply, hn m hm, heq]
  · obtain ⟨k, hk⟩ := (hf a).attained t' (hsettles.of_bind_ok heq)
    refine ⟨max n k, fun m hm => ?_⟩
    obtain ⟨hnm, hkm⟩ := Nat.max_le.1 hm
    rw [bind_apply, bind_apply, hn m hnm, heq]
    exact hk m hkm

/-- An execution that another one approximates is the limit of the two. -/
theorem IsLimit.pair {e lim : Execution σ α} (h : e.Approximates lim) :
    IsLimit (fun n => if n = 0 then e else lim) lim := by
  constructor
  · intro n
    cases n with
    | zero => exact h
    | succ n => exact .refl lim
  · intro t _
    refine ⟨1, fun m hm => ?_⟩
    rw [if_neg (Nat.one_le_iff_ne_zero.1 hm)]

/-- A tool that uses up its bound uses up that of the agent, and nothing else
does: a fault is `heard` as a value. -/
theorem heard_settles_iff {e : Execution σ Response} {t : Trace σ} :
    e.heard.Settles t ↔ e.Settles t := by
  unfold Settles heard
  rcases e t with ⟨(fault | crash | _) | response, t'⟩
  all_goals simp

/-- What is heard of a better execution is better. -/
theorem Approximates.heard {e e' : Execution σ Response}
    (h : e.Approximates e') : e.heard.Approximates e'.heard := by
  intro t hsettles
  unfold Execution.heard
  rw [h t (heard_settles_iff.1 hsettles)]

/-- What is heard of tools keeps limits, since being told of a tool settles
exactly if the tool does (`heard_settles_iff`). -/
theorem IsLimit.heard {e : Nat → Execution σ Response}
    {lim : Execution σ Response} (h : IsLimit e lim) :
    IsLimit (fun n => (e n).heard) lim.heard := by
  refine ⟨fun n => (h.below n).heard, fun t hsettles => ?_⟩
  obtain ⟨n, hn⟩ := h.attained t (heard_settles_iff.1 hsettles)
  refine ⟨n, fun m hm => ?_⟩
  unfold Execution.heard
  rw [hn m hm]

end Execution

open Execution

namespace Workflow.Executor

/-- Each execution of the first kind approximates the one of the second
kind. -/
def Approximates (x y : Executor σ) : Prop :=
  ∀ context task inputs, Execution.Approximates (x context task inputs)
    (y context task inputs)

/-- Each execution of the last kind is the limit of those of the kinds
before. -/
def IsLimit (x : Nat → Executor σ) (lim : Executor σ) : Prop :=
  ∀ context task inputs,
    Execution.IsLimit (fun n => x n context task inputs)
      (lim context task inputs)

end Workflow.Executor

-- =================================================== what keeps limits

section Limits

variable {c : Collaborators σ}

/-- Talking to an agent keeps limits of the ways in which tools are run. By
induction on the conversation, with each tool call a sequence of what is heard
of it and of the rest (`finish_callTool`). -/
theorem Conversation.isLimit_finish
    {runTool : Nat → Task → Inputs → Execution σ Response}
    {lim : Task → Inputs → Execution σ Response}
    (h : ∀ task inputs, IsLimit (fun n => runTool n task inputs)
      (lim task inputs))
    (tools : List (String × Task)) (talk : Conversation σ) :
    IsLimit (fun n => talk.finish (runTool n) tools)
      (talk.finish lim tools) := by
  induction talk with
  | answer result world => exact .const _
  | crash why world => exact .const _
  | callTool name inputs world resume ih =>
    have hanswer : IsLimit (fun n => hear (runTool n) tools name inputs)
        (hear lim tools name inputs) := by
      unfold hear
      cases Table.get? tools name with
      | none => exact .const _
      | some tool => exact (h tool inputs).heard
    -- How the agent goes on may depend on the world that the tool leaves
    -- behind.
    have hrest : ∀ told, IsLimit
        (fun n t => (resume told t.world).finish (runTool n) tools t)
        (fun t => (resume told t.world).finish lim tools t) := fun told =>
      ⟨fun n t => (ih told t.world).below n t, fun t =>
        (ih told t.world).attained t⟩
    have hboth := hanswer.bind hrest
    constructor
    · intro n t hsettles
      rw [finish_callTool, finish_callTool]
      exact hboth.below n _ (hsettles.congr (finish_callTool ..).symm)
    · intro t hsettles
      simp only [finish_callTool]
      exact hboth.attained _ (hsettles.congr (finish_callTool ..).symm)

/-- Asking agents keeps limits: all but the conversation stays the same, and a
sequence keeps limits by `IsLimit.bind`. -/
theorem Prompt.isLimit_generate
    {runTool : Nat → Task → Inputs → Execution σ Response}
    {lim : Task → Inputs → Execution σ Response}
    (h : ∀ task inputs, IsLimit (fun n => runTool n task inputs)
      (lim task inputs))
    (p : Prompt Task) (prepared : Inputs) :
    IsLimit (fun n => p.generate c (runTool n) prepared)
      (p.generate c lim prepared) := by
  unfold generate
  refine .bind (.const _) fun apis => .bind (.const _) fun _ =>
    .bind (.const _) fun talk => ?_
  exact .bind (Conversation.isLimit_finish h _ talk) fun _ => .const _

/-- Executing a prompt keeps limits: its response depends on the answer
alone. -/
theorem Prompt.isLimit_execute
    {runTool : Nat → Task → Inputs → Execution σ Response}
    {lim : Task → Inputs → Execution σ Response}
    (h : ∀ task inputs, IsLimit (fun n => runTool n task inputs)
      (lim task inputs))
    (p : Prompt Task) (prepared given : Inputs) :
    IsLimit (fun n => p.execute c (runTool n) prepared given)
      (p.execute c lim prepared given) := by
  unfold execute
  exact .bind (isLimit_generate h p prepared) fun _ => .const _

/-- Executing a check keeps limits: its verdict depends on the answer
alone. -/
theorem Check.isLimit_execute
    {runTool : Nat → Task → Inputs → Execution σ Response}
    {lim : Task → Inputs → Execution σ Response}
    (h : ∀ task inputs, IsLimit (fun n => runTool n task inputs)
      (lim task inputs))
    (k : Check Task) (prepared given : Inputs) :
    IsLimit (fun n => k.execute c (runTool n) prepared given)
      (k.execute c lim prepared given) := by
  unfold execute
  exact .bind (Prompt.isLimit_generate h k.prompt prepared) fun _ => .const _

end Limits

namespace Workflow

variable {c : Collaborators σ} {w : Workflow Task}

/-- A step depends on how tasks are executed only through the task that it is
`Ready` to run. -/
theorem step_congr {x y : Executor σ} {run : Run} {t : Trace σ}
    (h : ∀ name task t', w.Ready c run t name task t' →
      x run.context task (run.inputsFor task) t'
        = y run.context task (run.inputsFor task) t') :
    w.step c x run t = w.step c y run t := by
  by_cases hready : ∃ name task t', w.Ready c run t name task t'
  · obtain ⟨name, task, t', hready⟩ := hready
    rw [step_of_ready hready, step_of_ready hready, h name task t' hready]
  · -- A step that is not ready ends before it would run a task, whoever
    -- executes it.
    unfold step
    cases hcurrent : run.current with
    | none => rfl
    | some name =>
      dsimp only
      split
      · rfl
      next hgoing =>
        split
        · rfl
        next hbudget =>
          rcases hfind : w.find c name t with ⟨stop | (_ | task), t'⟩
          · rfl
          · rfl
          · dsimp only
            cases hrefusal : refusal? run.context task with
            | some obstacle => rfl
            | none =>
              refine absurd ⟨name, task, t', hcurrent, ?_,
                UInt32.not_le.1 hbudget, hfind, hrefusal⟩ hready
              exact Bool.eq_false_iff.2 hgoing

/-- A step that ends has let the task that it is ready to run end:
`step_of_ready` passes on what stops that. -/
theorem settles_of_ready {x : Executor σ} {run : Run} {t t' : Trace σ}
    {name : String} {task : Task} (hready : w.Ready c run t name task t')
    (h : (w.step c x run t).result ≠ .error .exhausted) :
    (x run.context task (run.inputsFor task)).Settles t' := by
  intro hexhausted
  apply h
  have heq : x run.context task (run.inputsFor task) t'
      = (.error .exhausted, _) :=
    Prod.ext hexhausted rfl
  rw [step_of_ready hready, heq]

/-- A driven run that ends has let its first step end, as `drive` passes on
what stops that. -/
theorem settles_of_drive {x : Executor σ} {bound : Nat} {run : Run}
    {t : Trace σ} (h : (w.drive c x (bound + 1) run).Settles t) :
    (w.step c x run t).result ≠ .error .exhausted := by
  intro hexhausted
  apply h
  rcases heq : w.step c x run t with ⟨result, run', t'⟩
  rw [heq] at hexhausted
  subst hexhausted
  rw [drive]
  dsimp only
  rw [heq]

/-- A larger bound and an execution that settles more often let more runs end,
and change none that ends. By induction on the smaller bound: a drive that
settles has let its first step end, so that step is the same for both
(`step_congr`). -/
theorem drive_approximates {x y : Executor σ} (h : x.Approximates y) :
    ∀ {n m : Nat}, n ≤ m → ∀ run, (w.drive c x n run).Approximates
      (w.drive c y m run) := by
  intro n
  induction n with
  | zero => intro m _ run t hsettles; exact absurd rfl hsettles
  | succ n ih =>
    intro m hle run t hsettles
    obtain ⟨m, rfl⟩ : ∃ k, m = k + 1 := ⟨m - 1, by omega⟩
    have hstep : w.step c y run t = w.step c x run t :=
      step_congr fun name task t' hready =>
        h run.context task (run.inputsFor task) t'
          (settles_of_ready hready (settles_of_drive hsettles))
    unfold Settles at hsettles
    unfold drive at hsettles ⊢
    rw [hstep]
    rcases heq : w.step c x run t with ⟨stop | (_ | _ | obstacle), run', t'⟩
    · rfl
    · rw [heq] at hsettles
      exact ih (Nat.le_of_succ_le_succ hle) run' t' hsettles
    · rfl
    · rfl

/-- Driving a run keeps limits of the ways in which tasks are executed. By
induction on the bound; the first step is that of the limit from some index
on, whether it runs a task (`attained`) or does not (`step_congr`). -/
theorem isLimit_drive {x : Nat → Executor σ} {lim : Executor σ}
    (h : Executor.IsLimit x lim) :
    ∀ bound run, IsLimit (fun n => w.drive c (x n) bound run)
      (w.drive c lim bound run) := by
  intro bound
  induction bound with
  | zero => exact fun run => .const _
  | succ bound ih =>
    intro run
    refine ⟨fun n => drive_approximates
      (fun context task inputs => (h context task inputs).below n)
      (Nat.le_refl _) run, fun t hsettles => ?_⟩
    have hstep : ∃ n, ∀ m, n ≤ m →
        w.step c (x m) run t = w.step c lim run t := by
      by_cases hready : ∃ name task t', w.Ready c run t name task t'
      · obtain ⟨name, task, t', hready⟩ := hready
        obtain ⟨n, hn⟩ := (h run.context task (run.inputsFor task)).attained
          t' (settles_of_ready hready (settles_of_drive hsettles))
        refine ⟨n, fun m hm => ?_⟩
        rw [step_of_ready hready, step_of_ready hready, hn m hm]
      · exact ⟨0, fun m _ => step_congr fun name task t' h =>
          absurd ⟨name, task, t', h⟩ hready⟩
    -- From some execution on the step is that of the limit, and from a later
    -- one on so is the rest.
    obtain ⟨n, hn⟩ := hstep
    unfold Settles at hsettles
    unfold drive at hsettles ⊢
    rcases heq : w.step c lim run t with ⟨stop | (_ | _ | obstacle), run', t'⟩
    · refine ⟨n, fun m hm => ?_⟩
      rw [hn m hm, heq]
    · rw [heq] at hsettles
      obtain ⟨k, hk⟩ := (ih run').attained t' hsettles
      refine ⟨max n k, fun m hm => ?_⟩
      obtain ⟨hnm, hkm⟩ := Nat.max_le.1 hm
      rw [hn m hnm, heq]
      exact hk m hkm
    · refine ⟨n, fun m hm => ?_⟩
      rw [hn m hm, heq]
    · refine ⟨n, fun m hm => ?_⟩
      rw [hn m hm, heq]

end Workflow

namespace Task

variable {c : Collaborators σ}

/-- One layer of an execution keeps limits of the ways in which the tasks
inside are executed: the four branches of `perform`, each of which does. -/
theorem isLimit_perform {x : Nat → Workflow.Executor σ}
    {lim : Workflow.Executor σ} (h : Workflow.Executor.IsLimit x lim)
    (bound : Nat) :
    Workflow.Executor.IsLimit (fun n => perform c (x n) bound)
      (perform c lim bound) := by
  intro context task inputs
  cases hprepare : task.identity.inputSchema.prepare inputs with
  | error missing =>
    simp only [perform_missing hprepare]
    exact .const _
  | ok prepared =>
    cases task with
    | prompt p =>
      simp only [perform_prompt hprepare]
      exact p.isLimit_execute (h context) prepared inputs
    | check k =>
      simp only [perform_check hprepare]
      exact k.isLimit_execute (h context) prepared inputs
    | workflow w =>
      simp only [perform_workflow hprepare, Workflow.execute]
      exact .bind (Workflow.isLimit_drive h bound _) fun _ => .const _

/-- Under a larger bound, one layer of an execution ends as before, if it has
ended before. Only a workflow makes use of the bound
(`Workflow.drive_approximates`). -/
theorem perform_approximates_of_le {x : Workflow.Executor σ} {n m : Nat}
    (hle : n ≤ m) :
    Workflow.Executor.Approximates (perform c x n) (perform c x m) := by
  intro context task inputs
  cases hprepare : task.identity.inputSchema.prepare inputs with
  | error missing =>
    rw [perform_missing hprepare, perform_missing hprepare]
    exact .refl _
  | ok prepared =>
    cases task with
    | prompt p =>
      rw [perform_prompt hprepare, perform_prompt hprepare]
      exact .refl _
    | check k =>
      rw [perform_check hprepare, perform_check hprepare]
      exact .refl _
    | workflow w =>
      rw [perform_workflow hprepare, perform_workflow hprepare]
      have hdrive := Workflow.drive_approximates (c := c) (w := w)
        (fun context task inputs => Approximates.refl (x context task inputs))
        hle
      exact .bind (hdrive _) fun _ => .refl _

/-- One layer of an execution does as another one that settles more often: it
is the first of a sequence with that one for its limit (`IsLimit.pair`). -/
theorem perform_approximates {x y : Workflow.Executor σ}
    (h : x.Approximates y) (bound : Nat) :
    Workflow.Executor.Approximates (perform c x bound)
      (perform c y bound) := by
  intro context task inputs
  have hpair : Workflow.Executor.IsLimit
      (fun n context task inputs => if n = 0 then x context task inputs
        else y context task inputs)
      y := fun context task inputs => .pair (h context task inputs)
  exact (isLimit_perform hpair bound context task inputs).below 0

-- ===================================================== without a bound

/-- An execution that ends before its bound is used up ends in the same way
under every larger bound. By induction on the smaller bound, which is raised
once for the tasks inside (`perform_approximates`) and once for the steps of
the workflow itself (`perform_approximates_of_le`). -/
theorem execute_approximates :
    ∀ {n m : Nat}, n ≤ m → Workflow.Executor.Approximates (execute c n)
      (execute c m) := by
  intro n
  induction n with
  | zero =>
    intro m _ context task inputs t hsettles; exact absurd rfl hsettles
  | succ n ih =>
    intro m hle context task inputs
    obtain ⟨m, rfl⟩ : ∃ k, m = k + 1 := ⟨m - 1, by omega⟩
    have hle := Nat.le_of_succ_le_succ hle
    exact (perform_approximates (ih hle) n context task inputs).trans
      (perform_approximates_of_le hle context task inputs)

open Classical in
variable (c) in
/-- How a task is executed without a bound: as under every bound that is large
enough. Where none is, the execution goes on for ever. -/
noncomputable def unbounded : Workflow.Executor σ :=
  fun context task inputs t =>
  if h : ∃ n, (execute c n context task inputs).Settles t then
    execute c h.choose context task inputs t
  else (.error .exhausted, t)

/-- An execution that ends before its bound is used up is the execution
without a bound, whichever bound `Task.unbounded` has chosen: of the two, the
smaller one settles, and the larger one does the same. -/
theorem unbounded_eq {n : Nat} {context : Context} {task : Task}
    {inputs : Inputs} {t : Trace σ}
    (h : (execute c n context task inputs).Settles t) :
    unbounded c context task inputs t
      = execute c n context task inputs t := by
  have hsome : ∃ n, (execute c n context task inputs).Settles t := ⟨n, h⟩
  unfold unbounded
  rw [dif_pos hsome]
  rcases Nat.le_total n hsome.choose with hle | hle
  · exact execute_approximates hle context task inputs t h
  · exact (execute_approximates hle context task inputs t
      hsome.choose_spec).symm

/-- An execution without a bound ends exactly if it ends before some bound is
used up. Under that bound it is the same (`unbounded_eq`). -/
theorem unbounded_settles_iff {context : Context} {task : Task}
    {inputs : Inputs} {t : Trace σ} :
    (unbounded c context task inputs).Settles t
      ↔ ∃ n, (execute c n context task inputs).Settles t := by
  constructor
  · intro h
    refine Classical.byContradiction fun hnone => h ?_
    unfold unbounded
    rw [dif_neg hnone]
  · rintro ⟨n, h⟩
    exact h.congr (unbounded_eq h)

/-- An execution that goes on for ever counts as one that has used up its
bound at once. -/
theorem unbounded_of_endless {context : Context} {task : Task}
    {inputs : Inputs} {t : Trace σ}
    (h : ¬ (unbounded c context task inputs).Settles t) :
    unbounded c context task inputs t = (.error .exhausted, t) := by
  rw [unbounded_settles_iff] at h
  unfold unbounded
  rw [dif_neg h]

/-- Executions under larger and larger bounds come closer and closer to the
one without a bound: they settle as it does (`unbounded_eq`) and stay that way
(`execute_approximates`). -/
theorem isLimit_unbounded :
    Workflow.Executor.IsLimit (execute c) (unbounded c) := by
  intro context task inputs
  refine ⟨fun n t h => unbounded_eq h, fun t h => ?_⟩
  obtain ⟨n, hn⟩ := unbounded_settles_iff.1 h
  refine ⟨n, fun m hm => ?_⟩
  rw [unbounded_eq hn, execute_approximates hm context task inputs t hn]

/-- An execution without a bound is one layer of an execution, with executions
without a bound inside it. The layer keeps limits (`isLimit_perform`), so it
is reached under some bound. -/
theorem unbounded_eq_perform {bound : Nat} {context : Context} {task : Task}
    {inputs : Inputs} {t : Trace σ}
    (h : (perform c (unbounded c) bound context task inputs).Settles t) :
    unbounded c context task inputs t = perform c (unbounded c) bound context
      task inputs t := by
  obtain ⟨n, hn⟩ :=
    (isLimit_perform isLimit_unbounded bound context task inputs).attained t h
  have hlayer :
      perform c (execute c (max n bound)) bound context task inputs t
        = perform c (unbounded c) bound context task inputs t :=
    hn _ (Nat.le_max_left n bound)
  -- The bound on the steps of the outermost workflow is raised to that of the
  -- layers inside it.
  have hexecute : execute c (max n bound + 1) context task inputs t
      = perform c (unbounded c) bound context task inputs t := by
    rw [← hlayer]
    exact perform_approximates_of_le (Nat.le_max_right n bound) context task
      inputs t (h.congr hlayer)
  rw [← hexecute]
  exact unbounded_eq (h.congr hexecute)

/-- Wherever an execution without a bound ends, it is one layer of an
execution, with executions without a bound inside it and a bound on the steps
of the outermost workflow alone. That bound is the one of
`unbounded_settles_iff`. -/
theorem exists_perform_of_unbounded {context : Context} {task : Task}
    {inputs : Inputs} {t : Trace σ}
    (h : (unbounded c context task inputs).Settles t) :
    ∃ bound, perform c (unbounded c) bound context task inputs t
      = unbounded c context task inputs t := by
  obtain ⟨n, hn⟩ := unbounded_settles_iff.1 h
  cases n with
  | zero => exact absurd rfl hn
  | succ n =>
    refine ⟨n, ?_⟩
    rw [unbounded_eq hn]
    exact (isLimit_perform isLimit_unbounded n context task inputs).below n t
      hn

/-- Where two executions are the same layer of an execution, but for what
becomes of the response, they are so without a bound. Either both of them end,
and then one bound on the outermost steps serves both, or neither of them does
(`unbounded_of_endless`). -/
theorem unbounded_of_perform {context context' : Context} {task task' : Task}
    {inputs inputs' : Inputs} {t : Trace σ} {f : Response → Response}
    (h : ∀ bound, perform c (unbounded c) bound context' task' inputs' t
      = ((perform c (unbounded c) bound context task inputs t).1.map f,
          (perform c (unbounded c) bound context task inputs t).2)) :
    unbounded c context' task' inputs' t
      = ((unbounded c context task inputs t).1.map f,
        (unbounded c context task inputs t).2) := by
  have hsettles : ∀ bound,
      (perform c (unbounded c) bound context' task' inputs').Settles t
      ↔ (perform c (unbounded c) bound context task inputs).Settles t := by
    intro bound
    unfold Settles
    rw [h]
    rcases perform c (unbounded c) bound context task inputs t
      with ⟨stop | r, t'⟩
    · simp [Except.map]
    · simp [Except.map]
  by_cases hends : (unbounded c context task inputs).Settles t
  · obtain ⟨bound, hbound⟩ := exists_perform_of_unbounded hends
    have hperform :
        (perform c (unbounded c) bound context task inputs).Settles t :=
      hends.congr hbound
    rw [unbounded_eq_perform ((hsettles bound).2 hperform), h, hbound]
  · have hends' : ¬ (unbounded c context' task' inputs').Settles t := by
      intro hends'
      obtain ⟨bound, hbound⟩ := exists_perform_of_unbounded hends'
      have hperform := (hsettles bound).1 (hends'.congr hbound)
      exact hends (hperform.congr (unbounded_eq_perform hperform))
    rw [unbounded_of_endless hends, unbounded_of_endless hends']
    rfl

end Task

end TaskRouting
