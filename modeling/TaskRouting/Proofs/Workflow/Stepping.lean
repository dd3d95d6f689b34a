import TaskRouting.Proofs.Settling
import TaskRouting.Workflow.Step
/-!
What one step of a run can do, and what a driven run is made of.

# One step

A step either meets something in its way, and then leaves the run as it is, or
it is `Ready` to run a task. `StepsTo` lists all that a step can come to, one
constructor for each, with everything that was true on the way. It is proved
in both directions: `step_stepsTo` says that a step is one of these, and
`StepsTo.step_eq` that each of these is what the step comes to, so no two are
open to one run. Every statement about steps reads its cases off there and
never opens `step` again.

The order in which `step` looks for obstacles is in the hypotheses of the
constructors: each one has those of the checks before it. `step_of_budget` and
`step_of_ready` are the two places to which these checks lead, the lookup and
the execution of the task.

# Driven runs

A run that is driven passes through the runs to which steps that go on lead
(`Passes`), and ends with one more step that does not go on (`of_drive_ok`).
If the bound gives out instead, then a task that was run has used it up, or as
many steps have been taken as the bound allows, and each of them has put one
response behind the run (`of_drive_exhausted`). Both are inductions on the
bound, which follow `drive`.
-/

namespace TaskRouting

/-- The inputs that a task is given in a run. -/
def Run.inputsFor (r : Run) (task : Task) : Inputs :=
  task.identity.inputSchema.select r.environment

namespace Workflow

open Execution

-- ================================================= which tasks may run

/-- A task may run in a context: it is no workflow, or it is one that is not
under way or may run inside itself, and the workflows under way leave room for
it. -/
def Admits (context : Context) (task : Task) : Prop :=
  ∀ nested, task = .workflow nested →
    (nested.key ∈ context.active → nested.recursive = true)
      ∧ context.depth < maxCallDepth

/-- The condition under which `refusal?` sees a recursion, read as a
proposition: exactly workflows that do not recur are refused while they are
under way. -/
theorem isActive_and_not_recursive {context : Context}
    {nested : Workflow Task} :
    (context.isActive nested.key && !nested.recursive) = true
      ↔ nested.key ∈ context.active ∧ nested.recursive = false := by
  rw [Bool.and_eq_true, Bool.not_eq_true', Context.isActive,
    List.contains_iff_mem]

/-- What `refusal?` refuses is a workflow, for one of two reasons; the depth
counts only where recursion is no reason. -/
theorem of_refusal? {context : Context} {task : Task} {obstacle : Obstacle}
    (h : refusal? context task = some obstacle) :
    ∃ nested, task = .workflow nested
      ∧ ((nested.key ∈ context.active ∧ nested.recursive = false
            ∧ obstacle = .recursion nested.key)
        ∨ ((nested.key ∈ context.active → nested.recursive = true)
            ∧ maxCallDepth ≤ context.depth
            ∧ obstacle = .depth nested.key)) := by
  cases task with
  | prompt p => cases h
  | check k => cases h
  | workflow nested =>
    refine ⟨nested, rfl, ?_⟩
    unfold refusal? at h
    dsimp only at h
    split at h
    next hactive =>
      cases h
      obtain ⟨hactive, hflat⟩ := isActive_and_not_recursive.1 hactive
      exact Or.inl ⟨hactive, hflat, rfl⟩
    next hactive =>
      split at h
      next hdeep =>
        cases h
        refine Or.inr ⟨fun hmem => ?_, hdeep, rfl⟩
        exact eq_true_of_ne_false fun hflat =>
          hactive (isActive_and_not_recursive.2 ⟨hmem, hflat⟩)
      next => cases h

/-- A task is refused before it runs, so never for want of a route:
`of_refusal?` knows of no such reason. -/
theorem refusal?_ne_noRoute {context : Context} {task : Task} {code : UInt32}
    {name : String} : refusal? context task ≠ some (.noRoute code name) := by
  intro h
  obtain ⟨nested, -, ⟨-, -, hobstacle⟩ | ⟨-, -, hobstacle⟩⟩ := of_refusal? h
  · cases hobstacle
  · cases hobstacle

/-- What is not refused may run, and nothing else: `Admits` is the condition
that `refusal?` decides. -/
theorem refusal?_eq_none_iff {context : Context} {task : Task} :
    refusal? context task = none ↔ Admits context task := by
  constructor
  · intro h nested heq
    subst heq
    unfold refusal? at h
    dsimp only at h
    split at h
    · cases h
    next hactive =>
      split at h
      · cases h
      next hdeep =>
        refine ⟨fun hmem => ?_, Nat.lt_of_not_le hdeep⟩
        exact eq_true_of_ne_false fun hflat =>
          hactive (isActive_and_not_recursive.2 ⟨hmem, hflat⟩)
  · intro h
    cases hrefusal : refusal? context task with
    | none => rfl
    | some obstacle =>
      obtain ⟨nested, rfl, ⟨hactive, hflat, -⟩ | ⟨-, hdeep, -⟩⟩ :=
        of_refusal? hrefusal
      · rw [(h nested rfl).1 hactive] at hflat
        cases hflat
      · exact absurd (h nested rfl).2 (Nat.not_lt.2 hdeep)

variable {σ : Type} (c : Collaborators σ) (execute : Executor σ)
  (w : Workflow Task)

-- ============================================================ one step

/-- With some attempt left, the number of retry routes taken is counted as it
is: it is below `allowed`, so adding one does not wrap around. -/
theorem toNat_taken {taken allowed : UInt32} {isRetry : Bool}
    (h : taken < allowed) :
    (if isRetry then taken + 1 else taken).toNat = taken.toNat
      + if isRetry then 1 else 0 := by
  cases isRetry with
  | false => rfl
  | true =>
    show (taken + 1).toNat = taken.toNat + 1
    have hlt : taken.toNat < allowed.toNat := UInt32.lt_iff_toNat_lt.1 h
    have hmax : allowed.toNat < 2 ^ 32 := allowed.toNat_lt
    have hone : (1 : UInt32).toNat = 1 := rfl
    rw [UInt32.toNat_add]
    omega

/-- A step is about to run a task under a name: nothing stands in its way. The
lookup of the name leads from the first trace to the second. -/
structure Ready (run : Run) (t : Trace σ) (name : String) (task : Task)
    (t' : Trace σ) : Prop where
  current : run.current = some name
  going : run.context.isCancelled c t.world = false
  budget : run.attempts < w.maxAttempts
  found : w.find c name t = (.ok (some task), t')
  admitted : refusal? run.context task = none

/-- All that a step can come to. -/
inductive StepsTo (run : Run) (t : Trace σ) : Stepped σ → Prop where
  | completed (current : run.current = none) :
      StepsTo run t ⟨.ok .completed, run, t⟩
  | cancelled {name : String} (current : run.current = some name)
      (cancelled : run.context.isCancelled c t.world = true) :
      StepsTo run t ⟨.ok (.failed .cancelled), run, t⟩
  | attempts {name : String} (current : run.current = some name)
      (going : run.context.isCancelled c t.world = false)
      (spent : w.maxAttempts ≤ run.attempts) :
      StepsTo run t ⟨.ok (.failed (.attempts run.attempts w.maxAttempts)),
        run, t⟩
  | lookupStopped {name : String} {stop : Stop} {t' : Trace σ}
      (current : run.current = some name)
      (going : run.context.isCancelled c t.world = false)
      (budget : run.attempts < w.maxAttempts)
      (stopped : w.find c name t = (.error stop, t')) :
      StepsTo run t ⟨.error stop, run, t'⟩
  | unresolvable {name : String} {t' : Trace σ}
      (current : run.current = some name)
      (going : run.context.isCancelled c t.world = false)
      (budget : run.attempts < w.maxAttempts)
      (unknown : w.find c name t = (.ok none, t')) :
      StepsTo run t ⟨.ok (.failed (.unresolvable name)), run, t'⟩
  | refused {name : String} {task : Task} {obstacle : Obstacle} {t' : Trace σ}
      (current : run.current = some name)
      (going : run.context.isCancelled c t.world = false)
      (budget : run.attempts < w.maxAttempts)
      (found : w.find c name t = (.ok (some task), t'))
      (refused : refusal? run.context task = some obstacle) :
      StepsTo run t ⟨.ok (.failed obstacle), run, t'⟩
  | taskStopped {name : String} {task : Task} {stop : Stop} {t' t'' : Trace σ}
      (ready : w.Ready c run t name task t')
      (stopped : execute run.context task (run.inputsFor task) t'
        = (.error stop, t'')) :
      StepsTo run t ⟨.error stop, run, t''⟩
  | unrouted {name : String} {task : Task} {response : Response}
      {t' t'' : Trace σ} (ready : w.Ready c run t name task t')
      (ran : execute run.context task (run.inputsFor task) t'
        = (.ok response, t''))
      (unrouted : w.route? name response.code = none) :
      StepsTo run t ⟨.ok (.failed (.noRoute response.code name)),
        run.record name response, t''⟩
  | routed {name : String} {task : Task} {response : Response} {route : Route}
      {t' t'' : Trace σ} (ready : w.Ready c run t name task t')
      (ran : execute run.context task (run.inputsFor task) t'
        = (.ok response, t''))
      (routed : w.route? name response.code = some route) :
      StepsTo run t ⟨.ok .goesOn,
        (run.record name response).follow route, t''⟩

variable {c execute w}

/-- With no obstacle before the lookup, a step is decided by what the lookup
finds: the rest of `step`, without its first three checks. -/
theorem step_of_budget {run : Run} {t : Trace σ} {name : String}
    (hcurrent : run.current = some name)
    (hgoing : run.context.isCancelled c t.world = false)
    (hbudget : run.attempts < w.maxAttempts) :
    w.step c execute run t
      = match w.find c name t with
        | (.error stop, t') => ⟨.error stop, run, t'⟩
        | (.ok none, t') => ⟨.ok (.failed (.unresolvable name)), run, t'⟩
        | (.ok (some task), t') =>
          match refusal? run.context task with
          | some obstacle => ⟨.ok (.failed obstacle), run, t'⟩
          | none =>
            match execute run.context task (run.inputsFor task) t' with
            | (.error stop, t'') => ⟨.error stop, run, t''⟩
            | (.ok response, t'') =>
              ⟨.ok (w.advance name response run).1,
                (w.advance name response run).2, t''⟩ := by
  have hunspent : ¬ w.maxAttempts ≤ run.attempts := UInt32.not_le.2 hbudget
  unfold step
  rw [hcurrent]
  dsimp only
  rw [hgoing, if_neg Bool.false_ne_true, if_neg hunspent]
  rfl

/-- A step that is `Ready` runs its task and takes the route for the
result. -/
theorem step_of_ready {run : Run} {t t' : Trace σ} {name : String}
    {task : Task} (h : w.Ready c run t name task t') :
    w.step c execute run t
      = match execute run.context task (run.inputsFor task) t' with
        | (.error stop, t'') => ⟨.error stop, run, t''⟩
        | (.ok response, t'') =>
          ⟨.ok (w.advance name response run).1,
            (w.advance name response run).2, t''⟩ := by
  rw [step_of_budget h.current h.going h.budget, h.found]
  dsimp only
  rw [h.admitted]

/-- A step goes on where its task responds and there is a route for the
result, since `step_of_ready` then leaves `advance` only that to do. -/
theorem step_of_routed {run : Run} {t t' t'' : Trace σ} {name : String}
    {task : Task} {response : Response} {route : Route}
    (ready : w.Ready c run t name task t')
    (ran : execute run.context task (run.inputsFor task) t'
      = (.ok response, t''))
    (routed : w.route? name response.code = some route) :
    w.step c execute run t = ⟨.ok .goesOn,
      (run.record name response).follow route, t''⟩ := by
  rw [step_of_ready ready, ran]
  dsimp only [advance]
  rw [routed]

/-- A step comes to one of the things that steps can come to. The cases are
taken in the order in which `step` asks: the current name, the wish to stop,
the budget, the lookup, the refusal, the task, the route. -/
theorem step_stepsTo (run : Run) (t : Trace σ) :
    w.StepsTo c execute run t (w.step c execute run t) := by
  -- Every case first says what the step is there, and then names the
  -- constructor; the facts found on the way are its arguments.
  cases hcurrent : run.current with
  | none =>
    have hstep : w.step c execute run t = ⟨.ok .completed, run, t⟩ := by
      unfold step
      rw [hcurrent]
    rw [hstep]
    exact .completed hcurrent
  | some name =>
    cases hcancelled : run.context.isCancelled c t.world with
    | true =>
      have hstep : w.step c execute run t
          = ⟨.ok (.failed .cancelled), run, t⟩ := by
        unfold step
        rw [hcurrent]
        dsimp only
        rw [if_pos hcancelled]
      rw [hstep]
      exact .cancelled hcurrent hcancelled
    | false =>
      by_cases hspent : w.maxAttempts ≤ run.attempts
      · have hstep : w.step c execute run t
            = ⟨.ok (.failed (.attempts run.attempts w.maxAttempts)), run,
              t⟩ := by
          unfold step
          rw [hcurrent]
          dsimp only
          rw [hcancelled, if_neg Bool.false_ne_true, if_pos hspent]
        rw [hstep]
        exact .attempts hcurrent hcancelled hspent
      · have hbudget : run.attempts < w.maxAttempts := UInt32.not_le.1 hspent
        rcases hfind : w.find c name t with ⟨stop | found, t'⟩
        · rw [step_of_budget hcurrent hcancelled hbudget, hfind]
          exact .lookupStopped hcurrent hcancelled hbudget hfind
        cases found with
        | none =>
          rw [step_of_budget hcurrent hcancelled hbudget, hfind]
          exact .unresolvable hcurrent hcancelled hbudget hfind
        | some task =>
          cases hrefusal : refusal? run.context task with
          | some obstacle =>
            rw [step_of_budget hcurrent hcancelled hbudget, hfind]
            dsimp only
            rw [hrefusal]
            exact .refused hcurrent hcancelled hbudget hfind hrefusal
          | none =>
            have hready : w.Ready c run t name task t' :=
              ⟨hcurrent, hcancelled, hbudget, hfind, hrefusal⟩
            rw [step_of_ready hready]
            rcases hran : execute run.context task
              (run.inputsFor task) t' with
              ⟨stop | response, t''⟩
            · exact .taskStopped hready hran
            · dsimp only [advance]
              cases hroute : w.route? name response.code with
              | none => exact .unrouted hready hran hroute
              | some route => exact .routed hready hran hroute

/-- What a step can come to, it comes to: no two cases are open to one run.
Together with `step_stepsTo` this makes `StepsTo` another way to write
`step`. -/
theorem StepsTo.step_eq {run : Run} {t : Trace σ} {stepped : Stepped σ}
    (h : w.StepsTo c execute run t stepped) :
    w.step c execute run t = stepped := by
  cases h with
  | completed current =>
    unfold step
    rw [current]
  | cancelled current cancelled =>
    unfold step
    rw [current]
    dsimp only
    rw [if_pos cancelled]
  | attempts current going spent =>
    unfold step
    rw [current]
    dsimp only
    rw [going, if_neg Bool.false_ne_true, if_pos spent]
  | lookupStopped current going budget stopped =>
    rw [step_of_budget current going budget, stopped]
  | unresolvable current going budget unknown =>
    rw [step_of_budget current going budget, unknown]
  | refused current going budget found refused =>
    rw [step_of_budget current going budget, found]
    dsimp only
    rw [refused]
  | taskStopped ready stopped => rw [step_of_ready ready, stopped]
  | unrouted ready ran unrouted =>
    rw [step_of_ready ready, ran]
    dsimp only [advance]
    rw [unrouted]
  | routed ready ran routed => exact step_of_routed ready ran routed

/-- A step goes on exactly by running a task and taking a route: of all the
constructors of `StepsTo`, only `routed` goes on. -/
theorem of_step_goesOn {run run' : Run} {t t'' : Trace σ}
    (h : w.step c execute run t = ⟨.ok .goesOn, run', t''⟩) :
    ∃ name task response route t', w.Ready c run t name task t'
      ∧ execute run.context task (run.inputsFor task) t' = (.ok response, t'')
      ∧ w.route? name response.code = some route
      ∧ run' = (run.record name response).follow route := by
  have hcases : w.StepsTo c execute run t (w.step c execute run t) :=
    step_stepsTo run t
  rw [h] at hcases
  cases hcases with
  | routed ready ran routed => exact ⟨_, _, _, _, _, ready, ran, routed, rfl⟩

/-- A sub-task of the workflow is found by `own?`, without asking anybody. -/
theorem find_of_own {name : String} {task : Task}
    (hown : w.own? name = some task) (t : Trace σ) :
    w.find c name t = (.ok (some task), t) := by
  unfold find
  rw [hown]
  rfl

/-- Finding the task of a name uses up no bound: it is the workflow's own, or
one call to the lookup (`consult_settles`). -/
theorem find_settles {name : String} {t : Trace σ} :
    (w.find c name).Settles t := by
  unfold find
  cases w.own? name with
  | some task => exact settles_of_ok rfl
  | none =>
    refine Settles.bind consult_settles fun answer t' _ => ?_
    cases answer with
    | ok found => exact settles_of_ok rfl
    | error error => exact fun hexhausted => nomatch hexhausted

/-- A step runs out of its bound only if the task that it runs does; the
lookup, which could stop the step as well, settles (`find_settles`). -/
theorem of_step_exhausted {run run' : Run} {t t'' : Trace σ}
    (h : w.step c execute run t = ⟨.error .exhausted, run', t''⟩) :
    ∃ name task t', w.Ready c run t name task t'
      ∧ execute run.context task (run.inputsFor task) t'
        = (.error .exhausted, t'') := by
  have hcases : w.StepsTo c execute run t (w.step c execute run t) :=
    step_stepsTo run t
  rw [h] at hcases
  cases hcases with
  | lookupStopped _ _ _ stopped =>
    exact absurd (congrArg Prod.fst stopped) find_settles
  | taskStopped ready stopped => exact ⟨_, _, _, ready, stopped⟩

-- ========================================================= driven runs

variable (c execute w) in
/-- The runs that a run passes through while it is driven: those to which
steps that go on lead. -/
inductive Passes (first : Run) (t₀ : Trace σ) : Run → Trace σ → Prop where
  | start : Passes first t₀ first t₀
  | step {run run' : Run} {t t' : Trace σ} (passed : Passes first t₀ run t)
      (goesOn : w.step c execute run t = ⟨.ok .goesOn, run', t'⟩) :
      Passes first t₀ run' t'

/-- What is passed through after a first step is passed through from before
it. `Passes` grows at its end, so a step put in front needs an induction. -/
theorem Passes.after {first run run' : Run} {t₀ t t' : Trace σ}
    (hstep : w.step c execute first t₀ = ⟨.ok .goesOn, run, t⟩)
    (h : w.Passes c execute run t run' t') :
    w.Passes c execute first t₀ run' t' := by
  induction h with
  | start => exact .step .start hstep
  | step _ goesOn ih => exact .step ih goesOn

/-- A run is driven on from where a step that goes on leads, with one less of
the bound left for `drive`. -/
theorem drive_of_goesOn {bound : Nat} {run run' : Run} {t t' : Trace σ}
    (h : w.step c execute run t = ⟨.ok .goesOn, run', t'⟩) :
    w.drive c execute (bound + 1) run t
      = w.drive c execute bound run' t' := by
  rw [drive]
  dsimp only
  rw [h]

/-- A driven run that ends has passed through a run whose next step did not go
on. By induction on the bound: one step, and then the rest of the drive from
where the step has led, put together by `Passes.after`. -/
theorem of_drive_ok {outcome : Outcome} {run' : Run} {t' : Trace σ} :
    ∀ {bound : Nat} {run : Run} {t : Trace σ},
      w.drive c execute bound run t = (.ok (outcome, run'), t') →
      ∃ last tₗ, w.Passes c execute run t last tₗ
        ∧ w.step c execute last tₗ = ⟨.ok outcome, run', t'⟩
        ∧ outcome ≠ .goesOn := by
  intro bound
  induction bound with
  | zero => intro run t h; cases h
  | succ n ih =>
    intro run t h
    unfold drive at h
    rcases hstep : w.step c execute run t with ⟨stop | out, next, tₙ⟩
    · rw [hstep] at h
      cases h
    · rw [hstep] at h
      cases out with
      | goesOn =>
        obtain ⟨last, tₗ, hpasses, hlast, hne⟩ := ih h
        exact ⟨last, tₗ, hpasses.after hstep, hlast, hne⟩
      | completed =>
        cases h
        exact ⟨run, t, .start, hstep, Outcome.noConfusion⟩
      | failed obstacle =>
        cases h
        exact ⟨run, t, .start, hstep, Outcome.noConfusion⟩

/-- A driven run that runs out of its bound has either run a task that did, or
taken as many steps as the bound allows. The steps are counted by the
responses behind the run, since every step that goes on records one
(`of_step_goesOn`). By induction on the bound. -/
theorem of_drive_exhausted {t' : Trace σ} :
    ∀ {bound : Nat} {run : Run} {t : Trace σ},
      w.drive c execute bound run t = (.error .exhausted, t') →
      ∃ last tₗ, w.Passes c execute run t last tₗ
        ∧ ((∃ name task tₙ, w.Ready c last tₗ name task tₙ
            ∧ execute last.context task (last.inputsFor task) tₙ
              = (.error .exhausted, t'))
          ∨ last.past.length = run.past.length + bound) := by
  intro bound
  induction bound with
  | zero => intro run t _; exact ⟨run, t, .start, Or.inr rfl⟩
  | succ n ih =>
    intro run t h
    unfold drive at h
    rcases hstep : w.step c execute run t with ⟨stop | out, next, tₙ⟩
    · rw [hstep] at h
      cases h
      exact ⟨run, t, .start, Or.inl (of_step_exhausted hstep)⟩
    · rw [hstep] at h
      cases out with
      | goesOn =>
        -- The step has put one response more behind the run, and used up one
        -- step of the bound.
        obtain ⟨last, tₗ, hpasses, hlast⟩ := ih h
        refine ⟨last, tₗ, hpasses.after hstep, hlast.imp_right
          fun hlength => ?_⟩
        obtain ⟨name, task, response, route, -, -, -, -, rfl⟩ :=
          of_step_goesOn hstep
        have hpast : ((run.record name response).follow route).past.length
            = run.past.length + 1 := rfl
        omega
      | completed => cases h
      | failed obstacle => cases h

end Workflow

end TaskRouting
