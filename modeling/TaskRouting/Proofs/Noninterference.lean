import Mathlib.Data.List.Basic
import TaskRouting.Proofs.CallTree
import TaskRouting.Proofs.Setting
import TaskRouting.Proofs.Workflow.TableWalk
/-!
Inputs that no sub-task declares do not show.

# What is handed on

A workflow hands its inputs to nobody. They go into the environment of its
run, and each sub-task is given the part of the environment that it declares
(`InputSchema.select_congr`). So two runs that differ in nothing but what
their environments hold under other keys do the same. The one thing through
which everything would show is a sub-task that declares nothing, which is
given the whole environment.

# Environments that agree

`Table.AgreeOn` relates environments that hold the same under certain keys.
Recording an output keeps it (`Table.AgreeOn.insert`), and so does filling in
defaults, which does not mix keys: whether a property is absent is a matter of
that property alone (`InputSchema.agreeOn_fill`,
`InputSchema.agreeOn_prepare`).

# Runs side by side

`Run.amid` puts a run into another environment, and `Workflow.ReadsOnly` says
that the task which is next reads only what the two environments have in
common. Under this a step does the same in both (`step_amid`, one case for
each way in which a step can end), and by induction a driven run does
(`drive_amid`). What a response shows of the environment is nothing
(`finish_amid`); hence `undeclared_inputs_do_not_show`.
-/

namespace TaskRouting

open Execution

-- ============================================= environments that agree

/-- Two maps hold the same under certain keys. -/
def Table.AgreeOn {κ α : Type} [DecidableEq κ] (keys : κ → Prop)
    (t t' : Table κ α) : Prop :=
  ∀ k, keys k → t.get? k = t'.get? k

section Agreement

variable {keys : String → Prop} {e e' : Inputs}

/-- Tables that agree do so after the same entry is put into both. -/
theorem Table.AgreeOn.insert (h : Table.AgreeOn keys e e') (key : String)
    (value : Json) :
    Table.AgreeOn keys (Table.insert e key value)
      (Table.insert e' key value) := by
  intro k hk
  by_cases hkey : k = key
  · simp [Table.get?_insert, hkey]
  · simp [Table.get?_insert, hkey, h k hk]

namespace InputSchema

/-- `fill` touches the key of its property only, and looks at nothing else, so
tables that agree go on agreeing. -/
theorem agreeOn_fill (h : Table.AgreeOn keys e e')
    (property : String × Parameter) :
    Table.AgreeOn keys (fill e property) (fill e' property) := by
  intro k hk
  have hsame := h k hk
  obtain ⟨name, parameter⟩ := property
  unfold fill
  cases parameter.default with
  | none => exact hsame
  | some default =>
    by_cases hname : k = name
    · subst hname
      -- Whether the key is absent is a matter of what it holds.
      have habsent : absent e k = absent e' k := by
        unfold absent
        rw [hsame]
      dsimp only
      rw [habsent]
      split
      · simp [Table.get?_insert]
      · exact hsame
    · have hkept : ∀ inputs : Inputs,
          Table.get? (if absent inputs name then
            Table.insert inputs name default else inputs) k
            = Table.get? inputs k := by
        intro inputs
        split
        · simp [Table.get?_insert, hname]
        · rfl
      dsimp only
      rw [hkept, hkept, hsame]

/-- Inputs that are accepted are prepared by `fill`, one property after the
other. -/
theorem eq_foldl_fill_of_prepare {s : InputSchema} {inputs prepared : Inputs}
    (h : s.prepare inputs = .ok prepared) :
    prepared = s.properties.foldl fill inputs := by
  unfold prepare at h
  split at h
  · exact (Except.ok.inj h).symm
  · cases h

/-- Inputs that agree do so after they have been prepared, by induction on the
properties, with `agreeOn_fill` for each of them. -/
theorem agreeOn_prepare {s : InputSchema}
    {inputs inputs' prepared prepared' : Inputs}
    (h : Table.AgreeOn keys inputs inputs')
    (haccepts : s.prepare inputs = .ok prepared)
    (haccepts' : s.prepare inputs' = .ok prepared') :
    Table.AgreeOn keys prepared prepared' := by
  rw [eq_foldl_fill_of_prepare haccepts, eq_foldl_fill_of_prepare haccepts']
  clear haccepts haccepts'
  induction s.properties generalizing inputs inputs' with
  | nil => exact h
  | cons property rest ih => exact ih (agreeOn_fill h property)

/-- A schema that declares something selects by its own keys, so it selects
the same from tables that agree on these. -/
theorem select_congr {s : InputSchema} (hdeclares : s.isOpen = false)
    (h : Table.AgreeOn (· ∈ s.properties.keys) e e') :
    s.select e = s.select e' := by
  unfold select
  rw [hdeclares, if_neg Bool.false_ne_true, if_neg Bool.false_ne_true]
  apply List.filterMap_congr
  intro key hkey
  rw [h key hkey]

end InputSchema

end Agreement

-- ========================================== runs in other environments

/-- The same run in another environment. -/
def Run.amid (r : Run) (environment : Inputs) : Run := { r with environment }

/-- A task is given the same in two environments if it declares what it reads,
and they agree on that (`InputSchema.select_congr`). -/
theorem Run.inputsFor_amid {run : Run} {environment : Inputs} {task : Task}
    {keys : String → Prop}
    (hagree : Table.AgreeOn keys run.environment environment)
    (hdeclares : task.identity.inputSchema.isOpen = false)
    (hkeys : ∀ key ∈ Table.keys task.identity.inputSchema.properties,
      keys key) :
    (run.amid environment).inputsFor task = run.inputsFor task :=
  (InputSchema.select_congr hdeclares fun key hkey =>
    hagree key (hkeys key hkey)).symm

namespace Workflow

variable {σ : Type} {c : Collaborators σ} {x : Executor σ} {w : Workflow Task}
  {keys : String → Prop}

/-- The response that `finish` makes of a run shows nothing of its
environment, and of its inputs what is given. -/
theorem finish_amid (now : Instant) (run : Run) (environment : Inputs)
    (outcome : Outcome) (given given' : Inputs) :
    w.finish now (run.amid environment) outcome given'
      = { w.finish now run outcome given with inputs := given' } := by
  cases outcome with
  | goesOn => rfl
  | completed => rfl
  | failed obstacle => rfl

theorem Ready.amid {run : Run} {t t' : Trace σ} {name : String} {task : Task}
    (h : w.Ready c run t name task t') (environment : Inputs) :
    w.Ready c (run.amid environment) t name task t' :=
  ⟨h.current, h.going, h.budget, h.found, h.admitted⟩

/-- A task that a run is `Ready` to run declares what it reads, and that is
under certain keys. -/
def ReadsOnly (c : Collaborators σ) (w : Workflow Task) (keys : String → Prop)
    (run : Run) (t : Trace σ) : Prop :=
  ∀ name task t', w.Ready c run t name task t' →
    task.identity.inputSchema.isOpen = false
    ∧ ∀ key ∈ Table.keys task.identity.inputSchema.properties, keys key

/-- A step does the same in another environment, if the task that it runs
reads only what the two have in common. Then they have that in common
afterwards, too. Only a task that is run looks at the environment, and only
its response is recorded in it; in all other cases of `StepsTo` the
constructor applies as it stands. -/
theorem step_amid {run : Run} {t : Trace σ}
    (hreads : w.ReadsOnly c keys run t) {environment : Inputs}
    (hagree : Table.AgreeOn keys run.environment environment) :
    ∃ later, Table.AgreeOn keys (w.step c x run t).run.environment later
      ∧ w.step c x (run.amid environment) t
        = ⟨(w.step c x run t).result, (w.step c x run t).run.amid later,
          (w.step c x run t).trace⟩ := by
  -- The task is given the same in both environments, so it ends the same.
  have hran : ∀ {name task t' ended}, w.Ready c run t name task t' →
      x run.context task (run.inputsFor task) t' = ended →
      x run.context task ((run.amid environment).inputsFor task) t'
        = ended := by
    intro name task t' ended hready hran
    obtain ⟨hdeclares, hkeys⟩ := hreads name task t' hready
    rw [Run.inputsFor_amid hagree hdeclares hkeys, hran]
  have hrecorded : ∀ name response, Table.AgreeOn keys
      (run.record name response).environment
      ((run.amid environment).record name response).environment :=
    fun name response => hagree.insert _ _
  have hcases : w.StepsTo c x run t (w.step c x run t) := step_stepsTo run t
  generalize w.step c x run t = stepped at hcases
  cases hcases with
  | completed current =>
    refine ⟨environment, hagree, StepsTo.step_eq ?_⟩
    exact .completed current
  | cancelled current cancelled =>
    refine ⟨environment, hagree, StepsTo.step_eq ?_⟩
    exact .cancelled current cancelled
  | attempts current going spent =>
    refine ⟨environment, hagree, StepsTo.step_eq ?_⟩
    exact .attempts current going spent
  | lookupStopped current going budget stopped =>
    refine ⟨environment, hagree, StepsTo.step_eq ?_⟩
    exact .lookupStopped current going budget stopped
  | unresolvable current going budget unknown =>
    refine ⟨environment, hagree, StepsTo.step_eq ?_⟩
    exact .unresolvable current going budget unknown
  | refused current going budget found refused =>
    refine ⟨environment, hagree, StepsTo.step_eq ?_⟩
    exact .refused current going budget found refused
  | taskStopped ready stopped =>
    refine ⟨environment, hagree, StepsTo.step_eq ?_⟩
    exact .taskStopped (ready.amid environment) (hran ready stopped)
  | @unrouted name task response t' t'' ready ran unrouted =>
    refine ⟨_, hrecorded name response, StepsTo.step_eq ?_⟩
    exact .unrouted (ready.amid environment) (hran ready ran) unrouted
  | @routed name task response route t' t'' ready ran routed =>
    refine ⟨_, hrecorded name response, StepsTo.step_eq ?_⟩
    exact .routed (ready.amid environment) (hran ready ran) routed

/-- A driven run does the same in another environment, if whatever it gets
ready to run reads only what the two have in common. By induction on the
bound: `step_amid` gives two runs that agree again, and what is passed after
the first step has been passed from the beginning (`Passes.after`). -/
theorem drive_amid :
    ∀ {bound : Nat} {run : Run} {t : Trace σ} {environment : Inputs},
    (∀ run' t', w.Passes c x run t run' t' → w.ReadsOnly c keys run' t') →
    Table.AgreeOn keys run.environment environment →
    ∃ later, w.drive c x bound (run.amid environment) t
      = ((w.drive c x bound run t).1.map fun ended =>
            (ended.1, ended.2.amid later),
          (w.drive c x bound run t).2) := by
  intro bound
  induction bound with
  | zero =>
    intro run t environment _ _
    exact ⟨environment, rfl⟩
  | succ bound ih =>
    intro run t environment hreads hagree
    obtain ⟨later, hagree', hstep⟩ :=
      step_amid (x := x) (hreads run t .start) hagree
    unfold drive
    rw [hstep]
    rcases hfirst : w.step c x run t
      with ⟨stop | (_ | _ | obstacle), run', t'⟩
    · exact ⟨later, rfl⟩
    · rw [hfirst] at hagree'
      apply ih _ hagree'
      intro run'' t'' hpassed
      exact hreads run'' t'' (hpassed.after hfirst)
    · exact ⟨later, rfl⟩
    · exact ⟨later, rfl⟩

end Workflow

-- ===================================================== whole workflows

/-- What a workflow runs is a sub-task of its own, or the answer to a lookup
(`Workflow.finds_of_find`). -/
theorem Activation.RunsSubtask.owned_or_found {σ : Type} {c : Collaborators σ}
    {x : Workflow.Executor σ} {a b : Activation σ} (h : a.RunsSubtask c x b)
    {w : Workflow Task} (hworkflow : a.task = .workflow w) :
    b.task ∈ Table.values w.tasks
      ∨ ∃ name world, (c.lookup name world).1 = .ok (.ok (some b.task)) := by
  cases h with
  | @mk w' prepared run t t' name task enters passed ready =>
    obtain rfl : w' = w := by
      rw [enters.1] at hworkflow
      cases hworkflow
      rfl
    cases Workflow.finds_of_find ready.found with
    | own own => exact .inl (List.mem_map.2 ⟨_, Table.mem_of_get? own, rfl⟩)
    | looked foreign answered =>
      exact .inr ⟨name, t.world,
        congrArg Prod.fst (answer_of_consult answered).1⟩

namespace Task

variable {σ : Type} {c : Collaborators σ}

/-- A workflow does the same on two inputs that agree on whatever its
sub-tasks declare, provided that each of them declares something: it makes the
same calls and leaves the collaborators in the same state, and it is stopped
in the same way or responds alike, but for the inputs that the response shows.

The keys on which the two inputs agree are the invariant; that the sub-tasks
read no others is what `hdeclare` and `hagree` say of the branches to them. -/
theorem undeclared_inputs_do_not_show {w : Workflow Task} {context : Context}
    {inputs inputs' prepared prepared' : Inputs} {t : Trace σ}
    (haccepts : w.identity.inputSchema.prepare inputs = .ok prepared)
    (haccepts' : w.identity.inputSchema.prepare inputs' = .ok prepared')
    (hdeclare : ∀ b, Activation.RunsSubtask c (unbounded c)
      ⟨context, .workflow w, inputs, t⟩ b →
      b.task.identity.inputSchema.isOpen = false)
    (hagree : ∀ b, Activation.RunsSubtask c (unbounded c)
      ⟨context, .workflow w, inputs, t⟩ b →
      ∀ key ∈ Table.keys b.task.identity.inputSchema.properties,
        Table.get? inputs key = Table.get? inputs' key) :
    unbounded c context (.workflow w) inputs' t
      = ((unbounded c context (.workflow w) inputs t).1.map fun r =>
            { r with inputs := inputs' },
          (unbounded c context (.workflow w) inputs t).2) := by
  apply unbounded_of_perform
  intro bound
  let keys : String → Prop :=
    fun key => Table.get? inputs key = Table.get? inputs' key
  have hprepared : Table.AgreeOn keys prepared prepared' :=
    InputSchema.agreeOn_prepare (fun key hkey => hkey) haccepts haccepts'
  have hreads : ∀ run t',
      w.Passes c (unbounded c) (w.newRun context prepared) t run t' →
        w.ReadsOnly c keys run t' := by
    intro run t' passed name task t'' ready
    have hruns : Activation.RunsSubtask c (unbounded c)
        ⟨context, .workflow w, inputs, t⟩
        ⟨run.context, task, run.inputsFor task, t''⟩ :=
      .mk ⟨rfl, haccepts⟩ passed ready
    exact ⟨hdeclare _ hruns, hagree _ hruns⟩
  obtain ⟨later, hdrive⟩ :
      ∃ later, w.drive c (unbounded c) bound (w.newRun context prepared') t
        = ((w.drive c (unbounded c) bound (w.newRun context prepared) t).1.map
            fun ended => (ended.1, ended.2.amid later),
          (w.drive c (unbounded c) bound (w.newRun context prepared) t).2) :=
    Workflow.drive_amid hreads hprepared
  rw [perform_workflow haccepts, perform_workflow haccepts', Workflow.execute,
    Workflow.execute, bind_apply, bind_apply, hdrive]
  rcases w.drive c (unbounded c) bound (w.newRun context prepared) t with
    ⟨stop | ⟨outcome, run⟩, t'⟩
  · rfl
  · have hfinish := w.finish_amid (c.clock t'.world) run later outcome
      inputs inputs'
    show (Except.ok (w.finish (c.clock t'.world) (run.amid later) outcome
      inputs'), t') = _
    rw [hfinish]
    rfl

end Task

/-- A workflow that asks a question and has a relay run on what it hears. -/
def Workflow.inquiry : Workflow Task where
  identity := .named "inquiry" "inquiry"
  tasks := [
    ("ask", .prompt { Prompt.asking "ask" with
      identity := { Identity.named "ask" "ask" with
        inputSchema := .requiring "question" } }),
    ("relay", .workflow { Workflow.relay with
      identity := { Identity.named "relay" "relay" with
        inputSchema := .requiring "outputs_ask" }
      tasks := [
        ("first", .prompt (.asking "first")),
        ("second", .prompt (.asking "second"))] })]
  start := "ask"
  routing := [("ask", [(0, .plain "relay")]), ("relay", [(0, .finish)])]
  maxAttempts := 1
  recursive := false

/-- Nobody is told who makes an inquiry, not even the relay, whose own
sub-tasks declare nothing. -/
theorem Task.inquiry_hides_its_author :
    let asked : Inputs := [("question", .string "where")]
    let signed : Inputs :=
      [("author", .string "me"), ("question", .string "where")]
    (∀ b, Activation.RunsSubtask .counting (unbounded .counting)
        ⟨.fresh false, .workflow .inquiry, asked, .start ()⟩ b →
      b.task.identity.inputSchema.isOpen = false
      ∧ ∀ key ∈ Table.keys b.task.identity.inputSchema.properties,
        Table.get? asked key = Table.get? signed key)
    ∧ ∃ (r : Response) (t : Trace Unit),
      unbounded .counting (.fresh false) (.workflow .inquiry) asked
        (.start ()) = (.ok r, t)
      ∧ r.status = .success ∧ r.inputs = asked ∧ t.calls.length = 3
      ∧ unbounded .counting (.fresh false) (.workflow .inquiry) signed
          (.start ())
        = (.ok { r with inputs := signed }, t) := by
  intro asked signed
  have hdeclare : ∀ task ∈ Table.values Workflow.inquiry.tasks,
      task.identity.inputSchema.isOpen = false
      ∧ ∀ key ∈ Table.keys task.identity.inputSchema.properties,
        Table.get? asked key = Table.get? signed key := by
    intro task hmem
    rcases List.mem_cons.1 hmem with rfl | hmem
    · refine ⟨rfl, fun key hkey => ?_⟩
      obtain rfl := List.mem_singleton.1 hkey
      rfl
    · obtain rfl := List.mem_singleton.1 hmem
      refine ⟨rfl, fun key hkey => ?_⟩
      obtain rfl := List.mem_singleton.1 hkey
      rfl
  have hruns : ∀ b, Activation.RunsSubtask .counting (unbounded .counting)
      ⟨.fresh false, .workflow .inquiry, asked, .start ()⟩ b →
        b.task.identity.inputSchema.isOpen = false
        ∧ ∀ key ∈ Table.keys b.task.identity.inputSchema.properties,
          Table.get? asked key = Table.get? signed key := by
    intro b hb
    apply hdeclare
    apply (hb.owned_or_found rfl).resolve_right
    -- Nothing is known to the lookup, so only the workflow's own tasks are
    -- run.
    rintro ⟨name, world, hfound⟩
    cases hfound
  rcases hran : execute .counting 5 (.fresh false) (.workflow .inquiry) asked
    (.start ()) with ⟨stop | r, t⟩
  · cases hran
  obtain ⟨hstatus, hinputs, hcalls⟩ :
      r.status = .success ∧ r.inputs = asked ∧ t.calls.length = 3 := by
    cases hran
    exact ⟨rfl, rfl, rfl⟩
  have hends : unbounded .counting (.fresh false) (.workflow .inquiry) asked
      (.start ()) = (.ok r, t) :=
    (unbounded_eq (settles_of_ok hran)).trans hran
  have hsame : unbounded .counting (.fresh false) (.workflow .inquiry) signed
      (.start ())
      = ((unbounded .counting (.fresh false) (.workflow .inquiry) asked
            (.start ())).1.map fun r => { r with inputs := signed },
          (unbounded .counting (.fresh false) (.workflow .inquiry) asked
            (.start ())).2) :=
    undeclared_inputs_do_not_show rfl rfl (fun b hb => (hruns b hb).1)
      fun b hb => (hruns b hb).2
  rw [hends] at hsame
  exact ⟨hruns, r, t, hends, hstatus, hinputs, hcalls, hsame⟩

end TaskRouting
