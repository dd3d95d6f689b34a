import TaskRouting.Proofs.Workflow.Turns
/-!
What a sub-task gets of the inputs that it requires.

# What is selected

A sub-task is given the part of the environment that its schema reads: the
properties that it declares, or everything if it declares none
(`InputSchema.Reads`, `get?_select`). Whether the task may run is then decided
by the keys that the schema requires, and these are listed apart. A required
key that is no property is not read, and so it is missing from what the
sub-task is given even if it is there in the environment (`missing_select`).
Hence a selection never loses a required key exactly if all required keys are
read (`missing_select_eq_iff`).

# Schemas that are put together

Schemas to which properties are added one by one read whatever they require
(`Composed.reads`, by induction on how they are put together). A schema that
is read from a document need not: its list of required keys is taken as it
stands (`Catalog.requirement_unread`).

# Sub-tasks that are refused

What is missing decides the step. A sub-task from whose inputs something is
missing responds at once, and nobody is asked
(`Workflow.Ready.step_of_missing`). All of this is said together in
`selection_keeps_required_iff`.
-/

namespace TaskRouting

open Execution

/-- Of a map, the part under some keys: what is found there is what the map
holds, and nothing else is found. By induction on the keys, of which some may
be repeated. -/
theorem Table.get?_filterMap_keys {κ α : Type} [DecidableEq κ] (t : Table κ α)
    (keys : List κ) (k : κ) :
    Table.get? (keys.filterMap fun l => (t.get? l).map fun v => (l, v)) k
      = if k ∈ keys then t.get? k else none := by
  induction keys with
  | nil => rfl
  | cons l rest ih =>
    by_cases hk : k = l
    · subst hk
      cases hget : t.get? k with
      | none => simp [hget, ih]
      | some v => simp [hget, Table.get?]
    · cases hget : t.get? l with
      | none => simp [hget, ih, hk]
      | some v => simp [hget, Table.get?, ih, hk]

namespace InputSchema

/-- The schema takes a key out of an environment: the key is declared, or
nothing is. -/
def Reads (s : InputSchema) (key : String) : Prop :=
  s.isOpen = true ∨ key ∈ s.properties.keys

instance (s : InputSchema) : DecidablePred s.Reads := fun key =>
  inferInstanceAs (Decidable (s.isOpen = true ∨ key ∈ s.properties.keys))

-- ==================================================== what is selected

/-- Selecting restricts an environment to the keys that the schema `Reads`.
All of it is read where nothing is declared; else the declared keys are picked
(`Table.get?_filterMap_keys`). -/
theorem get?_select (s : InputSchema) (environment : Inputs) (key : String) :
    Table.get? (s.select environment) key
      = if s.Reads key then Table.get? environment key else none := by
  unfold select Reads
  by_cases hopen : s.isOpen = true
  · simp [hopen]
  · simp [hopen, Table.get?_filterMap_keys]

/-- A key is `absent` from what is selected if it is absent from the
environment or not read. -/
theorem absent_select (s : InputSchema) (environment : Inputs)
    (key : String) :
    absent (s.select environment) key
      = (absent environment key || !decide (s.Reads key)) := by
  unfold absent
  rw [get?_select]
  by_cases hreads : s.Reads key <;> simp [hreads]

/-- After a selection the required keys are missing that were missing before,
and those that are not read. -/
theorem missing_select (s : InputSchema) (environment : Inputs) :
    s.missing (s.select environment)
      = s.required.filter fun key => absent environment key
        || !decide (s.Reads key) := by
  unfold missing
  exact List.filter_congr fun key _ => absent_select s environment key

/-- A selection never loses a required key exactly if all required keys are
read. A key that is not is lost from the environment that holds nothing
else. -/
theorem missing_select_eq_iff (s : InputSchema) :
    (∀ environment, s.missing (s.select environment) = s.missing environment)
      ↔ ∀ key ∈ s.required, s.Reads key := by
  constructor
  · intro h key hkey
    refine Decidable.byContradiction fun hreads => ?_
    -- In an environment with nothing but this key, it is there before the
    -- selection and not after.
    have hlost : key ∈ s.missing (s.select [(key, .bool true)]) := by
      rw [missing_select]
      simp [hkey, hreads]
    rw [h] at hlost
    simp [missing, absent, Table.get?, Json.isNull] at hlost
  · intro h environment
    rw [missing_select]
    unfold missing
    apply List.filter_congr
    intro key hkey
    simp [h key hkey]

/-- Inputs are refused exactly if some required key is `missing`, and all that
are missing are named. -/
theorem prepare_eq_error_iff {s : InputSchema} {inputs : Inputs}
    {keys : List String} :
    s.prepare inputs = .error keys ↔ s.missing inputs = keys ∧ keys ≠ [] := by
  unfold prepare
  cases s.missing inputs with
  | nil =>
    constructor
    · intro h
      cases h
    · rintro ⟨rfl, hne⟩
      exact absurd rfl hne
  | cons key rest =>
    constructor
    · intro h
      cases h
      exact ⟨rfl, List.cons_ne_nil _ _⟩
    · rintro ⟨rfl, -⟩
      rfl

-- ======================================= schemas that are put together

/-- The schemas that one gets by `declare` and `require`, one property after
the other. -/
inductive Composed : InputSchema → Prop where
  | empty : Composed .empty
  | declare {s : InputSchema} (name : String) (p : Parameter)
      (rest : Composed s) : Composed (s.declare name p)
  | require {s : InputSchema} (name : String) (p : Parameter)
      (rest : Composed s) : Composed (s.require name p)

/-- What is put together property by property reads all that it requires. The
invariant is stronger: each required key is a property, so the schema need not
be open. `require` declares its key as well. -/
theorem Composed.reads {s : InputSchema} (h : s.Composed) :
    ∀ key ∈ s.required, s.Reads key := by
  suffices hdeclared : ∀ key ∈ s.required, key ∈ Table.keys s.properties from
    fun key hkey => .inr (hdeclared key hkey)
  induction h with
  | empty => simp [InputSchema.empty]
  | declare name p _ ih =>
    intro key hkey
    exact Table.mem_keys_insert.2 (.inr (ih key hkey))
  | @require s name p _ ih =>
    intro key hkey
    have hcases : key = name ∨ key ∈ s.required := by
      by_cases hname : name ∈ s.required
      · simp only [InputSchema.require, if_pos hname] at hkey
        exact .inr hkey
      · simp only [InputSchema.require, if_neg hname, List.mem_append,
          List.mem_singleton] at hkey
        exact hkey.symm
    exact Table.mem_keys_insert.2 (hcases.imp_right (ih key))

end InputSchema

-- ========================================== sub-tasks that are refused

/-- A sub-task that misses inputs responds at once, with their names, and
nobody is asked. `Task.perform_missing` needs no bound to see that, so the
executor without one does the same. -/
theorem Workflow.Ready.step_of_missing {σ : Type} {c : Collaborators σ}
    {w : Workflow Task} {run : Run} {t t' : Trace σ} {name : String}
    {task : Task} {keys : List String} (ready : w.Ready c run t name task t')
    (h : task.identity.inputSchema.prepare (run.inputsFor task)
      = .error keys) :
    let response := Response.failure (c.clock t'.world) task.identity.header
      (run.inputsFor task) failureCode (Task.missingText keys)
    (w.step c (Task.unbounded c) run t).run = (w.advance name response run).2
      ∧ (w.step c (Task.unbounded c) run t).trace = t' := by
  intro response
  have hperform : Task.perform c (Task.unbounded c) 0 run.context task
      (run.inputsFor task) t' = (.ok response, t') := by
    rw [Task.perform_missing h]
    rfl
  have hran := (Task.unbounded_eq_perform (settles_of_ok hperform)).trans
    hperform
  rw [step_of_ready ready, hran]
  exact ⟨rfl, rfl⟩

namespace InputSchema

/-- What a run selects for a sub-task misses the required keys that are absent
from the environment or not read. So a selection never loses a required key
exactly if the schema reads all that it requires, as schemas do that are put
together property by property.

A sub-task that may run is refused exactly if something is missing from what
is selected for it: it responds with a failure that names what is missing, and
nobody is asked. -/
theorem selection_keeps_required_iff (s : InputSchema) :
    (∀ environment, s.missing (s.select environment)
        = s.required.filter fun key => absent environment key
          || !decide (s.Reads key))
      ∧ ((∀ environment,
            s.missing (s.select environment) = s.missing environment)
          ↔ ∀ key ∈ s.required, s.Reads key)
      ∧ (s.Composed → ∀ key ∈ s.required, s.Reads key)
      ∧ ∀ {σ : Type} (c : Collaborators σ) (w : Workflow Task) (run : Run)
          (t t' : Trace σ) (name : String) (task : Task),
          task.identity.inputSchema = s → w.Ready c run t name task t' →
          let unmet := s.missing (s.select run.environment)
          let stepped := w.step c (Task.unbounded c) run t
          (unmet = [] →
              ∃ prepared, s.prepare (run.inputsFor task) = .ok prepared)
            ∧ (unmet ≠ [] → stepped.trace = t'
              ∧ stepped.run.history = run.history
                ++ [.failure (c.clock t'.world) task.identity.header
                  (run.inputsFor task) failureCode
                  (Task.missingText unmet)]) := by
  refine ⟨s.missing_select, s.missing_select_eq_iff, Composed.reads, ?_⟩
  intro σ c w run t t' name task hschema ready unmet stepped
  subst hschema
  constructor
  · intro hnone
    cases hprepare : task.identity.inputSchema.prepare
      (run.inputsFor task) with
    | ok prepared => exact ⟨prepared, rfl⟩
    | error keys =>
      -- What a run selects for a task is what its schema selects.
      obtain ⟨hkeys, hne⟩ := prepare_eq_error_iff.1 hprepare
      exact absurd (hkeys.symm.trans hnone) hne
  · intro hsome
    obtain ⟨hrun, htrace⟩ :=
      ready.step_of_missing (prepare_eq_error_iff.2 ⟨rfl, hsome⟩)
    exact ⟨htrace, (congrArg Run.history hrun).trans Workflow.history_advance⟩

/-- An errand that starts without a question is refused one, as nobody has put
it. -/
theorem errand_misses_question :
    let run := Workflow.errand.newRun (.fresh false) []
    let stepped := Workflow.errand.step .echoing
      (Task.unbounded (.echoing : Collaborators Unit)) run (.start ())
    (requiring "question").Composed
      ∧ (requiring "question").missing run.environment = ["question"]
      ∧ (requiring "question").missing
        ((requiring "question").select run.environment) = ["question"]
      ∧ stepped.trace.calls = []
      ∧ stepped.run.history.map Response.diagnostic
        = [some "Missing required inputs: question"] := by
  intro run stepped
  obtain ⟨-, hkeeps, hreads, hrefuses⟩ :=
    selection_keeps_required_iff (requiring "question")
  have hcomposed : (requiring "question").Composed := .require _ _ .empty
  have hmissing : (requiring "question").missing run.environment
      = ["question"] := rfl
  have hselected := (hkeeps.2 (hreads hcomposed) run.environment).trans
    hmissing
  obtain ⟨-, hrefused⟩ :=
    hrefuses (.echoing : Collaborators Unit) .errand run (.start ())
      (.start ()) "ask" _ rfl ⟨rfl, rfl, by decide, rfl, rfl⟩
  obtain ⟨htrace, hhistory⟩ := hrefused (by simp [hselected])
  refine ⟨hcomposed, hmissing, hselected, by rw [htrace]; rfl, ?_⟩
  rw [hhistory, hselected]
  rfl

end InputSchema

/-- A document with a prompt that requires a place but declares a style only,
and with a workflow that runs it. -/
def Catalog.Document.placed : Catalog.Document where
  parameters := []
  entries := [
    { Catalog.Entry.needing "tell" "" with
      requiredApis := []
      inputVariables := some
        ⟨[("style", .own ⟨Parameter.usualType, "", none⟩)], ["place"]⟩ },
    { Catalog.Entry.handing "telling" "tell" ""
      with routing := [("tell", [(0, .finish)])] }]

/-- The document is built. Its prompt accepts a place, but run by its workflow
it misses the very place that it has been given. -/
theorem Catalog.requirement_unread :
    let environment : Inputs := [("place", .string "here")]
    ∃ catalog tell telling,
      Document.placed.build (fun key => some ⟨key, key, false⟩) = .ok catalog
      ∧ catalog.task? "tell" = some tell
      ∧ catalog.task? "telling" = some telling
      ∧ tell.identity.inputSchema.missing environment = []
      ∧ tell.identity.inputSchema.missing
          (tell.identity.inputSchema.select environment) = ["place"]
      ∧ (Task.execute .echoing 3 (.fresh false) tell environment
          (.start ())).1.toOption.map (·.isSuccess) = some true
      ∧ (Task.execute .echoing 3 (.fresh false) telling environment
          (.start ())).1.toOption.map (fun r =>
            (r.isSuccess, r.history.map fun past =>
              past.map Response.diagnostic))
        = some (false, some [some "Missing required inputs: place"]) :=
  ⟨_, _, _, rfl, rfl, rfl, rfl, rfl, rfl, rfl⟩

end TaskRouting
