import TaskRouting.Proofs.Selection
import TaskRouting.Proofs.WellFormedDeed
import TaskRouting.Proofs.Workflow.Turns
/-!
What the environment of a run holds.

# Outputs over inputs

A run begins with the inputs of its workflow, and each turn writes one value:
the output of the name that has been run, over what stood under the same key
before. So however a run has been stepped, its environment is the inputs with
the latest output of each name laid over them (`Reached.environment_eq`, by
induction on how the run has been reached; `Table.override` is the fold).
Different names write under different keys (`outputKey_injective`), so looking
a key up finds the latest output of its name (`Reached.get?_outputKey`), and
any other key finds the input (`Reached.get?_of_not_run`). An input that
happens to have the key of an output is found until the name has been run.

# What sub-tasks are given

A sub-task is given the part of the environment that its schema reads, and its
response shows just that (`Task.inputs_of_unbounded`). As a run has been
reached before each of its turns (`Reached.before_turn`), this ties the inputs
in its history to the environments that it has had
(`environment_overlays_outputs`).
-/

namespace TaskRouting

open Execution

-- ========================================== the latest of some entries

namespace Table

variable {κ κ' α β : Type} [DecidableEq κ] [DecidableEq κ']

/-- Renaming keys one to one does not change which entry `last?` finds. -/
theorem last?_map {f : κ → κ'} (hf : Function.Injective f) (g : α → β)
    (entries : List (κ × α)) (k : κ) :
    last? (entries.map fun e => (f e.1, g e.2)) (f k)
      = (last? entries k).map g := by
  unfold last?
  rw [← List.map_reverse, List.find?_map]
  simp [Function.comp_def, hf.eq_iff]

/-- Nothing is found under a key that no entry has. -/
theorem last?_eq_none {entries : List (κ × α)} {k : κ}
    (h : ∀ e ∈ entries, k ≠ e.1) : last? entries k = none := by
  unfold last?
  have hnone : entries.reverse.find? (·.1 = k) = none := by
    simp only [List.find?_eq_none, List.mem_reverse, decide_eq_true_eq]
    exact fun e he heq => h e he heq.symm
  rw [hnone]
  rfl

end Table

/-- Different names keep their outputs under different keys: `outputKey` puts
the same characters in front of each. -/
theorem outputKey_injective : Function.Injective outputKey := by
  intro name name' h
  have hlists := congrArg String.toList h
  simp only [outputKey, String.toList_append,
    List.append_cancel_left_eq] at hlists
  exact String.toList_inj.1 hlists

/-- A response shows the inputs that its task was given. That is part of what
`perform_wellFormed` says of every response. -/
theorem Task.inputs_of_unbounded {σ : Type} {c : Collaborators σ}
    {context : Context} {task : Task} {inputs : Inputs} {t t' : Trace σ}
    {r : Response} (h : unbounded c context task inputs t = (.ok r, t')) :
    r.inputs = inputs := by
  obtain ⟨bound, hperform⟩ := exists_perform_of_unbounded (settles_of_ok h)
  exact (perform_wellFormed (hperform.trans h)).signed.inputs

namespace Workflow

variable {σ : Type} {c : Collaborators σ} {x : Executor σ} {w : Workflow Task}
  {context : Context} {inputs : Inputs} {turns : List Turn}
  {latest : Option Outcome} {run : Run}

/-- The latest response of a name. -/
def latest? (turns : List Turn) (name : String) : Option Response :=
  Table.last? (turns.map fun turn => (turn.name, turn.response)) name

-- ======================================================== environments

/-- The environment of a run is its inputs, with the outputs of the turns laid
over them one after the other by `Table.override`. By induction on how the run
has been reached; only `took` adds an entry. -/
theorem Reached.environment_eq
    (h : w.Reached c x context inputs turns latest run) :
    run.environment = Table.override inputs (turns.map fun turn =>
      (outputKey turn.name, Json.optional .string
        turn.response.outputText)) := by
  induction h with
  | begun => rfl
  | kept _ kept ih => rw [run_of_kept kept, ih]
  | took _ ready responded ih =>
    rw [(ready.of_responded responded).2, environment_advance, ih]
    simp [Table.override]

/-- Under the `outputKey` of a name that has been run, its latest output is
found. The entries laid over the inputs are the turns with their names
renamed, so the last entry comes from the latest turn (`last?_map`). -/
theorem Reached.get?_outputKey
    (h : w.Reached c x context inputs turns latest run) {name : String}
    {response : Response} (hlatest : latest? turns name = some response) :
    Table.get? run.environment (outputKey name)
      = some (Json.optional .string response.outputText) := by
  have hwritten : Table.last? (turns.map fun turn =>
      (outputKey turn.name, Json.optional .string turn.response.outputText))
        (outputKey name)
      = some (Json.optional .string response.outputText) := by
    have hmap := Table.last?_map outputKey_injective
      (fun r : Response => Json.optional Json.string r.outputText)
      (turns.map fun turn => (turn.name, turn.response)) name
    rw [show Table.last? _ name = some response from hlatest,
      List.map_map] at hmap
    exact hmap
  rw [h.environment_eq, Table.get?_override, hwritten]
  rfl

/-- Under a key that is the `outputKey` of no turn the inputs are found as
they were. -/
theorem Reached.get?_of_not_run
    (h : w.Reached c x context inputs turns latest run) {key : String}
    (hkey : ∀ turn ∈ turns, key ≠ outputKey turn.name) :
    Table.get? run.environment key = Table.get? inputs key := by
  rw [h.environment_eq, Table.get?_override, Table.last?_eq_none]
  · rfl
  · simpa using hkey

-- =============================================================== turns

/-- Before each of its turns a run has been reached that was `Ready` for it.
By induction on how the run has been reached: the last turn is the one that
has just been taken, and the others are those of the run before. -/
theorem Reached.before_turn
    (h : w.Reached c x context inputs turns latest run) :
    ∀ {before after : List Turn} {turn : Turn}, turns = before
      ++ turn :: after →
      ∃ latest' run' t t' t'', w.Reached c x context inputs before
        latest' run'
        ∧ w.Ready c run' t turn.name turn.task t'
        ∧ x run'.context turn.task (run'.inputsFor turn.task) t'
          = (.ok turn.response, t'') := by
  induction h with
  | begun =>
    intro before after turn hturns
    simp at hturns
  | kept _ _ ih => exact ih
  | @took turns latest run t t' name task response reached ready
    responded ih =>
    intro before after turn hturns
    -- Turns are added at the end, so the question is whether any come after
    -- the one that is meant.
    rcases List.eq_nil_or_concat after with rfl | ⟨after, last, rfl⟩
    · obtain ⟨rfl, hturn⟩ := List.append_inj' hturns rfl
      obtain rfl := List.head_eq_of_cons_eq hturn
      obtain ⟨⟨t'', ran⟩, -⟩ := ready.of_responded responded
      exact ⟨latest, run, t, t', t'', reached, ready, ran⟩
    · rw [List.concat_eq_append, ← List.cons_append,
        ← List.append_assoc] at hturns
      exact ih (List.append_inj' hturns rfl).1

/-- However a run has been stepped, under the key of a name that has been run
its environment holds the contents of that name's latest outputs, a line break
between them, or null if there are no outputs; under every other key it holds
what the inputs hold.

Each response in the history shows as its inputs the environment that the run
had before the turn, restricted to the properties that the task declares, or
all of it if the task declares none. -/
theorem environment_overlays_outputs
    (h : w.Reached c (Task.unbounded c) context inputs turns latest run) :
    run.history = turns.map Turn.response
      ∧ (∀ name response, latest? turns name = some response →
          Table.get? run.environment (outputKey name)
            = some (match response.outputs with
            | some messages =>
              .string (String.intercalate "\n" (messages.map (·.content)))
            | none => .null))
      ∧ (∀ key, (∀ turn ∈ turns, key ≠ outputKey turn.name) →
          Table.get? run.environment key = Table.get? inputs key)
      ∧ ∀ before turn after, turns = before ++ turn :: after →
          ∃ latest' run' t t',
            w.Reached c (Task.unbounded c) context inputs before latest' run'
            ∧ w.Ready c run' t turn.name turn.task t'
            ∧ ∀ key, Table.get? turn.response.inputs key
              = if turn.task.identity.inputSchema.Reads key then
                Table.get? run'.environment key
                else none := by
  refine ⟨h.stands.history, ?_, fun key hkey => h.get?_of_not_run hkey, ?_⟩
  · intro name response hlatest
    rw [h.get?_outputKey hlatest]
    unfold Response.outputText
    cases response.outputs with
    | none => rfl
    | some messages => rfl
  · intro before turn after hturns
    obtain ⟨latest', run', t, t', t'', hreached, ready, ran⟩ :=
      h.before_turn hturns
    refine ⟨latest', run', t, t', hreached, ready, fun key => ?_⟩
    rw [Task.inputs_of_unbounded ran]
    exact InputSchema.get?_select _ _ key

/-- Begun with an input that has the key of an output, the relay gives this
input to its first task and keeps the task's output in its place. -/
theorem relay_overlays_first :
    ∃ turns run,
      relay.Reached .echoing
        (Task.unbounded (.echoing : Collaborators Unit))
        (.fresh false) [("outputs_first", .string "before")] turns
        (some .goesOn) run
      ∧ turns.map (fun turn =>
          Table.get? turn.response.inputs "outputs_first")
        = [some (.string "before"), some (.string "first")]
      ∧ Table.get? run.environment "outputs_first"
        = some (.string "first") := by
  obtain ⟨run, hreached, -⟩ :=
    relay_takes_two_turns [("outputs_first", .string "before")]
  have hlatest := (environment_overlays_outputs hreached).2.1 "first" _ rfl
  exact ⟨_, run, hreached, rfl, hlatest⟩

end Workflow

end TaskRouting
