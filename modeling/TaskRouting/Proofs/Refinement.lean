import TaskRouting.Proofs.Abreast
/-!
Executions in a larger world.

Collaborators may keep more in their world than anybody looks at: notes on
what happens, for one. A view `see : σ' → σ` says what can be seen of the
larger world, and collaborators refine others through it if, as far as can be
seen, they say and do the same (`Collaborators.Refines`). Executions among
them are then those among the others, with all calls and with the same result
(`Task.execute_refines`); whatever more there is in their world, nobody is
disturbed by it.

# Refining is going abreast

A view is a relation between worlds that happens to be a function (`Sees`),
and to refine an execution is to go abreast of it through that relation
(`Execution.refines_iff_abreast`). So nothing has to be said here about how
executions are made of calls: each kind of refining is turned into its kind of
likeness (`AnswersAs.alike`, `Conversation.Refines.alike`,
`Collaborators.Refines.alike`), and `Task.execute_abreast` does the induction.

# Notes

The views that are used all look past notes beside the world, `Prod.fst`.
`Conversation.beside` carries notes through a conversation, and `noting` adds
to them what an answer is worth; both refine what they are made from
(`Conversation.beside_refines`, `noting_answersAs`), whatever is noted.
Watching an execution and recording the calls that end in a fault are both
built from these two.
-/

namespace TaskRouting

open Execution

variable {σ σ' α β : Type}

-- =============================================================== views

/-- A trace as it is seen through a view of its world. -/
def Trace.view (see : σ' → σ) (t : Trace σ') : Trace σ :=
  ⟨see t.world, t.made⟩

/-- The answer is the same, and so is what can be seen of the world after
it. -/
def AnswersAs (see : σ' → σ) (answer' : σ' → α × σ') (answer : σ → α × σ) :
    Prop :=
  ∀ w, answer (see w) = ((answer' w).1, see (answer' w).2)

/-- As far as can be seen, the conversations are the same. -/
inductive Conversation.Refines (see : σ' → σ) :
    Conversation σ' → Conversation σ → Prop where
  | answer (result : Except AgentError (List Message)) (w : σ') :
      Refines see (.answer result w) (.answer result (see w))
  | crash (why : Crash) (w : σ') :
      Refines see (.crash why w) (.crash why (see w))
  | callTool {name : String} {inputs : Inputs} {w : σ'}
      {resume' : Except Fault (Option Response) → σ' → Conversation σ'}
      {resume : Except Fault (Option Response) → σ → Conversation σ}
      (resumes : ∀ told w', Refines see (resume' told w')
        (resume told (see w'))) :
      Refines see (.callTool name inputs w resume')
        (.callTool name inputs (see w) resume)

/-- As far as can be seen, the collaborators say and do the same to whoever
executes tasks. -/
structure Collaborators.Refines (see : σ' → σ) (c' : Collaborators σ')
    (c : Collaborators σ) : Prop where
  agent : ∀ agent request w, (c'.agent agent request w).Refines see
    (c.agent agent request (see w))
  config : ∀ api, AnswersAs see (c'.config api) (c.config api)
  lookup : ∀ name, AnswersAs see (c'.lookup name) (c.lookup name)
  cancelled : ∀ w, c'.cancelled w = c.cancelled (see w)
  clock : ∀ w, c'.clock w = c.clock (see w)

/-- As far as can be seen, the executions do the same and come to the same. -/
def Execution.Refines (see : σ' → σ) (e' : Execution σ' α)
    (e : Execution σ α) : Prop :=
  ∀ t, e (t.view see) = ((e' t).1, (e' t).2.view see)

/-- As far as can be seen, all tasks are executed in the same way. -/
def Workflow.Executor.Refines (see : σ' → σ) (x' : Workflow.Executor σ')
    (x : Workflow.Executor σ) : Prop :=
  ∀ context task inputs, (x' context task inputs).Refines see
    (x context task inputs)

-- =============================================================== notes

/-- The same conversation, with notes beside the world. Whoever talks never
looks at them. -/
def Conversation.beside {ν : Type} : Conversation σ → ν → Conversation (σ × ν)
  | answer result world, notes => .answer result (world, notes)
  | crash why world, notes => .crash why (world, notes)
  | callTool name inputs world resume, notes =>
    .callTool name inputs (world, notes) fun told w =>
      (resume told w.1).beside w.2

/-- The notes cannot be seen through `Prod.fst`. The induction follows the
conversation and lets the notes vary, since a tool may have added to them. -/
theorem Conversation.beside_refines {ν : Type} (talk : Conversation σ)
    (notes : ν) : (talk.beside notes).Refines Prod.fst talk := by
  induction talk generalizing notes with
  | answer result world => exact .answer result (world, notes)
  | crash why world => exact .crash why (world, notes)
  | callTool name inputs world resume ih =>
    exact .callTool fun told w => ih told w.1 w.2

/-- The same answer, with notes on it added to those beside the world. -/
def noting {ν : Type} (notes : α → List ν) (answer : σ → α × σ) :
    σ × List ν → α × (σ × List ν) :=
  fun w => ((answer w.1).1, ((answer w.1).2, w.2 ++ notes (answer w.1).1))

/-- Whatever is noted, the answer and what can be seen of the world by
`Prod.fst` are those without notes. -/
theorem noting_answersAs {ν : Type} (notes : α → List ν)
    (answer : σ → α × σ) :
    AnswersAs Prod.fst (noting notes answer) answer := fun _ => rfl

/-- An answer by which `noting` notes nothing leaves the notes as they
were. -/
theorem noting_nil {ν : Type} (answer : σ → α × σ) (w : σ × List ν) :
    (noting (fun _ => []) answer w).2.2 = w.2 := List.append_nil _

-- =========================================== refining is going abreast

section Sight

variable {see : σ' → σ}

/-- What can be seen through a view is a relation between worlds. -/
def Sees (see : σ' → σ) (w' : σ') (w : σ) : Prop := w = see w'

/-- Traces are abreast through `Sees`, from the start on, exactly if one is
the view of the other: the worlds are related, and all the calls are
shared. -/
theorem Trace.abreast_iff_view {t' : Trace σ'} {t : Trace σ} :
    Trace.Abreast (Sees see) [] [] t' t ↔ t = t'.view see := by
  constructor
  · rintro ⟨hworld, more, hmore', hmore⟩
    obtain ⟨world, made⟩ := t
    obtain rfl : world = see t'.world := hworld
    unfold Trace.view
    rw [hmore']
    exact congrArg _ hmore
  · rintro rfl
    exact ⟨rfl, t'.made, (List.append_nil _).symm, (List.append_nil _).symm⟩

/-- Refining is going abreast through `Sees`. Both say what the two executions
do from related traces; a view only names the second trace, where a relation
asks for it. -/
theorem Execution.refines_iff_abreast {e' : Execution σ' α}
    {e : Execution σ α} :
    e'.Refines see e ↔ e'.Abreast (Sees see) [] [] e := by
  constructor
  · intro hrefines t' t h
    obtain rfl := Trace.abreast_iff_view.1 h
    exact ⟨_, _, _, rfl, hrefines t', Trace.abreast_iff_view.2 rfl⟩
  · intro habreast t'
    obtain ⟨result, t₁', t₁, hends', hends, h₁⟩ :=
      habreast t' _ (Trace.abreast_iff_view.2 rfl)
    rw [hends', hends, Trace.abreast_iff_view.1 h₁]

/-- Answers that are the same through a view are alike by the relation `Sees`
that the view is, so that the congruence of `Abreast` applies to refinements
as well. -/
theorem AnswersAs.alike {answer' : σ' → α × σ'} {answer : σ → α × σ}
    (h : AnswersAs see answer' answer) :
    AnswerAlike (Sees see) answer' answer := by
  rintro w' w rfl
  rw [h w']
  exact ⟨rfl, rfl⟩

/-- Conversations that are the same through a view are alike, turn by turn: an
induction on `Conversation.Refines`, whose two cases are those of `Alike`. -/
theorem Conversation.Refines.alike {talk' : Conversation σ'}
    {talk : Conversation σ} (h : talk'.Refines see talk) :
    talk'.Alike (Sees see) talk := by
  induction h with
  | answer result w => exact .answer result rfl
  | crash why w => exact .crash why rfl
  | callTool _ ih =>
    refine .callTool rfl fun told v' v related => ?_
    cases related
    exact ih told v'

/-- Collaborators that refine others are like them, so all of `Abreast`
applies. -/
theorem Collaborators.Refines.alike {c' : Collaborators σ'}
    {c : Collaborators σ} (h : c'.Refines see c) : c'.Alike (Sees see) c where
  agent agent request w' w related := by
    cases related
    exact (h.agent agent request w').alike
  config api := (h.config api).alike
  lookup name := (h.lookup name).alike
  cancelled w' w related := by rw [related, h.cancelled]
  clock w' w related := by rw [related, h.clock]

end Sight

-- ========================================================== executions

/-- A stop refines the same stop, for it leaves the trace alone. -/
theorem Execution.refines_stop {see : σ' → σ} (stop : Stop) :
    (Execution.stop stop : Execution σ' α).Refines see
      (Execution.stop stop : Execution σ α) :=
  fun _ => rfl

namespace Task

variable {see : σ' → σ} {c' : Collaborators σ'} {c : Collaborators σ}

/-- One layer of an execution comes to the same, if the executions inside it
do: `perform_abreast`, through `refines_iff_abreast`. -/
theorem perform_refines (hc : c'.Refines see c) {x' : Workflow.Executor σ'}
    {x : Workflow.Executor σ} (hx : x'.Refines see x) (bound : Nat) :
    Workflow.Executor.Refines see (perform c' x' bound)
      (perform c x bound) := by
  have habreast : Workflow.Executor.Abreast (Sees see) [] [] x' x :=
    fun context task inputs => refines_iff_abreast.1 (hx context task inputs)
  exact fun context task inputs =>
    refines_iff_abreast.2 (perform_abreast hc.alike habreast bound context
      task inputs)

/-- Executions among collaborators that refine others do what can be done
among those, at every depth: `execute_abreast`, through
`refines_iff_abreast`. -/
theorem execute_refines (hc : c'.Refines see c) (n : Nat) :
    Workflow.Executor.Refines see (execute c' n) (execute c n) :=
  fun context task inputs =>
    refines_iff_abreast.2 (execute_abreast hc.alike n context task inputs)

end Task

end TaskRouting
