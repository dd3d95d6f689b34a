import TaskRouting.Proofs.Refinement
/-!
Executions that are watched.

Somebody who watches an execution writes down each task that has responded,
with the inputs that it was given and with its response, in the order in which
the tasks respond. So there is one `Deed` for each response, and a fact about
all of them is a fact about a list of notes.

# Why nothing is disturbed

The notes lie beside the world of the collaborators, who never look at them:
`Collaborators.watched` passes each answer on and notes nothing itself. The
tasks are executed by `perform`, the very code that executes them otherwise;
`Task.watched` only writes a note after each layer (`Execution.noted`). Both
refine what they are made from (`Collaborators.watched_refines`,
`Execution.Refines.noted`), so by induction on the depth a watched execution
refines the plain one, and `Task.watched_mirrors` says the same the other way
round: whatever notes there are, the watched execution does what the plain one
does.

# Tools

A tool that an agent calls is executed as well. Who watches `closely` writes
that down too; who does not takes it for the affair of the agent
(`Execution.aside`), and writes down only the task that has asked it.
-/

namespace TaskRouting

open Execution

variable {σ α β : Type}

/-- A task that has been executed and has responded. -/
structure Deed where
  task : Task
  inputs : Inputs
  response : Response

-- ================================================ notes beside a world

/-- A trace with notes beside its world. -/
def Trace.beside (t : Trace σ) (deeds : List Deed) : Trace (σ × List Deed) :=
  ⟨(t.world, deeds), t.made⟩

/-- The same collaborators, with notes beside their world. They write down
nothing themselves: each of their answers notes the empty list. -/
def Collaborators.watched (c : Collaborators σ) :
    Collaborators (σ × List Deed) where
  agent agent request w := (c.agent agent request w.1).beside w.2
  health api := noting (fun _ => []) (c.health api)
  config api := noting (fun _ => []) (c.config api)
  lookup name := noting (fun _ => []) (c.lookup name)
  store response := noting (fun _ => []) (c.store response)
  cancelled w := c.cancelled w.1
  clock w := c.clock w.1
  freshId := noting (fun _ => []) c.freshId

namespace Execution

/-- Writes down that a task has responded. -/
def noted (task : Task) (inputs : Inputs)
    (e : Execution (σ × List Deed) Response) :
    Execution (σ × List Deed) Response := fun t =>
  match e t with
  | (.ok response, t') =>
    (.ok response,
      { t' with
        world := (t'.world.1, t'.world.2 ++ [⟨task, inputs, response⟩]) })
  | (.error stop, t') => (.error stop, t')

/-- Leaves the notes as they were before. -/
def aside (e : Execution (σ × List Deed) α) : Execution (σ × List Deed) α :=
  fun t =>
  match e t with
  | (result, t') => (result, { t' with world := (t'.world.1, t.world.2) })

end Execution

/-- Executes a task, watched. -/
def Task.watched (c : Collaborators σ) (closely : Bool) :
    Nat → Workflow.Executor (σ × List Deed)
  | 0 => fun _ _ _ => Execution.stop .exhausted
  | n + 1 => fun context task inputs =>
    let performed := perform c.watched (watched c closely n) n
      context task inputs
    (if task.prompt?.isSome && !closely then performed.aside
      else performed).noted task inputs

-- ============================================================= mirrors

namespace Execution

/-- Whatever notes there are, the first execution does what the second one
does. -/
def Mirrors (e' : Execution (σ × List Deed) α) (e : Execution σ α) : Prop :=
  ∀ t deeds, ∃ deeds', e' (t.beside deeds) = ((e t).1, (e t).2.beside deeds')

/-- What is done is what can be seen where the notes are left out: `Refines`
read from the smaller world to the larger one. -/
theorem Refines.mirrors {e' : Execution (σ × List Deed) α} {e : Execution σ α}
    (h : e'.Refines Prod.fst e) : e'.Mirrors e := by
  intro t deeds
  have hends : e t = ((e' (t.beside deeds)).1,
      (e' (t.beside deeds)).2.view Prod.fst) :=
    h (t.beside deeds)
  rw [hends]
  exact ⟨(e' (t.beside deeds)).2.world.2, rfl⟩

/-- Leaving the notes as they were cannot be seen where there are none:
`aside` changes nothing that `Prod.fst` shows. -/
theorem Refines.aside {e' : Execution (σ × List Deed) α} {e : Execution σ α}
    (h : e'.Refines Prod.fst e) : e'.aside.Refines Prod.fst e := by
  intro t
  rw [h t]
  rfl

/-- Writing something down with `noted` cannot be seen either, whether the
execution has ended or been stopped. -/
theorem Refines.noted {e' : Execution (σ × List Deed) Response}
    {e : Execution σ Response} (h : e'.Refines Prod.fst e) (task : Task)
    (inputs : Inputs) : (e'.noted task inputs).Refines Prod.fst e := by
  intro t
  rw [h t]
  unfold Execution.noted
  rcases e' t with ⟨stop | response, t'⟩
  · rfl
  · rfl

end Execution

/-- One way of executing tasks does what the other one does, whatever notes
there are. -/
def Workflow.Executor.Mirrors (x' : Workflow.Executor (σ × List Deed))
    (x : Workflow.Executor σ) : Prop :=
  ∀ context task inputs, (x' context task inputs).Mirrors
    (x context task inputs)

-- =================================================== what mirrors what

variable {c : Collaborators σ}

/-- Collaborators with notes beside their world say and do the same. Agents do
by `beside_refines`, and the others by `noting_answersAs`. -/
theorem Collaborators.watched_refines : c.watched.Refines Prod.fst c where
  agent _ _ _ := Conversation.beside_refines _ _
  config _ := noting_answersAs _ _
  lookup _ := noting_answersAs _ _
  cancelled _ := rfl
  clock _ := rfl

namespace Task

/-- A watched execution refines the plain one. By induction on the depth: the
layer inside refines by induction, `perform_refines` carries that through the
layer, and setting notes aside or adding one cannot be seen. -/
theorem watched_refines {closely : Bool} :
    ∀ n, Workflow.Executor.Refines Prod.fst (watched c closely n)
      (execute c n)
  | 0 => fun _ _ _ => refines_stop _
  | n + 1 => by
    intro context task inputs
    have hinner : (watched c closely n).Refines Prod.fst (execute c n) :=
      watched_refines n
    have hperform :=
      perform_refines (Collaborators.watched_refines (c := c)) hinner n
        context task inputs
    unfold watched execute
    dsimp only
    split
    · exact hperform.aside.noted task inputs
    · exact hperform.noted task inputs

/-- Watching an execution changes nothing: it ends as the plain one does, in a
world that is the same but for the notes, with the same calls made. That is
`watched_refines`, read at the trace beside any notes. -/
theorem watched_mirrors {closely : Bool} (n : Nat) :
    Workflow.Executor.Mirrors (watched c closely n) (execute c n) :=
  fun context task inputs => (watched_refines n context task inputs).mirrors

end Task

end TaskRouting
