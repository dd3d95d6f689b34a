import Mathlib.Data.Set.Finite.Lattice
import Mathlib.Logic.Relation
import Mathlib.Order.Bounds.Basic
import TaskRouting.Catalog.Build
import TaskRouting.Proofs.CallTree
/-!
Which tasks a task can lead to.

A task holds others inside itself, and a workflow may lead out of itself, by a
routing target that it does not own and that the catalog knows
(`Catalog.Leads`). What a task leads to step by step is all that an execution
or a survey can ever meet (`Catalog.Reaches`).

# Finiteness

The tasks inside a task make a finite tree, but the tasks to which it leads
may lead back to it, so there need be no end to the steps. What keeps the
tasks finite all the same is that a way out always goes to a task of the
catalog (`Leads.cases`): every task that is reached lies inside the root or
inside an entry of the catalog (`Reaches.inside`), and those are finitely many
trees (`Catalog.finite_reaches`). The tree inside one task is finite by
induction on its size, which drops from a task to what it holds
(`Task.Holds.sizeOf_lt`).

# What is read off

`exists_sizeOf_le` and `exists_workflowKeys` are the two bounds that a survey
needs: how deep it can go inside one task, and how many workflow keys there
are to be gone into.
-/

namespace TaskRouting

open Relation

-- ======================================================= inside a task

/-- A task has another one directly inside: as a sub-task, or as a tool,
whether its agent may call that or not. -/
inductive Task.Holds : Task → Task → Prop where
  | subtask {w : Workflow Task} {name : String} {task : Task}
      (mem : (name, task) ∈ w.tasks) : Holds (.workflow w) task
  | tool {task : Task} {p : Prompt Task} {name : String} {tool : Task}
      (asks : task.prompt? = some p) (mem : (name, tool) ∈ p.tools) :
      Holds task tool

namespace Task

/-- What a task has directly inside. -/
def inner : Task → List Task
  | prompt p => Table.values p.tools
  | check k => Table.values k.prompt.tools
  | workflow w => Table.values w.tasks

/-- `Task.inner` misses nothing that a task holds. -/
theorem Holds.mem_inner {task inside : Task} (h : task.Holds inside) :
    inside ∈ task.inner := by
  cases h with
  | subtask mem => exact List.mem_map.2 ⟨_, mem, rfl⟩
  | tool asks mem =>
    cases task with
    | prompt p =>
      cases asks
      exact List.mem_map.2 ⟨_, mem, rfl⟩
    | check k =>
      cases asks
      exact List.mem_map.2 ⟨_, mem, rfl⟩
    | workflow w => cases asks

/-- What is directly inside a task is smaller than it. The cases are the kinds
of tasks; in each one the task is spelled out field by field, so that its size
is the sum of theirs. -/
theorem sizeOf_lt_of_mem_inner {task inside : Task}
    (h : inside ∈ task.inner) : sizeOf inside < sizeOf task := by
  cases task with
  | prompt p =>
    obtain ⟨⟨name, tool⟩, hmem, rfl⟩ := List.mem_map.1 h
    have hlt := List.sizeOf_lt_of_mem hmem
    obtain ⟨identity, agent, capabilities, tools⟩ := p
    simp only [Task.prompt.sizeOf_spec, Prompt.mk.sizeOf_spec,
      Prod.mk.sizeOf_spec] at hlt ⊢
    omega
  | check k =>
    obtain ⟨⟨name, tool⟩, hmem, rfl⟩ := List.mem_map.1 h
    have hlt := List.sizeOf_lt_of_mem hmem
    obtain ⟨⟨identity, agent, capabilities, tools⟩, labels, defaultCode⟩ := k
    simp only [Task.check.sizeOf_spec, Check.mk.sizeOf_spec,
      Prompt.mk.sizeOf_spec, Prod.mk.sizeOf_spec] at hlt ⊢
    omega
  | workflow w =>
    obtain ⟨⟨name, sub⟩, hmem, rfl⟩ := List.mem_map.1 h
    have hlt := List.sizeOf_lt_of_mem hmem
    obtain ⟨identity, tasks, start, routing, maxAttempts, recursive⟩ := w
    simp only [Task.workflow.sizeOf_spec, Workflow.mk.sizeOf_spec,
      Prod.mk.sizeOf_spec] at hlt ⊢
    omega

/-- What a task `Holds` is smaller than it, so tasks inside tasks can be
followed only finitely deep. -/
theorem Holds.sizeOf_lt {task inside : Task} (h : task.Holds inside) :
    sizeOf inside < sizeOf task :=
  sizeOf_lt_of_mem_inner h.mem_inner

/-- A task has only finitely many tasks inside, at any depth: by strong
induction on its size, itself and what is inside one of its `inner` tasks, of
which there are finitely many. -/
theorem finite_inside (task : Task) :
    {inside | ReflTransGen Holds task inside}.Finite := by
  induction hsize : sizeOf task using Nat.strongRecOn generalizing task with
  | _ size ih =>
    have hinner : (⋃ child ∈ {child | child ∈ task.inner},
        {inside | ReflTransGen Holds child inside}).Finite := by
      refine (List.finite_toSet task.inner).biUnion fun child hchild => ?_
      have hlt := sizeOf_lt_of_mem_inner hchild
      exact ih (sizeOf child) (by omega) child rfl
    refine ((Set.finite_singleton task).union hinner).subset
      fun inside hinside => ?_
    -- What is inside is the task itself, or inside one of those directly
    -- inside.
    rcases ReflTransGen.cases_head hinside with rfl | ⟨child, hholds, hrest⟩
    · exact Or.inl rfl
    · exact Or.inr (Set.mem_biUnion hholds.mem_inner hrest)

end Task

-- ==================================================== across a catalog

namespace Catalog

/-- In an execution, or in a survey of its APIs, a task can lead to another
one: to a sub-task, to a tool that its agent may call, or to what the catalog
knows under a routing target that the workflow does not own. -/
inductive Leads (catalog : Catalog) : Task → Task → Prop where
  | subtask {w : Workflow Task} {name : String} {task : Task}
      (mem : (name, task) ∈ w.tasks) : Leads catalog (.workflow w) task
  | tool {task : Task} {p : Prompt Task} {name : String} {tool : Task}
      (asks : task.prompt? = some p)
      (may : p.capabilities.hasFunctions = true)
      (mem : (name, tool) ∈ p.tools) : Leads catalog task tool
  | target {w : Workflow Task} {name : String} {task : Task}
      (routed : name ∈ w.routing.targets) (foreign : w.owns name = false)
      (known : catalog.task? name = some task) :
      Leads catalog (.workflow w) task

/-- A task `Leads` to another one, perhaps through others. -/
def Reaches (catalog : Catalog) : Task → Task → Prop :=
  ReflTransGen catalog.Leads

/-- A task `Reaches` one that needs an API. -/
def Requires (catalog : Catalog) (root : Task) (api : String) : Prop :=
  ∃ task, catalog.Reaches root task ∧ api ∈ task.identity.requiredApis

/-- Of the workflows to which a task leads, no two have the same key. -/
def KeysTell (catalog : Catalog) (root : Task) : Prop :=
  ∀ w w', catalog.Reaches root (.workflow w) →
    catalog.Reaches root (.workflow w') → w.key = w'.key → w = w'

variable {catalog : Catalog}

/-- What a task leads to stands inside of it, or in the catalog. This is what
makes the ways out of a workflow harmless. -/
theorem Leads.cases {task next : Task} (h : catalog.Leads task next) :
    task.Holds next ∨ next ∈ Table.values catalog := by
  cases h with
  | subtask mem => exact Or.inl (.subtask mem)
  | tool asks may mem => exact Or.inl (.tool asks mem)
  | target routed foreign known =>
    exact Or.inr (List.mem_map.2 ⟨_, Table.mem_of_get? known, rfl⟩)

/-- Everything that a task leads to lies inside the task itself or inside an
entry of the catalog: a step inside stays in the same tree, and a step out
begins a new one at its root (`Leads.cases`). -/
theorem Reaches.inside {root task : Task} (h : catalog.Reaches root task) :
    ∃ base ∈ root :: Table.values catalog,
      ReflTransGen Task.Holds base task := by
  induction h with
  | refl => exact ⟨root, List.mem_cons_self, .refl⟩
  | tail _ leads ih =>
    -- A step inside stays below the base that is known; a step out makes the
    -- entry that it reaches the new base.
    rcases leads.cases with hholds | hknown
    · obtain ⟨base, hmem, hinside⟩ := ih
      exact ⟨base, hmem, hinside.tail hholds⟩
    · exact ⟨_, List.mem_cons_of_mem _ hknown, .refl⟩

/-- A task leads to only finitely many tasks: finitely many bases by
`Reaches.inside`, and finitely many tasks inside each
(`Task.finite_inside`). -/
theorem finite_reaches (catalog : Catalog) (root : Task) :
    {task | catalog.Reaches root task}.Finite := by
  have hbases : (⋃ base ∈ {base | base ∈ root :: Table.values catalog},
      {task | ReflTransGen Task.Holds base task}).Finite :=
    (List.finite_toSet (root :: Table.values catalog)).biUnion fun base _ =>
      base.finite_inside
  refine hbases.subset fun task htask => ?_
  obtain ⟨base, hmem, hinside⟩ := Reaches.inside htask
  exact Set.mem_biUnion hmem hinside

/-- The tasks to which a task leads are bounded in size, being finitely many
(`finite_reaches`). -/
theorem exists_sizeOf_le (catalog : Catalog) (root : Task) :
    ∃ bound, ∀ task, catalog.Reaches root task → sizeOf task ≤ bound := by
  obtain ⟨bound, hbound⟩ :=
    ((catalog.finite_reaches root).image sizeOf).bddAbove
  exact ⟨bound, fun task htask => hbound ⟨task, htask, rfl⟩⟩

/-- The workflows to which a task leads have finitely many keys, for the same
reason. -/
theorem exists_workflowKeys (catalog : Catalog) (root : Task) :
    ∃ keys : Finset String, ∀ w, catalog.Reaches root (.workflow w) →
      w.key ∈ keys := by
  have hfinite := (catalog.finite_reaches root).image Task.key
  exact ⟨hfinite.toFinset, fun w hw =>
    hfinite.mem_toFinset.2 ⟨.workflow w, hw, rfl⟩⟩

end Catalog

end TaskRouting
