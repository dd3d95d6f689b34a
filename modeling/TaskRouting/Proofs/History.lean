import TaskRouting.Proofs.Chronicle
/-!
Histories are well formed and complete.

# Forms

Every node of a response shows the task that it comes from, and has one of the
forms that a response of such a task may have (`Deed.WellFormed`).
`Task.execute_recounts` pairs each node with its task; each pair has been
performed by some layer, and what a layer performs is well formed
(`Deed.Performed.wellFormed`). So the theorem for the whole tree,
`every_node_wellFormed`, needs no induction of its own.

# Leaves

The leaves of a response are its nodes without a history, and these are the
ones of single tasks: prompts, checks, and workflows that have refused their
inputs (`Deed.WellFormed.isLeaf_eq`, one case for each form). Where agents
call no tools, the nodes are all that is executed, in time order, and agents
are asked for nothing else (`history_leaves_nothing_out`).
-/

namespace TaskRouting

variable {σ : Type}

namespace Deed

/-- The task asks an agent: it is a prompt or a check. -/
def asks (d : Deed) : Bool := d.task.prompt?.isSome

/-- The task runs no sub-tasks: it asks an agent, or it refuses its inputs. -/
def single (d : Deed) : Bool :=
  d.asks || (d.task.identity.inputSchema.prepare d.inputs).toOption.isNone

/-- The responses of tasks that run no sub-tasks are leaves. Prompts and
checks stand alone by `WellFormed`; of a workflow it is whether its inputs
have been accepted. -/
theorem WellFormed.isLeaf_eq {d : Deed} (h : d.WellFormed) :
    d.response.isLeaf = d.single := by
  cases h with
  | prompt _ alone _ => exact Response.isLeaf_of_leaf alone.history
  | check _ alone _ => exact Response.isLeaf_of_leaf alone.history
  | @refused w inputs r missing _ refuses alone _ =>
    have hrefused : (w.identity.inputSchema.prepare inputs).toOption.isNone
        = true := by
      rw [refuses]
      rfl
    exact (Response.isLeaf_of_leaf alone.history).trans hrefused.symm
  | @ran w inputs prepared r history _ accepts kept _ =>
    have haccepted : (w.identity.inputSchema.prepare inputs).toOption.isNone
        = false := by
      rw [accepts]
      rfl
    exact (Bool.eq_false_iff.2
      (Response.isLeaf_of_history kept.history)).trans haccepted.symm

/-- Of the nodes of a response, those of single tasks are its leaves. Leaves
are picked from the nodes by `isLeaf` (`Response.leaves_eq_filter`), which is
`single` for every node that is well formed. -/
theorem leaves_of_nodes {deeds : List Deed} {r : Response}
    (hnodes : deeds.map Deed.response = r.nodes)
    (hforms : ∀ d ∈ deeds, d.WellFormed) :
    r.leaves = (deeds.filter single).map Deed.response := by
  rw [r.leaves_eq_filter, ← hnodes, List.filter_map]
  exact congrArg _ (List.filter_congr fun d hd => (hforms d hd).isLeaf_eq)

end Deed

/-- Among agents that say their names, `errand` is refused its question and
then has the `relay` run, all of which is found by evaluation. -/
theorem Workflow.execute_errand :
    ∃ r t', Task.execute .echoing 5 (.fresh false) (.workflow errand) []
        (.start ()) = (.ok r, t')
      ∧ r.nodes.length = 5 ∧ r.leaves.length = 3
      ∧ t'.asked.map Prod.fst = ["first", "second"] := by
  have hends : (Task.execute .echoing 5 (.fresh false) (.workflow errand) []
      (.start ())).1.toOption.map (fun r => (r.nodes.length, r.leaves.length))
      = some (5, 3) := rfl
  have hasked : (Task.execute .echoing 5 (.fresh false) (.workflow errand) []
      (.start ())).2.asked.map Prod.fst = ["first", "second"] := rfl
  rcases hrun : Task.execute .echoing 5 (.fresh false) (.workflow errand)
    [] (.start ()) with ⟨stop | r, t'⟩
  · rw [hrun] at hends
    cases hends
  · rw [hrun] at hends hasked
    obtain ⟨hnodes, hleaves⟩ := Prod.mk.inj (Option.some.inj hends)
    exact ⟨r, t', rfl, hnodes, hleaves, hasked⟩

namespace Task

variable {c : Collaborators σ} {n : Nat} {context : Context} {task : Task}
  {inputs : Inputs} {t t' : Trace σ} {r : Response}

/-- Every response is well formed, and so are those in its history, however
deep: the nodes that `execute_recounts` lists have been performed by a layer
each. -/
theorem every_node_wellFormed
    (h : execute c n context task inputs t = (.ok r, t')) :
    ∃ deeds,
      watched c false n context task inputs (t.beside [])
        = (.ok r, t'.beside deeds)
      ∧ deeds.getLast? = some ⟨task, inputs, r⟩
      ∧ deeds.map Deed.response = r.nodes
      ∧ ∀ d ∈ deeds, d.WellFormed := by
  have hloosely : false = true → c.ToolFree := fun h => nomatch h
  obtain ⟨deeds, hwatched, hnodes, hlast, hperformed, -⟩ :=
    execute_recounts hloosely h
  exact ⟨deeds, hwatched, hlast, hnodes, fun d hd =>
    (hperformed d hd).wellFormed⟩

/-- The `errand`, which is given nothing, shows no inputs, and all five nodes
of its response are well formed by `every_node_wellFormed`. -/
theorem errand_wellFormed :
    ∃ (r : Response) (t' : Trace Unit) (deeds : List Deed),
      execute .echoing 5 (.fresh false) (.workflow .errand) [] (.start ())
        = (.ok r, t')
      ∧ r.inputs = [] ∧ deeds.map Deed.response = r.nodes ∧ deeds.length = 5
      ∧ ∀ d ∈ deeds, d.WellFormed := by
  obtain ⟨r, t', hrun, hlength, -, -⟩ := Workflow.execute_errand
  obtain ⟨deeds, -, hlast, hnodes, hforms⟩ := every_node_wellFormed hrun
  refine ⟨r, t', deeds, hrun, ?_, hnodes, ?_, hforms⟩
  · exact (hforms _ (List.mem_of_getLast? hlast)).signed.inputs
  · rw [← hlength, ← hnodes, List.length_map]

/-- Where agents call no tools, whatever is executed leaves one node in the
response, in time order. The prompts and checks among them, together with the
tasks that have refused their inputs, are its leaves from left to right; and
agents are asked once for each prompt and check that has accepted its inputs,
in the same order, and for nothing else. The first and the last are
`execute_recounts`; the leaves follow from the nodes by
`Deed.leaves_of_nodes`, since a deed is `single` if its response is a leaf. -/
theorem history_leaves_nothing_out (hfree : c.ToolFree)
    (h : execute c n context task inputs t = (.ok r, t')) :
    ∃ deeds,
      watched c true n context task inputs (t.beside [])
        = (.ok r, t'.beside deeds)
      ∧ deeds.map Deed.response = r.nodes
      ∧ (deeds.filter Deed.single).map Deed.response = r.leaves
      ∧ t'.asked = t.asked ++ deeds.filterMap Deed.asked? := by
  obtain ⟨deeds, hwatched, hnodes, -, hperformed, hasked⟩ :=
    execute_recounts (fun _ => hfree) h
  -- The agents' tools are watched as well, and there are none.
  have hforms : ∀ d ∈ deeds, d.WellFormed :=
    fun d hd => (hperformed d hd).wellFormed
  exact ⟨deeds, hwatched, hnodes, (Deed.leaves_of_nodes hnodes hforms).symm,
    hasked hfree⟩

/-- The `errand` runs three `single` tasks, of which two ask their agents. -/
theorem errand_leaves_nothing_out :
    ∃ (r : Response) (t' : Trace Unit) (deeds : List Deed),
      execute .echoing 5 (.fresh false) (.workflow .errand) [] (.start ())
        = (.ok r, t')
      ∧ Collaborators.ToolFree (Collaborators.echoing : Collaborators Unit)
      ∧ (deeds.filter Deed.single).map Deed.response = r.leaves
      ∧ r.leaves.length = 3
      ∧ t'.asked = deeds.filterMap Deed.asked?
      ∧ t'.asked.map Prod.fst = ["first", "second"] := by
  obtain ⟨r, t', hrun, -, hlength, hnames⟩ := Workflow.execute_errand
  have hfree : Collaborators.ToolFree
      (Collaborators.echoing : Collaborators Unit) :=
    fun _ _ _ => trivial
  obtain ⟨deeds, -, -, hleaves, hasked⟩ :=
    history_leaves_nothing_out hfree hrun
  exact ⟨r, t', deeds, hrun, hfree, hleaves, hlength, hasked, hnames⟩

end Task

end TaskRouting
