import Mathlib.Data.List.Basic
import TaskRouting.Response.Basic
/-!
Responses as trees.

A response holds the responses of its sub-tasks, and those may hold more.
`nodes` are all responses of such a tree, in the order in which they were
given: a task responds after its sub-tasks have. `leaves` are those that hold
no history, from left to right. They are found among the nodes in the same
order (`leaves_eq_filter`).

# Induction

A history is a list inside an option, so Lean's own induction on responses
comes with two motives more than anybody needs. `induction` has one: what
holds of a response wherever it holds of the entries of its history holds of
every response, since each entry is smaller (`sizeOf_lt_of_mem_history`).

# Equations

`nodes` and `leaves` match on all fields of a response, as structural
recursion through a list asks them to. The equations by which they are used
look at the history alone: `nodes_of_leaf`, `nodes_of_history`,
`leaves_of_leaf` and `leaves_of_history`; `forall_mem_nodes_iff` is the first
two for a property of all nodes.
-/

namespace TaskRouting.Response

-- =========================================================== histories

/-- The entries of a history are smaller than the response that holds it. -/
theorem sizeOf_lt_of_mem_history {r entry : Response}
    {entries : List Response} (hhistory : r.history = some entries)
    (hmem : entry ∈ entries) : sizeOf entry < sizeOf r := by
  obtain ⟨header, status, code, outputs, inputs, diagnostic, usage, history,
      createdAt⟩ := r
  cases hhistory
  have hlt : sizeOf entry < sizeOf entries := List.sizeOf_lt_of_mem hmem
  simp only [mk.sizeOf_spec, Option.some.sizeOf_spec]
  omega

/-- What holds of a response wherever it holds of its history holds of every
response: by induction on the size, as entries are smaller
(`sizeOf_lt_of_mem_history`). -/
theorem induction {motive : Response → Prop}
    (h : ∀ r, (∀ entries, r.history = some entries →
      ∀ entry ∈ entries, motive entry) → motive r)
    (r : Response) : motive r :=
  h r fun _ hhistory entry hmem =>
    have := sizeOf_lt_of_mem_history hhistory hmem
    induction h entry
termination_by sizeOf r

-- ==================================================== nodes and leaves

/-- A response that holds no history. -/
def isLeaf (r : Response) : Bool := r.history.isNone

theorem isLeaf_of_leaf {r : Response} (h : r.history = none) :
    r.isLeaf = true := by
  rw [isLeaf, h]
  rfl

/-- A response with a history is no leaf by `isLeaf`, even if the history is
empty. -/
theorem isLeaf_of_history {r : Response} {entries : List Response}
    (h : r.history = some entries) : ¬ r.isLeaf = true := by
  rw [isLeaf, h]
  exact Bool.false_ne_true

mutual

/-- All responses within a response, each after those of its history. -/
def nodes : Response → List Response
  | ⟨header, status, code, outputs, inputs, diagnostic, usage, history,
    createdAt⟩ =>
    (match history with
    | none => []
    | some entries => nodesOf entries)
      ++ [⟨header, status, code, outputs, inputs, diagnostic, usage,
        history, createdAt⟩]

/-- All responses within some responses, in turn. -/
def nodesOf : List Response → List Response
  | [] => []
  | r :: rest => nodes r ++ nodesOf rest

end

mutual

/-- The responses without a history within a response, from left to right. -/
def leaves : Response → List Response
  | ⟨header, status, code, outputs, inputs, diagnostic, usage, history,
    createdAt⟩ =>
    match history with
    | none =>
      [⟨header, status, code, outputs, inputs, diagnostic, usage,
        history, createdAt⟩]
    | some entries => leavesOf entries

/-- The responses without a history within some responses. -/
def leavesOf : List Response → List Response
  | [] => []
  | r :: rest => leaves r ++ leavesOf rest

end

/-- The nodes of a list of responses are those of each one in turn: the
recursion of `nodesOf` written as a `flatMap`. -/
theorem nodesOf_eq (entries : List Response) :
    nodesOf entries = entries.flatMap nodes := by
  induction entries with
  | nil => rfl
  | cons r rest ih => rw [nodesOf, ih, List.flatMap_cons]

/-- The leaves of a list of responses are those of each one in turn, as for
`nodesOf_eq`. -/
theorem leavesOf_eq (entries : List Response) :
    leavesOf entries = entries.flatMap leaves := by
  induction entries with
  | nil => rfl
  | cons r rest ih => rw [leavesOf, ih, List.flatMap_cons]

/-- A leaf is its only node. -/
theorem nodes_of_leaf {r : Response} (h : r.history = none) :
    r.nodes = [r] := by
  cases r
  cases h
  rfl

/-- A response with a history comes after all nodes of that history
(`nodesOf_eq`). -/
theorem nodes_of_history {r : Response} {entries : List Response}
    (h : r.history = some entries) :
    r.nodes = entries.flatMap nodes ++ [r] := by
  cases r
  cases h
  rw [nodes, nodesOf_eq]

theorem leaves_of_leaf {r : Response} (h : r.history = none) :
    r.leaves = [r] := by
  cases r
  cases h
  rfl

/-- A response with a history has the leaves of that history (`leavesOf_eq`),
and is none itself. -/
theorem leaves_of_history {r : Response} {entries : List Response}
    (h : r.history = some entries) : r.leaves = entries.flatMap leaves := by
  cases r
  cases h
  rw [leaves, leavesOf_eq]

/-- The leaves are the nodes without a history, in the same order. By
`induction`: the two lists are put together from the entries in the same way,
and the response itself, which comes last, is dropped unless it is a leaf. -/
theorem leaves_eq_filter (r : Response) :
    r.leaves = r.nodes.filter isLeaf := by
  induction r using induction with
  | h r ih =>
    cases hhistory : r.history with
    | none =>
      rw [leaves_of_leaf hhistory, nodes_of_leaf hhistory,
        List.filter_cons_of_pos (isLeaf_of_leaf hhistory), List.filter_nil]
    | some entries =>
      have hentries : entries.flatMap leaves
          = (entries.flatMap nodes).filter isLeaf := by
        rw [List.filter_flatMap]
        exact List.flatMap_congr (ih entries hhistory)
      rw [leaves_of_history hhistory, nodes_of_history hhistory,
        List.filter_append, hentries,
        List.filter_cons_of_neg (isLeaf_of_history hhistory), List.filter_nil,
        List.append_nil]

/-- What holds of all `nodes` of a response holds of the response, and of all
within its history. -/
theorem forall_mem_nodes_iff {P : Response → Prop} {r : Response} :
    (∀ node ∈ r.nodes, P node)
      ↔ P r ∧ ∀ entries ∈ r.history, ∀ entry ∈ entries,
        ∀ node ∈ entry.nodes, P node := by
  cases hhistory : r.history with
  | none =>
    rw [nodes_of_leaf hhistory, List.forall_mem_singleton]
    exact (and_iff_left fun entries hentries => nomatch hentries).symm
  | some entries =>
    rw [nodes_of_history hhistory, List.forall_mem_append,
      List.forall_mem_singleton, and_comm]
    refine and_congr_right fun _ => ?_
    constructor
    · rintro h entries' ⟨⟩ entry hentry node hnode
      exact h node (List.mem_flatMap.2 ⟨entry, hentry, hnode⟩)
    · intro h node hnode
      obtain ⟨entry, hentry, hnode⟩ := List.mem_flatMap.1 hnode
      exact h entries rfl entry hentry node hnode

end TaskRouting.Response
