import Mathlib.Data.UInt
import TaskRouting.Proofs.History
/-!
Usage is counted once.

# Totals

A response reports a total of tokens: a single task sums up its messages, a
workflow the responses in its history, and where nothing was reported there is
no total. `Usage.Totals` says of a total what it is a total of. It is
preserved by summing up: the sum of totals is the total of all their reports
(`totals_sum`), because the counts are added up one by one (`count_additive`,
`count_foldl`) and addition of words is associative, also where it wraps
around.

# Level by level

So summing up level by level comes to the same as summing up, once each, the
messages of all leaves (`Response.totals_leaves`, by induction on the
response). Of the leaves only prompts and checks have messages: the others
have refused their inputs (`WellFormed.reports_eq_nil`). The messages that a
workflow repeats as its own outputs do not count again, and those of tasks
whose failure was routed on do count.

# The usage of a response

`Task.execute_recounts` names the deeds whose responses are the nodes, so that
`usage_counts_messages_once` can speak of prompts and checks that have been
executed. Up to there everything is said of words of 64 bits; `toNat_sum`
turns the sum of words into a sum of numbers where that fits.
-/

namespace TaskRouting

-- ============================================================== totals

namespace Usage

/-- The three counts of tokens. -/
def counts : List (Usage → UInt64) :=
  [promptTokens, completionTokens, totalTokens]

/-- A total of some reports. There is none exactly if nothing was reported. -/
structure Totals (total : Option Usage) (reports : List Usage) : Prop where
  none_iff : total = none ↔ reports = []
  count : ∀ u, total = some u →
    ∀ count ∈ counts, count u = (reports.map count).sum

/-- The counts are added up one by one, and begin with nothing. One case for
each of the three. -/
theorem count_additive {count : Usage → UInt64} (hcount : count ∈ counts) :
    count zero = 0 ∧ ∀ a b, count (a.add b) = count a + count b := by
  simp only [counts, List.mem_cons, List.not_mem_nil, or_false] at hcount
  rcases hcount with rfl | rfl | rfl
  all_goals exact ⟨rfl, fun _ _ => rfl⟩

/-- Adding reports to a usage adds their counts to its own. By induction on
the reports, from whatever usage they are added to; `count_additive` is the
step. -/
theorem count_foldl {count : Usage → UInt64} (hcount : count ∈ counts)
    (reported : List Usage) :
    ∀ u, count (reported.foldl add u)
      = count u + (reported.map count).sum := by
  induction reported with
  | nil => exact fun u => (UInt64.add_zero _).symm
  | cons first rest ih =>
    intro u
    rw [List.foldl_cons, ih, (count_additive hcount).2, List.map_cons,
      List.sum_cons, UInt64.add_assoc]

/-- There is no `sum` exactly if none of the items has a usage. -/
theorem sum_eq_none_iff {items : List (Option Usage)} :
    Usage.sum items = none ↔ items.filterMap id = [] := by
  unfold Usage.sum
  cases items.filterMap id with
  | nil => exact iff_of_true rfl rfl
  | cons first rest =>
    exact iff_of_false (Option.some_ne_none _) (List.cons_ne_nil _ _)

/-- A count of the sum is the sum of the counts of what was reported:
`count_foldl` from `zero`, which counts nothing. -/
theorem count_of_sum {items : List (Option Usage)} {u : Usage}
    (h : Usage.sum items = some u) {count : Usage → UInt64}
    (hcount : count ∈ counts) :
    count u = ((items.filterMap id).map count).sum := by
  unfold Usage.sum at h
  cases hreported : items.filterMap id with
  | nil =>
    rw [hreported] at h
    cases h
  | cons first rest =>
    rw [hreported] at h
    cases h
    rw [count_foldl hcount, (count_additive hcount).1, UInt64.zero_add]

section Sums

variable {ι : Type} {things : List ι} {total : ι → Option Usage}
  {reports : ι → List Usage}

/-- The sum of `Totals` counts the same as all their reports: where there is
no total there are no reports, which count nothing. -/
theorem sum_count_flatMap (h : ∀ i ∈ things, Totals (total i) (reports i))
    {count : Usage → UInt64} (hcount : count ∈ counts) :
    ((things.filterMap total).map count).sum
      = ((things.flatMap reports).map count).sum := by
  induction things with
  | nil => rfl
  | cons first rest ih =>
    have hfirst := h first List.mem_cons_self
    have hrest := ih fun i hi => h i (List.mem_cons_of_mem _ hi)
    rw [List.flatMap_cons, List.map_append, List.sum_append, ← hrest]
    cases htotal : total first with
    | none =>
      rw [List.filterMap_cons_none htotal, hfirst.none_iff.1 htotal,
        List.map_nil, List.sum_nil, UInt64.zero_add]
    | some u =>
      rw [List.filterMap_cons_some htotal, List.map_cons, List.sum_cons,
        hfirst.count u htotal count hcount]

/-- The sum of totals is the total of all their reports. This is the step from
one level of a response to the next: it is missing by `sum_eq_none_iff` or
counts by `sum_count_flatMap`. -/
theorem totals_sum (h : ∀ i ∈ things, Totals (total i) (reports i)) :
    Totals (Usage.sum (things.map total)) (things.flatMap reports) := by
  have hreported : (things.map total).filterMap id
      = things.filterMap total := by
    rw [List.filterMap_map]
    rfl
  constructor
  · rw [sum_eq_none_iff, hreported, List.filterMap_eq_nil_iff,
      List.flatMap_eq_nil_iff]
    exact forall₂_congr fun i hi => (h i hi).none_iff
  · intro u hu count hcount
    rw [count_of_sum hu hcount, hreported, sum_count_flatMap h hcount]

end Sums

/-- One report is its own total. -/
theorem totals_toList (report : Option Usage) :
    Totals report report.toList := by
  cases report with
  | none => exact ⟨iff_of_true rfl rfl, fun u hu => nomatch hu⟩
  | some u =>
    refine ⟨iff_of_false (Option.some_ne_none _) (List.cons_ne_nil _ _),
      fun u' hu' count _ => ?_⟩
    cases hu'
    show count u = count u + 0
    exact (UInt64.add_zero _).symm

/-- A sum of words is the sum of the numbers, as far as that fits. By
induction on the words, each addition of which wraps around. -/
theorem toNat_sum (words : List UInt64) :
    words.sum.toNat = (words.map UInt64.toNat).sum % 2 ^ 64 := by
  induction words with
  | nil => rfl
  | cons first rest ih =>
    rw [List.sum_cons, UInt64.toNat_add, ih, List.map_cons, List.sum_cons,
      Nat.add_mod_mod]

end Usage

-- ======================================================= nested totals

/-- What is reported in the messages of a response. -/
def Response.reports (r : Response) : List Usage :=
  (r.outputs.getD []).flatMap fun message => message.usage.toList

/-- A response with well-formed nodes reports what is reported in the messages
of its leaves. By induction on the response: one without a history reports its
own messages (`Usage.totals_toList` for each), and one with a history the
totals of the entries (`Usage.totals_sum`). -/
theorem Response.totals_leaves (r : Response)
    (h : ∀ node ∈ r.nodes, node.Alone ∨ ∃ entries, node.Keeps entries) :
    Usage.Totals r.usage (r.leaves.flatMap Response.reports) := by
  induction r using Response.induction with
  | h r ih =>
    -- The response is one of its own nodes, and the last of them.
    have hself : r ∈ r.nodes := by
      cases hhistory : r.history with
      | none =>
        rw [nodes_of_leaf hhistory]
        exact List.mem_singleton_self r
      | some entries =>
        rw [nodes_of_history hhistory]
        exact List.mem_append_right _ (List.mem_singleton_self r)
    rcases h r hself with halone | ⟨entries, hkeeps⟩
    · rw [leaves_of_leaf halone.history, List.flatMap_singleton, halone.usage]
      exact Usage.totals_sum fun message _ =>
        Usage.totals_toList message.usage
    · rw [leaves_of_history hkeeps.history, hkeeps.usage, List.flatMap_assoc]
      refine Usage.totals_sum fun entry hentry =>
        ih entries hkeeps.history entry hentry ?_
      intro node hnode
      refine h node ?_
      rw [nodes_of_history hkeeps.history]
      exact List.mem_append_left _ (List.mem_flatMap.2 ⟨entry, hentry, hnode⟩)

namespace Deed

/-- What is well formed reports either its own messages or its history. -/
theorem WellFormed.counted {d : Deed} (h : d.WellFormed) :
    d.response.Alone ∨ ∃ entries, d.response.Keeps entries := by
  cases h with
  | prompt _ alone _ => exact Or.inl alone
  | check _ alone _ => exact Or.inl alone
  | refused _ _ alone _ => exact Or.inl alone
  | ran _ _ kept _ => exact Or.inr ⟨_, kept⟩

/-- What is reported in the messages of prompts and checks, message by
message. -/
def reported (deeds : List Deed) : List Usage :=
  (deeds.filter asks).flatMap fun d => d.response.reports

/-- How many tokens are reported in the messages of prompts and checks. -/
def tokens (count : Usage → UInt64) (deeds : List Deed) : Nat :=
  ((reported deeds).map fun report => (count report).toNat).sum

/-- A task that runs no sub-tasks and asks no agent has refused its inputs,
and has no messages. That is the one form of `Deed.WellFormed` that is left
for it. -/
theorem WellFormed.reports_eq_nil {d : Deed} (h : d.WellFormed)
    (hsingle : d.single = true) (hasks : ¬ d.asks = true) :
    d.response.reports = [] := by
  cases h with
  | prompt => exact absurd rfl hasks
  | check => exact absurd rfl hasks
  | refused _ _ _ fails =>
    rw [Response.reports, fails.outputs]
    rfl
  | @ran w inputs prepared r history _ accepts kept _ =>
    have haccepted : (w.identity.inputSchema.prepare inputs).toOption.isNone
        = true := hsingle
    rw [accepts] at haccepted
    cases haccepted

/-- Of the leaves of a response, only prompts and checks report anything. By
induction on the deeds; a single one that asks nobody has no reports
(`WellFormed.reports_eq_nil`). -/
theorem flatMap_single {deeds : List Deed}
    (hforms : ∀ d ∈ deeds, d.WellFormed) :
    (deeds.filter single).flatMap (fun d => d.response.reports)
      = reported deeds := by
  unfold reported
  induction deeds with
  | nil => rfl
  | cons d rest ih =>
    have hrest := ih fun d' hd' => hforms d' (List.mem_cons_of_mem _ hd')
    by_cases hasks : d.asks = true
    · have hsingle : d.single = true := by rw [single, hasks, Bool.true_or]
      rw [List.filter_cons_of_pos hsingle, List.filter_cons_of_pos hasks,
        List.flatMap_cons, List.flatMap_cons, hrest]
    · rw [List.filter_cons_of_neg hasks]
      by_cases hsingle : d.single = true
      · rw [List.filter_cons_of_pos hsingle, List.flatMap_cons, hrest,
          (hforms d List.mem_cons_self).reports_eq_nil hsingle hasks,
          List.nil_append]
      · rw [List.filter_cons_of_neg hsingle, hrest]

end Deed

namespace Task

variable {σ : Type} {c : Collaborators σ} {n : Nat} {context : Context}
  {task : Task} {inputs : Inputs} {t t' : Trace σ} {r : Response}

/-- The usage of a response is that of all messages of the prompts and checks
that are nodes of it, each counted once. It is missing exactly where none of
them reports usage; otherwise each of its counts is the sum of theirs, if that
fits into a word of 64 bits.

The nodes are the deeds of a watched execution (`execute_recounts`), all of
them well formed, so `Response.totals_leaves` gives the total of the leaves,
and `flatMap_single` turns leaves into prompts and checks. -/
theorem usage_counts_messages_once
    (h : execute c n context task inputs t = (.ok r, t')) :
    ∃ deeds,
      watched c false n context task inputs (t.beside [])
        = (.ok r, t'.beside deeds)
      ∧ deeds.map Deed.response = r.nodes
      ∧ (r.usage = none ↔ Deed.reported deeds = [])
      ∧ ∀ u, r.usage = some u → ∀ count ∈ Usage.counts,
          Deed.tokens count deeds < 2 ^ 64 →
            (count u).toNat = Deed.tokens count deeds := by
  have hloosely : false = true → c.ToolFree := fun h => nomatch h
  obtain ⟨deeds, hwatched, hnodes, -, hperformed, -⟩ :=
    execute_recounts hloosely h
  have hforms : ∀ d ∈ deeds, d.WellFormed :=
    fun d hd => (hperformed d hd).wellFormed
  -- From prompts and checks to single deeds, from these to the leaves.
  have htotals : Usage.Totals r.usage (Deed.reported deeds) := by
    rw [← Deed.flatMap_single hforms, ← List.flatMap_map,
      ← Deed.leaves_of_nodes hnodes hforms]
    refine r.totals_leaves fun node hnode => ?_
    rw [← hnodes] at hnode
    obtain ⟨d, hd, rfl⟩ := List.mem_map.1 hnode
    exact (hforms d hd).counted
  refine ⟨deeds, hwatched, hnodes, htotals.none_iff,
    fun u hu count hcount hfits => ?_⟩
  rw [htotals.count u hu count hcount, Usage.toNat_sum, List.map_map]
  exact Nat.mod_eq_of_lt hfits

/-- Two agents have used five tokens each. The errand repeats what the relay
has repeated of the last of them, and reports ten. -/
theorem errand_counts_messages_once :
    ∃ (r : Response) (t' : Trace Unit) (deeds : List Deed) (u : Usage),
      execute .metered 5 (.fresh false) (.workflow .errand) [] (.start ())
        = (.ok r, t')
      ∧ deeds.map Deed.response = r.nodes ∧ r.usage = some u
      ∧ Deed.tokens Usage.totalTokens deeds = 10
      ∧ u.totalTokens.toNat = 10 := by
  have hends : (execute .metered 5 (.fresh false) (.workflow .errand) []
      (.start ())).1.toOption.any (·.usage.isSome) = true := rfl
  have hwritten : Deed.tokens Usage.totalTokens
      (watched .metered false 5 (.fresh false) (.workflow .errand) []
        ((Trace.start ()).beside [])).2.world.2 = 10 := rfl
  rcases hrun : execute .metered 5 (.fresh false) (.workflow .errand)
    [] (.start ()) with ⟨stop | r, t'⟩
  · rw [hrun] at hends
    cases hends
  · rw [hrun] at hends
    obtain ⟨u, hu⟩ := Option.isSome_iff_exists.1 hends
    obtain ⟨deeds, hwatched, hnodes, -, hcounts⟩ :=
      usage_counts_messages_once hrun
    rw [hwatched] at hwritten
    have htokens : Deed.tokens Usage.totalTokens deeds = 10 := hwritten
    have htotal : Usage.totalTokens ∈ Usage.counts := by simp [Usage.counts]
    refine ⟨r, t', deeds, u, rfl, hnodes, hu, htokens, ?_⟩
    rw [hcounts u hu _ htotal (by rw [htokens]; decide), htokens]

end Task

end TaskRouting
