import TaskRouting.Availability
import TaskRouting.Proofs.Catalog.Order
import TaskRouting.Proofs.Reach
import TaskRouting.Proofs.Terms
/-!
A survey meets the APIs of exactly the tasks to which a task leads.

# What a visit guarantees

A visit goes through a task and what it leads to, and turns back at workflows
whose keys it has seen. So while it is under way, a workflow may count as seen
though not all that it leads to has been met, and "everything below has been
met" is not preserved. What a visit guarantees is therefore said of the
workflows that are seen in its course: all that they lead to is covered when
it is over (`Extends.closed`), and nothing is met that the task does not lead
to (`Extends.sound`). `Covers` is what has been done for one task. A workflow
is covered as soon as it has been seen, which makes `Covers` survive whatever
comes later (`Covers.mono`).

`Extends` composes (`Extends.refl`, `Extends.trans`); meeting APIs is one kind
of it (`extends_meet`), and going into a workflow is the other
(`extends_of_fresh`), where the workflow itself is the one that is newly seen.

# How long a visit takes

A visit ends because each way out of a workflow uses up one of finitely many
keys, and every other way leads to a smaller task. `Serves` says that visits
end, extend and cover, with so many keys left, and `visit_serves` shows it by
induction on how deep the visit may go; `asks_ends` and `fresh_ends` are its
two kinds of steps.

# What a survey meets

A visit that begins with nothing seen has met everything in the end: all that
the task leads to is covered, by induction on the path (`Covers.of_reaches`),
and so the APIs that were met are those that are required (`mem_apis_iff`).
`exists_visit` is the result.
-/

namespace TaskRouting

open Execution Relation

variable {σ : Type} {c : Collaborators σ} {catalog : Catalog} {root : Task}

/-- The lookup finds what the catalog has under a name. -/
def Collaborators.LooksUpIn (c : Collaborators σ) (catalog : Catalog) :
    Prop :=
  ∀ name world, (c.lookup name world).1 = .ok (.ok (catalog.task? name))

/-- A lookup in a catalog answers with what is there, and leaves some trace
(`consult_of_answer`). -/
theorem Collaborators.LooksUpIn.lookUp (h : c.LooksUpIn catalog)
    (name : String) (t : Trace σ) :
    ∃ t', c.lookUp name t = (.ok (.ok (catalog.task? name)), t') :=
  ⟨_, consult_of_answer (h name t.world)⟩

/-- A tool is callable if the prompt may use functions. -/
theorem Prompt.mem_callable {p : Prompt Task} {name : String} {tool : Task}
    (may : p.capabilities.hasFunctions = true)
    (mem : (name, tool) ∈ p.tools) : tool ∈ p.callable := by
  unfold callable
  rw [if_pos may]
  exact List.mem_map_of_mem (f := Prod.snd) mem

/-- What is callable is a tool of a prompt that may use functions. -/
theorem Prompt.of_mem_callable {p : Prompt Task} {tool : Task}
    (h : tool ∈ p.callable) :
    ∃ name, p.capabilities.hasFunctions = true ∧ (name, tool) ∈ p.tools := by
  unfold callable at h
  by_cases hmay : p.capabilities.hasFunctions = true
  · rw [if_pos hmay] at h
    obtain ⟨⟨name, tool⟩, hmem, rfl⟩ := List.mem_map.1 h
    exact ⟨name, hmay, hmem⟩
  · rw [if_neg hmay] at h
    cases h

/-- The names to which a workflow hands over are `targets` of its routes that
it does not own. -/
theorem Workflow.mem_externalReferences {w : Workflow Task} {name : String} :
    name ∈ w.externalReferences
      ↔ name ∈ w.routing.targets ∧ w.owns name = false := by
  rw [externalReferences, mem_sortedSet, List.mem_filter, Bool.not_eq_true']

namespace Survey

-- =================================================== what a visit does

/-- A task that asks an agent has its APIs met, and then its `callable` tools
are visited. -/
theorem visit_of_asks {task : Task} {p : Prompt Task}
    (hasks : task.prompt? = some p) (n : Nat) (s : Survey) :
    visit c (n + 1) task s = each (visit c n) p.callable
      (s.meet task.identity.requiredApis) := by
  cases task with
  | prompt p =>
    cases hasks
    rfl
  | check k =>
    cases hasks
    rfl
  | workflow w => cases hasks

/-- Of a workflow whose key has been seen only the APIs are met. -/
theorem visit_of_seen {w : Workflow Task} {s : Survey} (h : w.key ∈ s.visited)
    (n : Nat) :
    visit c (n + 1) (.workflow w) s
      = pure (s.meet w.identity.requiredApis) := by
  have hseen : (s.meet w.identity.requiredApis).visited.contains
      w.key = true :=
    List.contains_iff_mem.2 h
  rw [visit]
  exact if_pos hseen

/-- A workflow whose key has not been seen is gone into: its sub-tasks first,
then its `externalReferences`. -/
theorem visit_of_fresh {w : Workflow Task} {s : Survey}
    (h : w.key ∉ s.visited) (n : Nat) :
    visit c (n + 1) (.workflow w) s
      = each (visit c n) (Table.values w.tasks)
          { s.meet w.identity.requiredApis
            with visited := w.key :: s.visited }
        >>= w.externalReferences.foldlM (target c (visit c n)) := by
  have hfresh : ¬ (s.meet w.identity.requiredApis).visited.contains
      w.key = true :=
    fun hseen => h (List.contains_iff_mem.1 hseen)
  rw [visit]
  exact if_neg hfresh

/-- After some APIs have been met, these are met and those from before. By
induction on the APIs, for each is one insertion. -/
theorem mem_meet {s : Survey} {apis : List String} {api : String} :
    api ∈ (s.meet apis).apis.keys ↔ api ∈ apis ∨ api ∈ s.apis.keys := by
  obtain ⟨met, visited⟩ := s
  show api ∈ (apis.foldl (fun met api => met.insert api ()) met).keys
    ↔ api ∈ apis ∨ api ∈ met.keys
  induction apis generalizing met with
  | nil => simp
  | cons first rest ih =>
    rw [List.foldl_cons, ih, Table.mem_keys_insert, List.mem_cons,
      or_left_comm, or_assoc]

/-- Meeting APIs keeps them in order. -/
theorem ascending_meet {s : Survey} (h : s.apis.Ascending)
    (apis : List String) : (s.meet apis).apis.Ascending := by
  obtain ⟨met, visited⟩ := s
  show (apis.foldl (fun met api => met.insert api ()) met).Ascending
  induction apis generalizing met with
  | nil => exact h
  | cons first rest ih => exact ih _ (Table.Ascending.insert h first ())

-- ============================================= what a visit guarantees

/-- A task has been gone through: its APIs are met, its tools have been gone
through if its agent may call them, and if it is a workflow it has been
seen. -/
inductive Covers (s : Survey) : Task → Prop where
  | asks {task : Task} {p : Prompt Task} (asks : task.prompt? = some p)
      (met : ∀ api ∈ task.identity.requiredApis, api ∈ s.apis.keys)
      (tools : ∀ tool ∈ p.callable, Covers s tool) : Covers s task
  | workflow {w : Workflow Task}
      (met : ∀ api ∈ w.identity.requiredApis, api ∈ s.apis.keys)
      (seen : w.key ∈ s.visited) : Covers s (.workflow w)

/-- What lies between two states of a survey that begins with a certain
task. -/
structure Extends (catalog : Catalog) (root : Task)
    (s s' : Survey) : Prop where
  apis : ∀ api ∈ s.apis.keys, api ∈ s'.apis.keys
  visited : ∀ key ∈ s.visited, key ∈ s'.visited
  ascending : s.apis.Ascending → s'.apis.Ascending
  sound : ∀ api ∈ s'.apis.keys, api ∈ s.apis.keys ∨ catalog.Requires root api
  closed : ∀ w next, catalog.Reaches root (.workflow w) → w.key ∈ s'.visited →
    w.key ∉ s.visited → catalog.Leads (.workflow w) next → s'.Covers next

theorem Covers.met {s : Survey} {task : Task} (h : s.Covers task) :
    ∀ api ∈ task.identity.requiredApis, api ∈ s.apis.keys := by
  cases h with
  | asks asks met tools => exact met
  | workflow met seen => exact met

/-- What is covered stays so while the survey goes on. By induction on
`Covers`, as the tools are covered as well. -/
theorem Covers.mono {s s' : Survey} {task : Task} (h : s.Covers task)
    (hextends : Extends catalog root s s') : s'.Covers task := by
  induction h with
  | asks asks met tools ih =>
    exact .asks asks (fun api hapi => hextends.apis api (met api hapi)) ih
  | workflow met seen =>
    exact .workflow (fun api hapi => hextends.apis api (met api hapi))
      (hextends.visited _ seen)

theorem Extends.refl (s : Survey) : Extends catalog root s s where
  apis _ h := h
  visited _ h := h
  ascending h := h
  sound _ h := Or.inl h
  closed _ _ _ hseen hfresh := absurd hseen hfresh

/-- Surveys that extend each other compose. A workflow that was seen in the
first part is covered by the end of that, and remains so; one that was seen in
the second is covered by it. -/
theorem Extends.trans {s s' s'' : Survey} (h : Extends catalog root s s')
    (h' : Extends catalog root s' s'') : Extends catalog root s s'' where
  apis api hapi := h'.apis api (h.apis api hapi)
  visited key hkey := h'.visited key (h.visited key hkey)
  ascending hasc := h'.ascending (h.ascending hasc)
  sound api hapi := by
    rcases h'.sound api hapi with hapi' | hrequired
    · exact h.sound api hapi'
    · exact Or.inr hrequired
  closed w next hreach hseen hfresh hleads := by
    by_cases hbetween : w.key ∈ s'.visited
    · exact (h.closed w next hreach hbetween hfresh hleads).mono h'
    · exact h'.closed w next hreach hseen hbetween hleads

/-- Meeting the APIs of a task that is reached extends a survey. -/
theorem extends_meet {task : Task} (hreach : catalog.Reaches root task)
    (s : Survey) :
    Extends catalog root s (s.meet task.identity.requiredApis) where
  apis _ hapi := mem_meet.2 (Or.inr hapi)
  visited _ hkey := hkey
  ascending hasc := ascending_meet hasc _
  sound api hapi := by
    rcases mem_meet.1 hapi with hrequired | hmet
    · exact Or.inr ⟨task, hreach, hrequired⟩
    · exact Or.inl hmet
  closed _ _ _ hseen hfresh := absurd hseen hfresh

/-- Going into a workflow extends a survey, if all that the workflow `Leads`
to is covered when the visit is over. -/
theorem extends_of_fresh {w : Workflow Task} {s s' : Survey}
    (htell : catalog.KeysTell root)
    (hreach : catalog.Reaches root (.workflow w))
    (hinto : Extends catalog root
      { s.meet w.identity.requiredApis with
        visited := w.key :: s.visited } s')
    (hcovers : ∀ next, catalog.Leads (.workflow w) next → s'.Covers next) :
    Extends catalog root s s' := by
  have hmeet : Extends catalog root s (s.meet w.identity.requiredApis) :=
    extends_meet hreach s
  constructor
  case apis => exact fun api hapi => hinto.apis api (hmeet.apis api hapi)
  case visited =>
    exact fun key hkey => hinto.visited key (List.mem_cons_of_mem _ hkey)
  case ascending => exact fun hasc => hinto.ascending (hmeet.ascending hasc)
  case sound =>
    intro api hapi
    rcases hinto.sound api hapi with hapi' | hrequired
    · exact hmeet.sound api hapi'
    · exact Or.inr hrequired
  case closed =>
    intro w' next hreach' hseen hfresh hleads
    by_cases hkey : w'.key = w.key
    · -- Only one workflow that is reached has this key.
      rw [htell w' w hreach' hreach hkey] at hleads
      exact hcovers next hleads
    · refine hinto.closed w' next hreach' hseen ?_ hleads
      intro hmem
      rcases List.mem_cons.1 hmem with h | h
      · exact hkey h
      · exact hfresh h

-- ============================================== how long a visit takes

/-- How many of some keys have not been seen. -/
def unseen (keys : Finset String) (s : Survey) : Nat :=
  remaining keys s.visited

/-- While a survey goes on, no more keys are `unseen`. -/
theorem Extends.unseen_le {s s' : Survey} (keys : Finset String)
    (h : Extends catalog root s s') : s'.unseen keys ≤ s.unseen keys :=
  remaining_le h.visited

-- ============================================================== visits

/-- Going on at one thing after the other extends a survey if going on at each
of them does, however little is left to be seen. What has been done for one
thing is kept by what follows (`hkeeps`). By induction on the things. -/
theorem foldlM_ends {ι : Type} {go : Survey → ι → Execution σ Survey}
    {done : ι → Survey → Prop} {keys : Finset String} {left : Nat}
    {things : List ι}
    (hkeeps : ∀ i s s', done i s → Extends catalog root s s' → done i s')
    (hgo : ∀ i ∈ things, ∀ s t, s.unseen keys ≤ left →
      ∃ s' t', go s i t = (.ok s', t') ∧ Extends catalog root s s'
        ∧ done i s') :
    ∀ {s : Survey} {t : Trace σ}, s.unseen keys ≤ left →
      ∃ s' t', things.foldlM go s t = (.ok s', t') ∧ Extends catalog root s s'
        ∧ ∀ i ∈ things, done i s' := by
  induction things with
  | nil =>
    intro s t _
    exact ⟨s, t, rfl, .refl s, fun i hi => nomatch hi⟩
  | cons first rest ih =>
    intro s t hleft
    obtain ⟨s₁, t₁, hfirst, hextends₁, hdone₁⟩ :=
      hgo first List.mem_cons_self s t hleft
    have hleft₁ := Nat.le_trans (hextends₁.unseen_le keys) hleft
    obtain ⟨s₂, t₂, hrest, hextends₂, hdone₂⟩ :=
      ih (fun i hi => hgo i (List.mem_cons_of_mem _ hi)) (t := t₁) hleft₁
    refine ⟨s₂, t₂, ?_, hextends₁.trans hextends₂, fun i hi => ?_⟩
    · rw [List.foldlM_cons, bind_apply, hfirst]
      exact hrest
    · rcases List.mem_cons.1 hi with rfl | hi
      · exact hkeeps _ _ _ hdone₁ hextends₂
      · exact hdone₂ i hi

/-- Wherever a visit to a task begins with no more left to be seen than a
certain number of keys, it ends, extends the survey and covers the task. -/
def Serves (c : Collaborators σ) (catalog : Catalog) (root : Task)
    (keys : Finset String) (n left : Nat) (task : Task) : Prop :=
  ∀ s t, s.unseen keys ≤ left →
    ∃ s' t', visit c n task s t = (.ok s', t') ∧ Extends catalog root s s'
      ∧ s'.Covers task

variable {keys : Finset String} {n left : Nat}

/-- Visiting some tasks covers all of them, if each visit `Serves`. -/
theorem each_ends {tasks : List Task} {s : Survey} {t : Trace σ}
    (hserves : ∀ task ∈ tasks, Serves c catalog root keys n left task)
    (hleft : s.unseen keys ≤ left) :
    ∃ s' t', each (visit c n) tasks s t = (.ok s', t')
      ∧ Extends catalog root s s'
      ∧ ∀ task ∈ tasks, s'.Covers task :=
  foldlM_ends (fun _ _ _ hcovers hextends => hcovers.mono hextends)
    hserves hleft

/-- Going on at some names covers what the catalog has under them;
`foldlM_ends` carries that from one name to the next. -/
theorem targets_end (hlookup : c.LooksUpIn catalog) {names : List String}
    {s : Survey} {t : Trace σ}
    (hserves : ∀ name ∈ names, ∀ task, catalog.task? name = some task →
      Serves c catalog root keys n left task) (hleft : s.unseen keys ≤ left) :
    ∃ s' t', names.foldlM (target c (visit c n)) s t = (.ok s', t')
      ∧ Extends catalog root s s'
      ∧ ∀ name ∈ names, ∀ task, catalog.task? name = some task →
        s'.Covers task := by
  refine foldlM_ends (fun name s s' hdone hextends task hknown => ?_)
    (fun name hname s t hleft => ?_) hleft
  · exact (hdone task hknown).mono hextends
  · obtain ⟨t₁, hfound⟩ := hlookup.lookUp name t
    unfold target
    rw [bind_apply, hfound]
    cases hknown : catalog.task? name with
    | none => exact ⟨s, _, rfl, .refl s, fun task h => by cases h⟩
    | some task =>
      obtain ⟨s', t', hvisit, hextends, hcovers⟩ :=
        hserves name hname task hknown s _ hleft
      refine ⟨s', t', hvisit, hextends, fun task' h => ?_⟩
      cases h
      exact hcovers

/-- Going into a workflow covers it, if visits to all that it leads to serve
when the workflow's key is no longer left. The sub-tasks come first
(`each_ends`), then the ways out (`targets_end`). -/
theorem fresh_ends (hlookup : c.LooksUpIn catalog)
    (htell : catalog.KeysTell root) {w : Workflow Task} {s : Survey}
    {t : Trace σ} (hreach : catalog.Reaches root (.workflow w))
    (hfresh : w.key ∉ s.visited)
    (hserves : ∀ next, catalog.Leads (.workflow w) next →
      Serves c catalog root keys n left next)
    (hleft : unseen keys { s.meet w.identity.requiredApis with
      visited := w.key :: s.visited } ≤ left) :
    ∃ s' t', visit c (n + 1) (.workflow w) s t = (.ok s', t')
      ∧ Extends catalog root s s'
      ∧ s'.Covers (.workflow w) := by
  have hsubtasks : ∀ task ∈ Table.values w.tasks,
      Serves c catalog root keys n left task := by
    intro task htask
    obtain ⟨⟨name, task⟩, hmem, rfl⟩ := List.mem_map.1 htask
    exact hserves task (.subtask hmem)
  have htargets : ∀ name ∈ w.externalReferences, ∀ task,
      catalog.task? name = some task →
        Serves c catalog root keys n left task := by
    intro name hname task hknown
    obtain ⟨hrouted, hforeign⟩ := Workflow.mem_externalReferences.1 hname
    exact hserves task (.target hrouted hforeign hknown)
  obtain ⟨s₁, t₁, heach, hextends₁, hcovers₁⟩ :=
    each_ends (t := t) hsubtasks hleft
  have hleft₁ := Nat.le_trans (hextends₁.unseen_le keys) hleft
  obtain ⟨s₂, t₂, hout, hextends₂, hcovers₂⟩ :=
    targets_end hlookup (t := t₁) htargets hleft₁
  have hinto := hextends₁.trans hextends₂
  refine ⟨s₂, t₂, ?_, extends_of_fresh htell hreach hinto ?_, .workflow ?_ ?_⟩
  · rw [visit_of_fresh hfresh, bind_apply, heach]
    exact hout
  · -- Sub-tasks were covered first, and stay so while the targets are
    -- visited.
    intro next hleads
    cases hleads with
    | subtask mem =>
      have hcovers := hcovers₁ _ (List.mem_map_of_mem (f := Prod.snd) mem)
      exact hcovers.mono hextends₂
    | tool asks may mem => cases asks
    | target routed foreign known =>
      exact hcovers₂ _ (Workflow.mem_externalReferences.2 ⟨routed, foreign⟩) _
        known
  · intro api hapi
    exact hinto.apis api (mem_meet.2 (Or.inl hapi))
  · exact hinto.visited w.key List.mem_cons_self

/-- The tools that an agent may call are covered with the task that asks it.
No more keys are left after its APIs have been met. -/
theorem asks_ends {task : Task} {p : Prompt Task} {s : Survey} {t : Trace σ}
    (hreach : catalog.Reaches root task) (hasks : task.prompt? = some p)
    (hserves : ∀ tool ∈ p.callable, Serves c catalog root keys n left tool)
    (hleft : s.unseen keys ≤ left) :
    ∃ s' t', visit c (n + 1) task s t = (.ok s', t')
      ∧ Extends catalog root s s'
      ∧ s'.Covers task := by
  have hmeet : Extends catalog root s (s.meet task.identity.requiredApis) :=
    extends_meet hreach s
  obtain ⟨s', t', heach, hextends, hcovers⟩ := each_ends (t := t) hserves
    (Nat.le_trans (hmeet.unseen_le keys) hleft)
  refine ⟨s', t', ?_, hmeet.trans hextends, .asks hasks ?_ hcovers⟩
  · rw [visit_of_asks hasks]
    exact heach
  · intro api hapi
    exact hextends.apis api (mem_meet.2 (Or.inl hapi))

/-- A visit that may go deep enough `Serves`: for each key that is left once
more than there are sizes of tasks, and then the size of the task. By
induction on that depth. A tool is smaller than what calls it (`asks_ends`),
and a workflow that is gone into leaves one key less (`fresh_ends`). -/
theorem visit_serves (hlookup : c.LooksUpIn catalog)
    (htell : catalog.KeysTell root) {size : Nat}
    (hkeys : ∀ w, catalog.Reaches root (.workflow w) → w.key ∈ keys)
    (hsize : ∀ task, catalog.Reaches root task → sizeOf task ≤ size) :
    ∀ {n left : Nat} {task : Task}, catalog.Reaches root task →
      left * (size + 1) + sizeOf task < n →
        Serves c catalog root keys n left task := by
  intro n
  induction n with
  | zero =>
    intro left task _ hbound
    exact absurd hbound (Nat.not_lt_zero _)
  | succ n ih =>
    intro left task hreach hbound s t hleft
    cases hasks : task.prompt? with
    | some p =>
      -- The tools of a task are smaller than the task, and no more keys are
      -- left.
      refine asks_ends hreach hasks (fun tool htool => ?_) hleft
      obtain ⟨name, may, hmem⟩ := Prompt.of_mem_callable htool
      have hsmaller := Task.Holds.sizeOf_lt (.tool hasks hmem)
      exact ih (hreach.tail (.tool hasks may hmem)) (by omega)
    | none =>
      cases task with
      | prompt p => cases hasks
      | check k => cases hasks
      | workflow w =>
        by_cases hseen : w.key ∈ s.visited
        · refine ⟨_, t, ?_, extends_meet hreach s,
            .workflow (fun api hapi => ?_) hseen⟩
          · rw [visit_of_seen hseen]
            rfl
          · exact mem_meet.2 (Or.inl hapi)
        · -- What the workflow leads to may be of any size, but one key less
          -- is left.
          have hless : unseen keys { s.meet w.identity.requiredApis with
              visited := w.key :: s.visited } < s.unseen keys :=
            remaining_cons_lt (hkeys w hreach) hseen
          obtain ⟨left, rfl⟩ : ∃ left', left = left' + 1 :=
            ⟨left - 1, by omega⟩
          refine fresh_ends hlookup htell hreach hseen (fun next hleads => ?_)
            (Nat.le_of_lt_succ (Nat.lt_of_lt_of_le hless hleft))
          have hnext := hreach.tail hleads
          have hsizeNext := hsize next hnext
          refine ih hnext ?_
          rw [Nat.succ_mul] at hbound
          omega

-- ================================================= what a survey meets

/-- All that a task leads to is covered by a survey that began with nothing
seen and covers the task. By induction on the path: out of a workflow it goes
on by `Extends.closed`, out of any other task by what its cover holds of the
tools. -/
theorem Covers.of_reaches {s : Survey}
    (hextends : Extends catalog root empty s) (hroot : s.Covers root)
    {task : Task} (hreach : catalog.Reaches root task) : s.Covers task := by
  induction hreach with
  | refl => exact hroot
  | tail hbefore hleads ih =>
    cases ih with
    | asks asks met tools =>
      cases hleads with
      | subtask mem => cases asks
      | tool asks' may mem =>
        obtain rfl := Option.some.inj (asks.symm.trans asks')
        exact tools _ (Prompt.mem_callable may mem)
      | target routed foreign known => cases asks
    | workflow met seen =>
      exact hextends.closed _ _ hbefore seen List.not_mem_nil hleads

/-- A survey meets the APIs that a task `Requires`, and no other ones: no
others by `Extends`, and these since it covers all that the task reaches. -/
theorem mem_apis_iff {s : Survey} (hextends : Extends catalog root empty s)
    (hroot : s.Covers root) {api : String} :
    api ∈ s.apis.keys ↔ catalog.Requires root api := by
  constructor
  · intro hmet
    exact (hextends.sound api hmet).resolve_left List.not_mem_nil
  · rintro ⟨task, hreach, hapi⟩
    exact (hroot.of_reaches hextends hreach).met api hapi

/-- A survey of a task ends if it may go deep enough (`visit_serves`), and has
then met the APIs that the task requires. How deep follows from the keys and
sizes of the tasks that it reaches, which are bounded. -/
theorem exists_visit (hlookup : c.LooksUpIn catalog)
    (htell : catalog.KeysTell root) :
    ∃ bound, ∀ n, bound ≤ n → ∀ t : Trace σ, ∃ s t',
      visit c n root empty t = (.ok s, t') ∧ s.apis.Ascending
        ∧ ∀ api, api ∈ s.apis.keys ↔ catalog.Requires root api := by
  obtain ⟨keys, hkeys⟩ := catalog.exists_workflowKeys root
  obtain ⟨size, hsize⟩ := catalog.exists_sizeOf_le root
  refine ⟨keys.card * (size + 1) + size + 1, fun n hn t => ?_⟩
  have hdeep : keys.card * (size + 1) + sizeOf root < n := by
    have hroot := hsize root .refl
    omega
  have hleft : unseen keys empty ≤ keys.card := remaining_le_card
  obtain ⟨s, t', hvisit, hextends, hcovers⟩ :=
    visit_serves hlookup htell hkeys hsize .refl hdeep empty t hleft
  exact ⟨s, t', hvisit, hextends.ascending .nil, fun api =>
    mem_apis_iff hextends hcovers⟩

end Survey

end TaskRouting
