import TaskRouting.Proofs.Catalog.WellFormed
import TaskRouting.Proofs.Table
/-!
The order in which a document lists its entries does not matter.

Building goes by containment, and of the orders that containment allows it
takes one that depends on where the entries stand. What it builds does not.

# A catalog that builds itself

An entry looks up the tasks that it names and nothing else
(`Entry.build_congr`), and no task is ever replaced, so in the finished
catalog each task is still what its entry is built into
(`Document.Reproduces`). That is kept by one more entry (`Reproduces.add`) and
so holds of the whole building (`reproduces_of_build`). The property does not
mention the order in which the catalog has been built.

# Only one does

Two catalogs that build themselves from the same entries have the same tasks
(`Reproduces.unique`). The induction is along any order of containment, over
its initial segments: the tasks that an entry names are the same in both, and
then so is its own. As maps with the same values are equal, the catalogs are.

What makes a document well-formed says nothing about places either
(`WellFormed.rearrange`), so the rearranged document is built if the first one
is, and `build_rearranged` is an equivalence.
-/

namespace TaskRouting.Catalog

variable {d : Document} {agents : String → Option Agent} {e : Entry}

-- ============================================== what an entry looks up

namespace Entry

/-- The tasks that an entry names are looked up by their keys, and no others
are. By induction on what is named. -/
theorem contained_congr {built known : Catalog}
    (h : ∀ key ∈ Table.values e.tasks, built.task? key = known.task? key) :
    e.contained built = e.contained known := by
  unfold contained
  generalize e.tasks = named at h
  induction named with
  | nil => rfl
  | cons first rest ih =>
    obtain ⟨name, key⟩ := first
    have hfirst : built.task? key = known.task? key :=
      h key List.mem_cons_self
    have hrest := ih fun key hkey => h key (List.mem_cons_of_mem _ hkey)
    rw [List.mapM_cons, List.mapM_cons, hrest]
    simp only [hfirst]

/-- What an entry is built into depends on no tasks but those that it names:
`contained` is all that `buildPrompt` and `buildWorkflow` make of the
catalog. -/
theorem build_congr {shared : Table String Parameter} {built known : Catalog}
    (h : ∀ key ∈ Table.values e.tasks, built.task? key = known.task? key) :
    e.build shared agents built = e.build shared agents known := by
  unfold build buildPrompt buildWorkflow
  rw [contained_congr h]

/-- What an entry names is there if it is bound. -/
theorem Binds.exists_of_named {task? : String → Option Task}
    {bound : List (String × Task)} (h : e.Binds task? bound) {key : String}
    (hkey : key ∈ Table.values e.tasks) : ∃ task, task? key = some task := by
  obtain ⟨⟨name, key⟩, hmem, rfl⟩ := List.mem_map.1 hkey
  obtain ⟨⟨name', task⟩, -, -, hknown⟩ := exists_of_forall₂ h hmem
  exact ⟨task, hknown⟩

/-- An entry `Describes` no task unless those that it names are there
(`Binds.exists_of_named`). -/
theorem Describes.exists_of_named {task? : String → Option Task} {task : Task}
    (h : e.Describes d agents task? task) {key : String}
    (hkey : key ∈ Table.values e.tasks) :
    ∃ named, task? key = some named := by
  cases h with
  | prompt kind prompts => exact prompts.tools.exists_of_named hkey
  | check kind prompts labels defaultCode =>
    exact prompts.tools.exists_of_named hkey
  | workflow kind identity tasks start routing maxAttempts recursive =>
    exact tasks.exists_of_named hkey

end Entry

-- ====================================== catalogs that build themselves

namespace Document

/-- Each of some entries is built from a catalog into the task that the
catalog has under its key. -/
def Reproduces (d : Document) (agents : String → Option Agent)
    (entries : List Entry) (catalog : Catalog) : Prop :=
  ∀ e ∈ entries, ∃ task, e.build d.shared agents catalog = .ok task
    ∧ catalog.task? e.key = some task

/-- One more entry leaves all others reproduced, and is reproduced itself: its
own task is new, and nobody has named it. So `build_congr` applies to each. -/
theorem Reproduces.add {done : List Entry} {built : Catalog}
    (h : d.Reproduces agents done built) (hholds : d.Holds agents done built)
    (hfresh : e.key ∉ done.map (·.key)) {task : Task}
    (hbuilt : e.build d.shared agents built = .ok task) :
    d.Reproduces agents (done ++ [e]) (built.add task) := by
  have hkey : task.key = e.key := (Entry.of_build hbuilt).1.key_eq
  have hold : ∀ {key known}, built.task? key = some known →
      (built.add task).task? key = built.task? key := by
    intro key known hknown
    rw [task?_add, if_neg]
    rintro rfl
    apply hfresh
    rw [← hkey, ← hholds.keys]
    exact Table.mem_keys_iff.2 ⟨known, hknown⟩
  -- Whatever has been built before is built again, since all that it names
  -- was there already.
  have hagain : ∀ {e' task'}, Entry.build e' d.shared agents built
      = .ok task' →
      Entry.build e' d.shared agents (built.add task) = .ok task' := by
    intro e' task' h'
    rw [← h']
    apply Entry.build_congr
    intro key hnamed
    obtain ⟨known, hknown⟩ := (Entry.of_build h').1.exists_of_named hnamed
    exact hold hknown
  intro e' he'
  rcases List.mem_append.1 he' with he' | he'
  · obtain ⟨task', hbuilt', hknown'⟩ := h e' he'
    refine ⟨task', hagain hbuilt', ?_⟩
    rw [hold hknown', hknown']
  · obtain rfl := List.mem_singleton.1 he'
    refine ⟨task, hagain hbuilt, ?_⟩
    rw [task?_add, if_pos hkey.symm]

/-- Entries that have been built one after the other are reproduced, by
induction on the entries, with `Holds` for what has been built so far. -/
theorem reproduces_of_buildAll {entries : List Entry} :
    ∀ {done : List Entry} {built catalog : Catalog},
      d.Holds agents done built →
      d.Reproduces agents done built → ((done ++ entries).map (·.key)).Nodup →
      d.buildAll agents entries built = .ok catalog →
      d.Reproduces agents (done ++ entries) catalog := by
  induction entries with
  | nil =>
    intro done built catalog _ hreproduces _ h
    cases h
    rw [List.append_nil]
    exact hreproduces
  | cons e rest ih =>
    intro done built catalog hholds hreproduces hnodup h
    obtain ⟨task, hbuilt, hrest⟩ := buildAll_cons.1 h
    have hfresh := fresh_of_nodup hnodup
    have hsplit : done ++ e :: rest = (done ++ [e]) ++ rest := by simp
    rw [hsplit] at hnodup ⊢
    apply ih _ _ hnodup hrest
    · exact hholds.add hfresh (Entry.of_build hbuilt).1
    · exact hreproduces.add hholds hfresh hbuilt

/-- The finished catalog has under each key what the entry with that key is
built into, given the finished catalog: `Reproduces.add`, entry by entry. -/
theorem reproduces_of_build {catalog : Catalog}
    (h : d.build agents = .ok catalog) :
    d.Reproduces agents d.entries catalog := by
  obtain ⟨xs, horder, hbuilt⟩ := build_eq_ok_iff.1 h
  obtain ⟨hnodup, hmem, -⟩ := entries_of_order horder
  have hall := reproduces_of_buildAll holds_nil (fun _ hnone => nomatch hnone)
    hnodup hbuilt
  exact fun e he => hall e ((hmem e).2 he)

/-- In two catalogs that build themselves an entry has the same task, if what
it names has. -/
theorem Reproduces.task?_eq {catalog catalog' : Catalog}
    (h : d.Reproduces agents d.entries catalog)
    (h' : d.Reproduces agents d.entries catalog') (he : e ∈ d.entries)
    (hparts : ∀ key ∈ Table.values e.tasks, catalog.task? key
      = catalog'.task? key) :
    catalog.task? e.key = catalog'.task? e.key := by
  obtain ⟨task, hbuilt, hknown⟩ := h e he
  obtain ⟨task', hbuilt', hknown'⟩ := h' e he
  have hsame : task = task' := by
    rw [Entry.build_congr hparts, hbuilt'] at hbuilt
    exact (Except.ok.inj hbuilt).symm
  rw [hknown, hknown', hsame]

/-- Two catalogs that build themselves have the same tasks. By induction on
the initial segments of an order of containment: what an entry names stands
before it, so `Reproduces.task?_eq` applies. -/
theorem Reproduces.unique {catalog catalog' : Catalog} {xs : List String}
    (horder : d.order = .ok xs) (h : d.Reproduces agents d.entries catalog)
    (h' : d.Reproduces agents d.entries catalog') :
    ∀ e ∈ d.entries, catalog.task? e.key = catalog'.task? e.key := by
  obtain ⟨-, hmem, hordered⟩ := entries_of_order horder
  -- Along the order of containment: whatever an entry names stands before it.
  suffices hprefix : ∀ before after, xs.filterMap d.entry? = before ++ after →
      ∀ e ∈ before, catalog.task? e.key = catalog'.task? e.key by
    intro e he
    exact hprefix _ [] (List.append_nil _).symm e ((hmem e).2 he)
  intro before
  induction before using List.reverseRecOn with
  | nil =>
    intro after _ e he
    cases he
  | append_singleton before last ih =>
    intro after hsplit e he
    have hsplit' : xs.filterMap d.entry? = before ++ last :: after := by
      simp [hsplit]
    have hbefore := ih _ hsplit'
    rcases List.mem_append.1 he with he | he
    · exact hbefore e he
    · obtain rfl := List.mem_singleton.1 he
      have hentry : e ∈ d.entries := by
        apply (hmem e).1
        simp [hsplit]
      apply h.task?_eq h' hentry
      intro key hnamed
      obtain ⟨part, hpart, rfl⟩ :=
        List.mem_map.1 (hordered before e after hsplit' key hnamed)
      exact hbefore part hpart

-- ================================================ rearranged documents

/-- Where the entries of a document stand does not show in whether it is
`WellFormed`: each condition is about membership. -/
theorem WellFormed.rearrange {entries : List Entry} (h : d.WellFormed agents)
    (hperm : entries.Perm d.entries) :
    WellFormed { d with entries } agents := by
  have hcontains : Contains { d with entries } = d.Contains := by
    funext owner part
    simp only [Contains, hperm.mem_iff]
  constructor
  case distinct => exact (hperm.map _).nodup_iff.2 h.distinct
  case known =>
    intro e he key hkey
    apply (hperm.map _).mem_iff.2
    exact h.known e (hperm.mem_iff.1 he) key hkey
  case acyclic => rw [hcontains]; exact h.acyclic
  case entries =>
    intro e he
    obtain ⟨properties, agent, labels, start, sources, attempts⟩ :=
      h.entries e (hperm.mem_iff.1 he)
    exact ⟨properties, agent, labels, start, sources, attempts⟩

/-- A rearranged document is built into the same catalog. It is built at all
since it is well-formed (`WellFormed.rearrange`, `exists_build`); and its
catalog, which reproduces the entries just as well, has the same value under
every key (`Reproduces.unique`). -/
theorem build_of_perm {entries : List Entry} (hperm : entries.Perm d.entries)
    {catalog : Catalog} (h : d.build agents = .ok catalog) :
    build { d with entries } agents = .ok catalog := by
  obtain ⟨hwell, hholds⟩ := holds_of_build h
  obtain ⟨catalog', h'⟩ := exists_build (hwell.rearrange hperm)
  obtain ⟨-, hholds'⟩ := holds_of_build h'
  obtain ⟨xs, horder, -⟩ := build_eq_ok_iff.1 h
  have hreproduces' : d.Reproduces agents d.entries catalog' :=
    fun e he => reproduces_of_build h' e (hperm.mem_iff.2 he)
  have hunique := (reproduces_of_build h).unique horder hreproduces'
  have hkeys : ∀ key, key ∈ Table.keys catalog' ↔ key ∈ d.keys := fun key =>
    (hholds'.keys key).trans (hperm.map _).mem_iff
  rw [h']
  congr 1
  apply hholds'.ascending.ext hholds.ascending
  intro key
  by_cases hkey : key ∈ d.keys
  · obtain ⟨e, he, rfl⟩ := List.mem_map.1 hkey
    exact (hunique e he).symm
  · rw [Table.get?_eq_none_iff.2 (mt (hkeys key).1 hkey),
      Table.get?_eq_none_iff.2 (mt (hholds.keys key).1 hkey)]

/-- Documents that list the same entries in different orders are built into
the same catalog, or neither of them is built: `build_of_perm` both ways. -/
theorem build_rearranged (d : Document) (entries : List Entry)
    (hperm : entries.Perm d.entries) (agents : String → Option Agent)
    (catalog : Catalog) :
    build { d with entries } agents = .ok catalog
      ↔ d.build agents = .ok catalog :=
  ⟨build_of_perm (d := { d with entries }) hperm.symm, build_of_perm hperm⟩

/-- The rally read from its end is built in another order, into the same
catalog. -/
theorem rally_reversed_is_built :
    let agents := fun key => some ⟨key, key, false⟩
    let reversed := Document.rally.entries.reverse
    reversed.Perm Document.rally.entries
      ∧ Document.rally.order = .ok ["return", "serve", "pong", "ping"]
      ∧ order { Document.rally with entries := reversed }
        = .ok ["serve", "ping", "return", "pong"]
      ∧ build { Document.rally with entries := reversed } agents
        = .ok Catalog.rally := by
  intro agents reversed
  have hperm : reversed.Perm Document.rally.entries := List.reverse_perm _
  refine ⟨hperm, rfl, rfl, ?_⟩
  exact (build_rearranged Document.rally reversed hperm agents
    Catalog.rally).2 rfl

end Document

end TaskRouting.Catalog
