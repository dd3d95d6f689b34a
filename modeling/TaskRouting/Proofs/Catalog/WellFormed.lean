import TaskRouting.Proofs.Catalog.Entry
import TaskRouting.Proofs.Catalog.Order
import TaskRouting.Proofs.Reach
import TaskRouting.Proofs.Setting
/-!
Which documents are built, and into what.

# Well-formed documents

A document can go wrong in its keys, in the names of tasks that it does not
have, in tasks that contain themselves, and in single entries;
`Document.WellFormed` says that nothing of this is so. The first three are the
checks of `Document.order`, each of which has its equivalence
(`firstRepeated?_eq_none_iff`, `firstUnknown?_eq_none_iff`,
`exists_order_iff`); the last is a matter of `Entry.WellFormed`.

# The invariant of building

Building follows the order of containment, so whatever an entry names has been
built before it (`entries_of_order`), and no entry fails because a task is
missing. What has been built so far holds a task for each entry that has been
passed, as that entry describes it (`Document.Holds`). One more entry keeps
this, since its key is new and so no task is replaced (`Holds.add`), and by
induction on the entries so do all of them (`holds_of_buildAll`). The other
direction is an induction of the same kind, which finds the tasks that an
entry names among those that are held (`exists_buildAll`).

# Coherence

In the end `Holds` is about all entries of the document, in whatever order. So
a task that is found under a key is the one that the entry with this key
describes, and what it has inside was found under a key of its own
(`Holds.of_inside`, by induction on how deep it lies).
-/

namespace TaskRouting.Catalog

open Relation

variable {d : Document} {agents : String → Option Agent}

-- =========================================================== documents

namespace Document

/-- The entry with one key names another one among its sub-tasks or tools. -/
def Contains (d : Document) (owner part : String) : Prop :=
  ∃ e ∈ d.entries, e.key = owner ∧ part ∈ Table.values e.tasks

/-- A document from which a catalog can be built. -/
structure WellFormed (d : Document)
    (agents : String → Option Agent) : Prop where
  distinct : d.keys.Nodup
  known : ∀ e ∈ d.entries, ∀ key ∈ Table.values e.tasks, key ∈ d.keys
  acyclic : ∀ key, ¬ TransGen d.Contains key key
  entries : ∀ e ∈ d.entries, e.WellFormed d agents

/-- No key is found to be repeated exactly if the keys differ.
`firstRepeated?` keeps the keys that it has seen, so it is proved for any of
those. -/
theorem firstRepeated?_eq_none_iff {keys : List String} :
    firstRepeated? [] keys = none ↔ keys.Nodup := by
  have hgeneral : ∀ seen, firstRepeated? seen keys = none
      ↔ keys.Nodup ∧ ∀ key ∈ keys, key ∉ seen := by
    induction keys with
    | nil =>
      exact fun seen => ⟨fun _ => ⟨.nil, fun _ h => (nomatch h)⟩,
        fun _ => rfl⟩
    | cons key rest ih =>
      intro seen
      unfold firstRepeated?
      by_cases hseen : key ∈ seen
      · rw [if_pos hseen]
        refine ⟨fun h => (nomatch h), fun h => ?_⟩
        exact absurd hseen (h.2 key List.mem_cons_self)
      · rw [if_neg hseen, ih, List.nodup_cons]
        constructor
        · rintro ⟨hnodup, hfresh⟩
          refine ⟨⟨fun hmem => ?_, hnodup⟩, fun other hother => ?_⟩
          · exact hfresh key hmem List.mem_cons_self
          · rcases List.mem_cons.1 hother with rfl | hother
            · exact hseen
            · exact fun h => hfresh other hother (List.mem_cons_of_mem _ h)
        · rintro ⟨⟨hnot, hnodup⟩, hfresh⟩
          refine ⟨hnodup, fun other hother hmem => ?_⟩
          rcases List.mem_cons.1 hmem with rfl | hmem
          · exact hnot hother
          · exact hfresh other (List.mem_cons_of_mem _ hother) hmem
  rw [hgeneral]
  exact ⟨fun h => h.1, fun h => ⟨h, fun _ _ => List.not_mem_nil⟩⟩

/-- No name is found to be unknown exactly if all tasks that entries name are
there. -/
theorem firstUnknown?_eq_none_iff :
    d.firstUnknown? = none ↔ ∀ e ∈ d.entries, ∀ key ∈ Table.values e.tasks,
      key ∈ d.keys := by
  unfold firstUnknown?
  rw [List.findSome?_eq_none_iff]
  refine forall₂_congr fun e _ => ?_
  rw [Option.map_eq_none_iff, List.find?_eq_none]
  refine forall₂_congr fun key _ => ?_
  simp

/-- `Contains`, as it is given to the sorting, is that of the document. -/
theorem contains_containment {owner part : String} :
    d.containment.Contains owner part ↔ d.Contains owner part := by
  constructor
  · rintro ⟨parts, hmem, hpart⟩
    obtain ⟨e, he, heq⟩ := List.mem_map.1 hmem
    cases heq
    exact ⟨e, he, rfl, hpart⟩
  · rintro ⟨e, he, rfl, hpart⟩
    exact ⟨_, List.mem_map.2 ⟨e, he, rfl⟩, hpart⟩

/-- Its members are the keys of the entries. -/
theorem members_containment : d.containment.members = d.keys := List.map_map

/-- The same as an equation between relations, to be used below `TransGen`. -/
theorem containment_contains : d.containment.Contains = d.Contains := by
  funext owner part
  exact propext contains_containment

/-- If all names are known, what is contained in a member is a member. -/
theorem containment_closed
    (hknown : ∀ e ∈ d.entries, ∀ key ∈ Table.values e.tasks, key ∈ d.keys) :
    d.containment.Closed := by
  intro owner part hcontains
  obtain ⟨e, he, -, hpart⟩ := contains_containment.1 hcontains
  rw [members_containment]
  exact hknown e he part hpart

/-- The keys are put in order exactly if they differ
(`firstRepeated?_eq_none_iff`), all names are known
(`firstUnknown?_eq_none_iff`), and the sorting succeeds. The checks are made
in this turn. -/
theorem order_eq_ok_iff {xs : List String} :
    d.order = .ok xs ↔ d.keys.Nodup
      ∧ (∀ e ∈ d.entries, ∀ key ∈ Table.values e.tasks, key ∈ d.keys)
      ∧ d.containment.order = .ok xs := by
  rw [← firstRepeated?_eq_none_iff, ← firstUnknown?_eq_none_iff]
  unfold order
  cases firstRepeated? [] d.keys with
  | some key => exact ⟨fun h => (nomatch h), fun h => (nomatch h.1)⟩
  | none =>
    cases d.firstUnknown? with
    | some unknown => exact ⟨fun h => (nomatch h), fun h => (nomatch h.2.1)⟩
    | none =>
      dsimp only
      rw [mapError_eq_ok_iff]
      exact ⟨fun h => ⟨rfl, rfl, h⟩, fun h => h.2.2⟩

/-- The entries of a document can be put in order exactly if keys are
distinct, names of tasks are known and no task contains itself:
`order_eq_ok_iff`, with `Containment.exists_order_iff` for the sorting. -/
theorem exists_order_iff :
    (∃ xs, d.order = .ok xs) ↔ d.keys.Nodup
      ∧ (∀ e ∈ d.entries, ∀ key ∈ Table.values e.tasks, key ∈ d.keys)
      ∧ ∀ key, ¬ TransGen d.Contains key key := by
  constructor
  · rintro ⟨xs, h⟩
    obtain ⟨hdistinct, hknown, horder⟩ := order_eq_ok_iff.1 h
    refine ⟨hdistinct, hknown, fun key hcircle => ?_⟩
    obtain ⟨-, hmem, hordered⟩ :=
      Containment.ordered_of_order (members_containment ▸ hdistinct) horder
    rw [← containment_contains] at hcircle
    exact hordered.acyclic (fun x hx => (hmem x).2 hx) key hcircle
  · rintro ⟨hdistinct, hknown, hacyclic⟩
    obtain ⟨xs, horder⟩ :=
      (Containment.exists_order_iff (members_containment ▸ hdistinct)
        (containment_closed hknown)).2
        fun x hcircle => hacyclic x (containment_contains ▸ hcircle)
    exact ⟨xs, order_eq_ok_iff.2 ⟨hdistinct, hknown, horder⟩⟩

-- ==================================================== entries in order

/-- Among distinct keys, `entry?` finds an entry under its own. By induction
on the entries. -/
theorem entry?_of_mem (hdistinct : d.keys.Nodup) {e : Entry}
    (he : e ∈ d.entries) : d.entry? e.key = some e := by
  unfold entry?
  unfold keys at hdistinct
  generalize d.entries = entries at hdistinct he
  induction entries with
  | nil => cases he
  | cons first rest ih =>
    rw [List.map_cons, List.nodup_cons] at hdistinct
    rw [List.find?_cons]
    by_cases hkey : first.key = e.key
    · rcases List.mem_cons.1 he with rfl | he
      · simp
      · exact absurd (List.mem_map.2 ⟨e, he, hkey.symm⟩) hdistinct.1
    · rcases List.mem_cons.1 he with rfl | he
      · exact absurd rfl hkey
      · simp only [hkey, decide_false]
        exact ih hdistinct.2 he

/-- What is found under a key is an entry with this key. -/
theorem mem_of_entry?_eq {key : String} {e : Entry}
    (h : d.entry? key = some e) : e ∈ d.entries ∧ e.key = key := by
  unfold entry? at h
  have hkey := List.find?_some h
  exact ⟨List.mem_of_find?_eq_some h, of_decide_eq_true hkey⟩

/-- Keys stand for their entries: looked up one by one, they come back
(`mem_of_entry?_eq`). -/
theorem map_key_filterMap {xs : List String} (h : ∀ x ∈ xs, x ∈ d.keys) :
    (xs.filterMap d.entry?).map (·.key) = xs := by
  induction xs with
  | nil => rfl
  | cons x xs ih =>
    obtain ⟨e, hfound⟩ : ∃ e, d.entry? x = some e := by
      obtain ⟨e, he, hkey⟩ := List.mem_map.1 (h x List.mem_cons_self)
      refine Option.isSome_iff_exists.1 (List.find?_isSome.2 ⟨e, he, ?_⟩)
      exact decide_eq_true hkey
    rw [List.filterMap_cons_some hfound, List.map_cons,
      (mem_of_entry?_eq hfound).2, ih fun y hy =>
      h y (List.mem_cons_of_mem _ hy)]

/-- In order, the entries are those of the document, each after the entries
that it names. What `Containment.ordered_of_order` says of keys is carried
over to entries by `map_key_filterMap`. -/
theorem entries_of_order {xs : List String} (h : d.order = .ok xs) :
    ((xs.filterMap d.entry?).map (·.key)).Nodup
      ∧ (∀ e, e ∈ xs.filterMap d.entry? ↔ e ∈ d.entries)
      ∧ ∀ before e after, xs.filterMap d.entry? = before ++ e :: after →
          ∀ key ∈ Table.values e.tasks, key ∈ before.map (·.key) := by
  obtain ⟨hdistinct, hknown, horder⟩ := order_eq_ok_iff.1 h
  obtain ⟨hnodup, hmem, hordered⟩ :=
    Containment.ordered_of_order (members_containment ▸ hdistinct) horder
  rw [members_containment] at hmem
  have hkeys := map_key_filterMap fun x hx => (hmem x).1 hx
  have hentries : ∀ e, e ∈ xs.filterMap d.entry? ↔ e ∈ d.entries := by
    intro e
    constructor
    · intro he
      obtain ⟨x, -, hfound⟩ := List.mem_filterMap.1 he
      exact (mem_of_entry?_eq hfound).1
    · intro he
      have hx : e.key ∈ xs := (hmem e.key).2 (List.mem_map.2 ⟨e, he, rfl⟩)
      exact List.mem_filterMap.2 ⟨e.key, hx, entry?_of_mem hdistinct he⟩
  refine ⟨hkeys.symm ▸ hnodup, hentries,
    fun before e after hsplit key hkey => ?_⟩
  have hin : e ∈ d.entries :=
    (hentries e).1 (hsplit ▸ List.mem_append_right _ List.mem_cons_self)
  refine hordered (before.map (·.key)) e.key (after.map (·.key)) ?_ key ?_
  · rw [← hkeys, hsplit, List.map_append, List.map_cons]
  · exact contains_containment.2 ⟨e, hin, rfl, hkey⟩

end Document

-- ================================================= what has been built

/-- What is found after a task has been added. -/
theorem task?_add (built : Catalog) (task : Task) (key : String) :
    (built.add task).task? key = if key = task.key then some task
      else built.task? key :=
  Table.get?_insert built task.key key task

namespace Document

/-- What has been built holds one task for each entry that has been passed, as
the entry `Describes` it. -/
structure Holds (d : Document) (agents : String → Option Agent)
    (done : List Entry) (built : Catalog) : Prop where
  ascending : Table.Ascending built
  keys : ∀ key, key ∈ Table.keys built ↔ key ∈ done.map (·.key)
  described : ∀ e ∈ done, ∃ task, built.task? e.key = some task
    ∧ e.Describes d agents built.task? task

theorem holds_nil : d.Holds agents [] [] :=
  ⟨.nil, fun _ => Iff.rfl, fun _ h => (nomatch h)⟩

/-- One more entry keeps the invariant. Its key is new, so the task that it
describes replaces none, and what the other entries describe stays described
(`Describes.mono`). -/
theorem Holds.add {done : List Entry} {built : Catalog}
    (h : d.Holds agents done built) {e : Entry}
    (hfresh : e.key ∉ done.map (·.key)) {task : Task}
    (hdescribes : e.Describes d agents built.task? task) :
    d.Holds agents (done ++ [e]) (built.add task) := by
  have hkey := hdescribes.key_eq
  -- The new task replaces none, so everything is still found that was found
  -- before.
  have hmore : ∀ key known, built.task? key = some known →
      (built.add task).task? key = some known := by
    intro key known hknown
    have hold : key ∈ done.map (·.key) :=
      (h.keys key).1 (Table.mem_keys_iff.2 ⟨known, hknown⟩)
    rw [task?_add, if_neg, hknown]
    rintro rfl
    exact hfresh (hkey ▸ hold)
  constructor
  case ascending => exact h.ascending.insert task.key task
  case keys =>
    intro key
    show key ∈ Table.keys (Table.insert built task.key task) ↔ _
    rw [Table.mem_keys_insert, h.keys, hkey, List.map_append, List.mem_append,
      or_comm, List.map_singleton, List.mem_singleton]
  case described =>
    intro e' he'
    rcases List.mem_append.1 he' with hold | hnew
    · obtain ⟨known, hknown, hdescribed⟩ := h.described e' hold
      exact ⟨known, hmore _ _ hknown, hdescribed.mono hmore⟩
    · obtain rfl := List.mem_singleton.1 hnew
      refine ⟨task, ?_, hdescribes.mono hmore⟩
      rw [task?_add, if_pos hkey.symm]

/-- Builds some entries one after the other. -/
def buildAll (d : Document) (agents : String → Option Agent)
    (entries : List Entry) (built : Catalog) : Except CatalogError Catalog :=
  entries.foldlM (fun (built : Catalog) e => do
    return built.add (← e.build d.shared agents built)) built

/-- Entries are built one after the other, each with those before it at hand:
`bind_eq_ok_iff` for the first of them. -/
theorem buildAll_cons {e : Entry} {rest : List Entry}
    {built catalog : Catalog} :
    d.buildAll agents (e :: rest) built = .ok catalog
      ↔ ∃ task, e.build d.shared agents built = .ok task
        ∧ d.buildAll agents rest (built.add task) = .ok catalog := by
  unfold buildAll
  rw [List.foldlM_cons, bind_eq_ok_iff]
  constructor
  · rintro ⟨added, hadded, hrest⟩
    obtain ⟨task, htask, heq⟩ := bind_eq_ok_iff.1 hadded
    cases heq
    exact ⟨task, htask, hrest⟩
  · rintro ⟨task, htask, hrest⟩
    exact ⟨built.add task, bind_eq_ok_iff.2 ⟨task, htask, rfl⟩, hrest⟩

/-- Among distinct keys, that of the next entry is new. -/
theorem fresh_of_nodup {done rest : List Entry} {e : Entry}
    (h : ((done ++ e :: rest).map (·.key)).Nodup) :
    e.key ∉ done.map (·.key) := by
  rw [List.map_append, List.map_cons] at h
  exact fun hold => (List.nodup_append.1 h).2.2 _ hold _
    List.mem_cons_self rfl

/-- Entries that have been built are well-formed, and held with those before
them. By induction on the entries, with `Holds.add` for each. -/
theorem holds_of_buildAll {entries : List Entry} :
    ∀ {done : List Entry} {built catalog : Catalog},
    d.Holds agents done built → ((done ++ entries).map (·.key)).Nodup →
    d.buildAll agents entries built = .ok catalog →
    d.Holds agents (done ++ entries) catalog
      ∧ ∀ e ∈ entries, e.WellFormed d agents := by
  induction entries with
  | nil =>
    intro done built catalog hholds _ h
    cases h
    rw [List.append_nil]
    exact ⟨hholds, fun e he => (nomatch he)⟩
  | cons e rest ih =>
    intro done built catalog hholds hnodup h
    obtain ⟨task, hbuilt, hrest⟩ := buildAll_cons.1 h
    obtain ⟨hdescribes, hwell⟩ := Entry.of_build hbuilt
    have hfresh := fresh_of_nodup hnodup
    have hsplit : done ++ e :: rest = (done ++ [e]) ++ rest := by
      rw [List.append_assoc, List.singleton_append]
    rw [hsplit] at hnodup ⊢
    obtain ⟨hall, hwells⟩ := ih (hholds.add hfresh hdescribes) hnodup hrest
    refine ⟨hall, fun e' he' => ?_⟩
    rcases List.mem_cons.1 he' with rfl | he'
    · exact hwell
    · exact hwells e' he'

/-- Well-formed entries are built, each after those that it names. By
induction on the entries: what the first one names has been passed, so it is
held, and so the entry is built (`Entry.exists_build`). -/
theorem exists_buildAll {entries : List Entry} :
    ∀ {done : List Entry} {built : Catalog},
    d.Holds agents done built → ((done ++ entries).map (·.key)).Nodup →
    (∀ e ∈ entries, e.WellFormed d agents) →
    (∀ before e after, entries = before ++ e :: after →
      ∀ key ∈ Table.values e.tasks, key ∈ (done ++ before).map (·.key)) →
    ∃ catalog, d.buildAll agents entries built = .ok catalog := by
  induction entries with
  | nil => exact fun {done built} _ _ _ _ => ⟨built, rfl⟩
  | cons e rest ih =>
    intro done built hholds hnodup hwell hordered
    have hknown : ∀ key ∈ Table.values e.tasks, ∃ task,
        built.task? key = some task := by
      intro key hkey
      have hdone := hordered [] e rest rfl key hkey
      rw [List.append_nil] at hdone
      exact Table.mem_keys_iff.1 ((hholds.keys key).2 hdone)
    obtain ⟨task, hbuilt⟩ :=
      Entry.exists_build (hwell e List.mem_cons_self) hknown
    have hfresh := fresh_of_nodup hnodup
    have hsplit : ∀ more, done ++ e :: more = (done ++ [e]) ++ more := by
      intro more
      rw [List.append_assoc, List.singleton_append]
    rw [hsplit] at hnodup
    obtain ⟨catalog, hrest⟩ :=
      ih (hholds.add hfresh (Entry.of_build hbuilt).1) hnodup
        (fun e' he' => hwell e' (List.mem_cons_of_mem _ he'))
        fun before e' after heq key hkey => by
          rw [← hsplit]
          exact hordered (e :: before) e' after (congrArg (e :: ·) heq) key
            hkey
    exact ⟨catalog, buildAll_cons.2 ⟨task, hbuilt, hrest⟩⟩

/-- A document is built by putting its keys in order and building their
entries. -/
theorem build_eq_ok_iff {catalog : Catalog} :
    d.build agents = .ok catalog
      ↔ ∃ xs, d.order = .ok xs ∧ d.buildAll agents (xs.filterMap d.entry?) []
        = .ok catalog :=
  bind_eq_ok_iff

/-- The order of the entries that have been passed does not matter, as `Holds`
asks only which they are. -/
theorem Holds.of_mem_iff {done done' : List Entry} {built : Catalog}
    (h : d.Holds agents done built) (hsame : ∀ e, e ∈ done ↔ e ∈ done') :
    d.Holds agents done' built := by
  refine ⟨h.ascending, fun key => ?_, fun e he =>
    h.described e ((hsame e).2 he)⟩
  rw [h.keys, List.mem_map, List.mem_map]
  exact exists_congr fun e => and_congr_left' (hsame e)

/-- A document that is built is well-formed, and its catalog `Holds` a task
for each of its entries (`holds_of_buildAll`, from the empty catalog). -/
theorem holds_of_build {catalog : Catalog}
    (h : d.build agents = .ok catalog) :
    d.WellFormed agents ∧ d.Holds agents d.entries catalog := by
  obtain ⟨xs, horder, hbuilt⟩ := build_eq_ok_iff.1 h
  obtain ⟨hdistinct, hknown, hacyclic⟩ := exists_order_iff.1 ⟨xs, horder⟩
  obtain ⟨hnodup, hmem, -⟩ := entries_of_order horder
  obtain ⟨hholds, hwell⟩ := holds_of_buildAll holds_nil hnodup hbuilt
  exact ⟨⟨hdistinct, hknown, hacyclic, fun e he => hwell e ((hmem e).2 he)⟩,
    hholds.of_mem_iff hmem⟩

/-- A `WellFormed` document is built: its entries can be put in order, and
each of them can be built. -/
theorem exists_build (h : d.WellFormed agents) :
    ∃ catalog, d.build agents = .ok catalog := by
  obtain ⟨xs, horder⟩ := exists_order_iff.2 ⟨h.distinct, h.known, h.acyclic⟩
  obtain ⟨hnodup, hmem, hordered⟩ := entries_of_order horder
  have hwell : ∀ e ∈ xs.filterMap d.entry?, e.WellFormed d agents :=
    fun e he => h.entries e ((hmem e).1 he)
  obtain ⟨catalog, hbuilt⟩ := exists_buildAll holds_nil hnodup hwell hordered
  exact ⟨catalog, build_eq_ok_iff.2 ⟨xs, horder, hbuilt⟩⟩

-- =========================================================== coherence

variable {catalog : Catalog}

/-- A task of the catalog goes by its key, and is the one that the entry with
that key describes. -/
theorem Holds.of_task? (h : d.Holds agents d.entries catalog) {key : String}
    {task : Task} (hknown : catalog.task? key = some task) :
    task.key = key ∧ ∃ e ∈ d.entries, e.key = key
      ∧ e.Describes d agents catalog.task? task := by
  obtain ⟨e, he, hkey⟩ :=
    List.mem_map.1 ((h.keys key).1 (Table.mem_keys_iff.2 ⟨task, hknown⟩))
  obtain ⟨task', hknown', hdescribes⟩ := h.described e he
  obtain rfl : task = task' := by
    rw [hkey, hknown] at hknown'
    exact Option.some.inj hknown'
  exact ⟨hdescribes.key_eq.trans hkey, e, he, hkey, hdescribes⟩

/-- What a task of the catalog has inside is the catalog's own task of its
key. By induction on how deep it lies: what is known has been described by an
entry (`Holds.of_task?`), so what it holds is known by a key that the entry
names. -/
theorem Holds.of_inside (h : d.Holds agents d.entries catalog) {key : String}
    {task inside : Task} (hknown : catalog.task? key = some task)
    (hinside : ReflTransGen Task.Holds task inside) :
    catalog.task? inside.key = some inside := by
  induction hinside with
  | refl => rw [(h.of_task? hknown).1, hknown]
  | tail _ hholds ih =>
    obtain ⟨-, e, -, -, hdescribes⟩ := h.of_task? ih
    obtain ⟨key, hfound⟩ := hdescribes.of_holds hholds
    rw [(h.of_task? hfound).1, hfound]

/-- A document is built exactly if it is well-formed. Its catalog then has the
keys of its entries, under each of them the task that the entry describes, and
whatever these tasks have inside, however deep, is the catalog's own task of
its key. The parts are `holds_of_build`, `exists_build` and
`Holds.of_inside`. -/
theorem build_exactly_wellFormed (d : Document)
    (agents : String → Option Agent) :
    ((∃ catalog, d.build agents = .ok catalog) ↔ d.WellFormed agents)
      ∧ ∀ catalog, d.build agents = .ok catalog →
          Table.Ascending catalog
          ∧ (∀ key, key ∈ Table.keys catalog ↔ key ∈ d.keys)
          ∧ (∀ e ∈ d.entries, ∃ task, catalog.task? e.key = some task
              ∧ e.Describes d agents catalog.task? task)
          ∧ ∀ key task inside, catalog.task? key = some task →
              ReflTransGen Task.Holds task inside →
                catalog.task? inside.key = some inside := by
  refine ⟨⟨fun ⟨catalog, h⟩ => (holds_of_build h).1, exists_build⟩,
    fun catalog h => ?_⟩
  have hholds := (holds_of_build h).2
  exact ⟨hholds.ascending, hholds.keys, hholds.described,
    fun key task inside hknown hinside => hholds.of_inside hknown hinside⟩

/-- A document is built that lists workflows before the prompts that they run,
and its catalog has the keys of all four. -/
theorem rally_is_wellFormed :
    let agents := fun key => some ⟨key, key, false⟩
    Document.rally.build agents = .ok Catalog.rally
      ∧ Document.rally.WellFormed agents
      ∧ ∀ key, key ∈ Table.keys Catalog.rally
        ↔ key ∈ ["ping", "pong", "serve", "return"] := by
  intro agents
  have hbuilt : Document.rally.build agents = .ok Catalog.rally := rfl
  obtain ⟨hexactly, hfaithful⟩ :=
    build_exactly_wellFormed Document.rally agents
  exact ⟨hbuilt, hexactly.1 ⟨_, hbuilt⟩, (hfaithful _ hbuilt).2.1⟩

end Document

end TaskRouting.Catalog
