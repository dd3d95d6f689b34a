import Mathlib.Data.List.Nodup
import TaskRouting.Table
/-!
Maps with ascending keys are determined by what is in them.

`Table` keeps the entries of a map in the order of their keys, so the way in
which a map has been filled does not show. Two things are proved of that, one
about filling a map and one about looking into it.

# Filling

`insert_perm` is the step: a key that is not there yet adds its entry and
keeps the others. `ofList_perm` folds it over a list whose keys all differ,
generalised over the map that is filled, so that the keys still to come are
known to be absent. From there `Ascending.eq_of_perm` finishes: two ascending
lists with the same entries are the same list, since neither of two different
keys can be the smaller one twice.

# Looking up

`Ascending.ext` reads the same fact through `get?`: where every key finds the
same value, the entries are the same, since an ascending map has each key once
(`Ascending.nodup_keys`). `Ascending.le_of_find?` is what the order of the
entries means for a search: the first hit has the least key.
-/

namespace TaskRouting

namespace Table

variable {κ α : Type}

section Order

variable [LT κ] [DecidableLT κ] [Std.Trichotomous (fun a b : κ => a < b)]

/-- A key that a map lacks adds its entry, and every other entry stays; only
the place of the new one depends on the order. By induction on the map, with
one case for each branch of `insert`; an equal key is the case that `h`
excludes. -/
theorem insert_perm {t : Table κ α} {k : κ} {v : α} (h : k ∉ t.keys) :
    (t.insert k v).Perm ((k, v) :: t) := by
  induction t with
  | nil => exact .refl _
  | cons e rest ih =>
    obtain ⟨k', v'⟩ := e
    have hne : k ≠ k' := fun hk => h (hk ▸ List.mem_cons_self)
    have hrest : k ∉ Table.keys rest :=
      fun hk => h (List.mem_cons_of_mem _ hk)
    rw [insert]
    split
    next => exact .refl _
    next hnot =>
      split
      next => exact ((ih hrest).cons _).trans (.swap _ _ _)
      next hnot' =>
        exact absurd (Std.Trichotomous.trichotomous k k' hnot hnot') hne

/-- Entries of different keys fill a map in which they all stay: `insert_perm`
folded over the entries. -/
theorem ofList_perm [DecidableEq κ] [Std.Irrefl (fun a b : κ => a < b)]
    {entries : List (κ × α)} (h : (entries.map Prod.fst).Nodup) :
    (ofList entries).Perm entries := by
  -- The fold starts from any map that has none of the keys; with the empty
  -- map alone the induction would not go through.
  suffices hfill : ∀ t : Table κ α, (∀ k ∈ entries.map Prod.fst, k ∉ t.keys) →
      (entries.foldl (fun t e => t.insert e.1 e.2) t).Perm (entries ++ t) by
    have hempty := hfill [] fun k _ => List.not_mem_nil
    rwa [List.append_nil] at hempty
  induction entries with
  | nil => exact fun t _ => .refl _
  | cons e rest ih =>
    intro t hfresh
    obtain ⟨hnot, hnodup⟩ := List.nodup_cons.1 h
    have hinserted :
        ∀ k ∈ rest.map Prod.fst, k ∉ (t.insert e.1 e.2).keys := by
      intro k hk hmem
      rcases mem_keys_insert.1 hmem with rfl | hmem
      · exact hnot hk
      · exact hfresh k (List.mem_cons_of_mem _ hk) hmem
    refine (ih hnodup _ hinserted).trans ?_
    refine ((insert_perm (hfresh e.1 List.mem_cons_self)).append_left
      rest).trans ?_
    exact List.perm_middle

omit [Std.Trichotomous (fun a b : κ => a < b)] in
/-- A map that is filled from a list has nothing that the list has not. Unlike
`ofList_perm` this needs no different keys: a later value may replace an
earlier one, but both come from the list. -/
theorem mem_of_mem_ofList {entries : List (κ × α)} {e : κ × α}
    (h : e ∈ ofList entries) : e ∈ entries := by
  suffices hfill : ∀ t : Table κ α,
      e ∈ entries.foldl (fun t e => t.insert e.1 e.2) t →
        e ∈ t ∨ e ∈ entries from
    (hfill [] h).resolve_left List.not_mem_nil
  clear h
  induction entries with
  | nil => exact fun t h => .inl h
  | cons first rest ih =>
    intro t h
    rcases ih _ h with hinserted | hrest
    · rcases mem_of_mem_insert hinserted with rfl | ht
      · exact .inr List.mem_cons_self
      · exact .inl ht
    · exact .inr (List.mem_cons_of_mem _ hrest)

end Order

/-- The keys before an entry are smaller than its key, and those after it are
greater: `Ascending` is pairwise, so it can be split at any entry. -/
theorem Ascending.around [LT κ] {before after : Table κ α} {e : κ × α}
    (h : Ascending (before ++ e :: after)) :
    (∀ f ∈ before, f.1 < e.1) ∧ ∀ f ∈ after, e.1 < f.1 := by
  obtain ⟨-, hafter, hbetween⟩ := List.pairwise_append.1 h
  exact ⟨fun f hf => hbetween f hf e List.mem_cons_self,
    (List.pairwise_cons.1 hafter).1⟩

/-- Of the entries with a property, the one that `find?` meets first has the
least key: those before it lack the property, and those after it have greater
keys (`Ascending.around`). -/
theorem Ascending.le_of_find? {t : Table String α} (h : t.Ascending)
    {p : String × α → Bool} {e : String × α} (hfound : t.find? p = some e) :
    ∀ f ∈ t, p f = true → e.1 ≤ f.1 := by
  obtain ⟨-, before, after, rfl, hbefore⟩ :=
    List.find?_eq_some_iff_append.1 hfound
  intro f hf hp
  rcases List.mem_append.1 hf with hf | hf
  · have hnot := hbefore f hf
    rw [hp] at hnot
    cases hnot
  · rcases List.mem_cons.1 hf with rfl | hf
    · exact String.le_refl _
    · exact Std.le_of_lt (h.around.2 f hf)

section Ascending

variable [LT κ] [Std.Irrefl (fun a b : κ => a < b)]

/-- No key of an `Ascending` map occurs twice, since no key is smaller than
itself. -/
theorem Ascending.nodup_keys {t : Table κ α} (h : t.Ascending) :
    t.keys.Nodup := by
  have hne : ∀ {a b : κ}, a < b → a ≠ b :=
    fun hlt heq => Std.Irrefl.irrefl (r := fun a b : κ => a < b) _ (heq ▸ hlt)
  exact (List.pairwise_map.2 h).imp hne

variable [Trans (fun a b : κ => a < b) (fun a b => a < b) (fun a b => a < b)]

/-- There is only one `Ascending` map with certain entries, for a sorted list
is known from what is in it. -/
theorem Ascending.eq_of_perm {t t' : Table κ α} (h : t.Ascending)
    (h' : t'.Ascending) (hperm : t.Perm t') : t = t' := by
  refine hperm.eq_of_pairwise (fun a b _ _ hab hba => ?_) h h'
  exact absurd (Trans.trans hab hba)
    (Std.Irrefl.irrefl (r := fun a b : κ => a < b) a.1)

/-- There is only one map in which certain values are found: `get?` tells
which entries there are, and `eq_of_perm` leaves no choice in their order. -/
theorem Ascending.ext [DecidableEq κ] {t t' : Table κ α} (h : t.Ascending)
    (h' : t'.Ascending) (hsame : ∀ k, t.get? k = t'.get? k) : t = t' := by
  have hmem : ∀ e, e ∈ t ↔ e ∈ t' := by
    rintro ⟨k, v⟩
    constructor
    · intro he
      apply mem_of_get?
      rw [← hsame, get?_of_mem h.nodup_keys he]
    · intro he
      apply mem_of_get?
      rw [hsame, get?_of_mem h'.nodup_keys he]
  apply h.eq_of_perm h'
  exact (List.perm_ext_iff_of_nodup h.nodup_keys.of_map
    h'.nodup_keys.of_map).2 hmem

variable [DecidableLT κ] [DecidableEq κ]
  [Std.Trichotomous (fun a b : κ => a < b)]

/-- The entries of a map fill it again, in whatever order they come, by
`Ascending.eq_of_perm`: what they fill has the same entries and is `Ascending`
too. -/
theorem Ascending.ofList_eq_of_perm {t : Table κ α} {entries : List (κ × α)}
    (h : t.Ascending) (hperm : entries.Perm t) : ofList entries = t := by
  have hnodup : (entries.map Prod.fst).Nodup :=
    (hperm.map Prod.fst).nodup_iff.2 h.nodup_keys
  exact (ascending_ofList entries).eq_of_perm h
    ((ofList_perm hnodup).trans hperm)

/-- In particular they do in the order in which the map has them; this is
`ofList_eq_of_perm` for the permutation that moves nothing. -/
theorem Ascending.ofList_eq {t : Table κ α} (h : t.Ascending) :
    ofList t = t :=
  h.ofList_eq_of_perm (.refl _)

end Ascending

/-- Other values under the same keys leave the keys ascending. -/
theorem Ascending.mapValues {β : Type} [LT κ] {t : Table κ α}
    (h : t.Ascending) (f : α → β) : (t.mapValues f).Ascending :=
  List.pairwise_map.2 h

end Table

end TaskRouting
