/-!
Finite maps that are read in key order.

Everything that the program keeps by name or by number (inputs, sub-tasks,
routes, result codes) is listed in ascending key order wherever it is shown,
so a map is kept as just that list: its entries, strictly ascending by key.
Two maps with the same entries are then equal, and the order in which they
were filled leaves no trace.
-/

namespace TaskRouting

/-- A finite map, as its entries in strictly ascending key order. -/
abbrev Table (κ : Type u) (α : Type v) : Type (max u v) := List (κ × α)

namespace Table

variable {κ : Type u} {α : Type v} {β : Type w}

/-- The keys, in ascending order. -/
def keys (t : Table κ α) : List κ := t.map Prod.fst

/-- The values, in ascending order of their keys. -/
def values (t : Table κ α) : List α := t.map Prod.snd

/-- Keys ascend strictly, so no key occurs twice. -/
def Ascending [LT κ] (t : Table κ α) : Prop := t.Pairwise (·.1 < ·.1)

section Lookup

variable [DecidableEq κ]

/-- The value kept under a key. -/
def get? (t : Table κ α) (k : κ) : Option α :=
  match t with
  | [] => none
  | (k', v) :: rest => if k = k' then some v else get? rest k

/-- Whether some value is kept under a key. -/
def contains (t : Table κ α) (k : κ) : Bool := (t.get? k).isSome

/-- A value that is found stands in the map with its key. -/
theorem mem_of_get? {t : Table κ α} {k : κ} {v : α} (h : t.get? k = some v) :
    (k, v) ∈ t := by
  induction t with
  | nil => simp [get?] at h
  | cons e rest ih =>
    obtain ⟨k', v'⟩ := e
    by_cases hk : k = k'
    · simp [get?, hk] at h
      simp [hk, h]
    · simp [get?, hk] at h
      exact List.mem_cons_of_mem _ (ih h)

/-- Where keys occur once, each entry holds the value of its key. -/
theorem get?_of_mem {t : Table κ α} (hdistinct : t.keys.Nodup) {k : κ} {v : α}
    (h : (k, v) ∈ t) : t.get? k = some v := by
  induction t with
  | nil => cases h
  | cons e rest ih =>
    obtain ⟨k', v'⟩ := e
    obtain ⟨hnot, hrest⟩ := List.nodup_cons.1 hdistinct
    rcases List.mem_cons.1 h with heq | hmem
    · cases heq
      exact if_pos rfl
    · have hne : k ≠ k' := by
        rintro rfl
        exact hnot (List.mem_map.2 ⟨_, hmem, rfl⟩)
      rw [get?, if_neg hne]
      exact ih hrest hmem

/-- Nothing is found exactly under what is no key. -/
theorem get?_eq_none_iff {t : Table κ α} {k : κ} :
    t.get? k = none ↔ k ∉ t.keys := by
  induction t with
  | nil => simp [get?, keys]
  | cons e rest ih =>
    obtain ⟨k', v'⟩ := e
    by_cases hk : k = k'
    · simp [get?, keys, hk]
    · rw [get?, if_neg hk, ih]
      simp [keys, hk]

/-- A key has a value exactly if it is one of the keys. -/
theorem mem_keys_iff {t : Table κ α} {k : κ} :
    k ∈ t.keys ↔ ∃ v, t.get? k = some v := by
  cases hget : t.get? k with
  | none => simp [get?_eq_none_iff.1 hget]
  | some v =>
    simp [keys, List.mem_map_of_mem (f := Prod.fst) (mem_of_get? hget)]

/-- `contains` tells the keys. -/
theorem contains_iff {t : Table κ α} {k : κ} :
    t.contains k = true ↔ k ∈ t.keys := by
  rw [contains, Option.isSome_iff_exists, mem_keys_iff]

end Lookup

section Order

variable [LT κ] [DecidableLT κ]

/-- Keeps a value under a key, in place of the one kept there before. -/
def insert (t : Table κ α) (k : κ) (v : α) : Table κ α :=
  match t with
  | [] => [(k, v)]
  | (k', v') :: rest =>
    if k < k' then (k, v) :: (k', v') :: rest
    else if k' < k then (k', v') :: insert rest k v
    else (k, v) :: rest

/-- The map that a list of entries fills; of two entries with one key the
later one stays. -/
def ofList (entries : List (κ × α)) : Table κ α :=
  entries.foldl (fun t e => t.insert e.1 e.2) []

/-- Adds the entries of a second map, which win where both have a key. -/
def override (t more : Table κ α) : Table κ α :=
  more.foldl (fun t e => t.insert e.1 e.2) t

end Order

/-- The value of the last entry with a key. -/
def last? [DecidableEq κ] (entries : List (κ × α)) (k : κ) : Option α :=
  (entries.reverse.find? (·.1 = k)).map Prod.snd

-- ================================================= what insertion does

section Insertion

variable [LT κ] [DecidableLT κ]

/-- Insertion brings in nothing but the new entry. -/
theorem mem_of_mem_insert {t : Table κ α} {k : κ} {v : α} {e : κ × α}
    (h : e ∈ t.insert k v) : e = (k, v) ∨ e ∈ t := by
  induction t with
  | nil => exact Or.inl (List.mem_singleton.1 h)
  | cons e' rest ih =>
    simp only [insert] at h
    split at h
    · exact List.mem_cons.1 h
    · split at h
      · rcases List.mem_cons.1 h with rfl | h
        · exact Or.inr List.mem_cons_self
        · exact (ih h).imp_right (List.mem_cons_of_mem _)
      · exact (List.mem_cons.1 h).imp_right (List.mem_cons_of_mem _)

variable [DecidableEq κ] [irrefl : Std.Irrefl (fun a b : κ => a < b)]
  [trichotomous : Std.Trichotomous (fun a b : κ => a < b)]

/-- After an insertion the new value is found under its key, and everything
else as before. -/
theorem get?_insert (t : Table κ α) (k l : κ) (v : α) :
    (t.insert k v).get? l = if l = k then some v else t.get? l := by
  induction t with
  | nil => rfl
  | cons e rest ih =>
    obtain ⟨k', v'⟩ := e
    by_cases h₁ : k < k'
    · simp [insert, h₁, get?]
    by_cases h₂ : k' < k
    · have hne : k' ≠ k := fun h => irrefl.irrefl k (h ▸ h₂)
      by_cases hl : l = k'
      · simp [insert, h₁, h₂, get?, hl, hne]
      · simp [insert, h₁, h₂, get?, hl, ih]
    · obtain rfl := trichotomous.trichotomous k k' h₁ h₂
      by_cases hl : l = k <;> simp [insert, h₁, get?, hl]

/-- What is found after some entries have been added is the last of them, or
what was there before. -/
theorem get?_override (t more : Table κ α) (k : κ) :
    (t.override more).get? k = (last? more k).or (t.get? k) := by
  induction more generalizing t with
  | nil => rfl
  | cons e rest ih =>
    show (override (t.insert e.1 e.2) rest).get? k = _
    rw [ih, get?_insert]
    unfold last?
    rw [List.reverse_cons, List.find?_append]
    cases rest.reverse.find? (·.1 = k) with
    | some later => rfl
    | none =>
      by_cases hk : k = e.1
      · simp [hk]
      · simp [hk, Ne.symm hk]

/-- Of the entries that fill a map the last one with a key is found. -/
theorem get?_ofList (entries : List (κ × α)) (k : κ) :
    (ofList entries).get? k = last? entries k := by
  have h := get?_override [] entries k
  rw [get?, Option.or_none] at h
  exact h

/-- Insertion adds its own key and no other. -/
theorem mem_keys_insert {t : Table κ α} {k l : κ} {v : α} :
    l ∈ (t.insert k v).keys ↔ l = k ∨ l ∈ t.keys := by
  rw [mem_keys_iff, mem_keys_iff, get?_insert]
  by_cases hl : l = k
  · simp [hl]
  · simp [hl]

/-- The map that some entries fill has their keys. -/
theorem mem_keys_ofList {entries : List (κ × α)} {k : κ} :
    k ∈ (ofList entries).keys ↔ k ∈ entries.map Prod.fst := by
  suffices h : ∀ t : Table κ α,
      k ∈ (entries.foldl (fun t e => t.insert e.1 e.2) t).keys
        ↔ k ∈ t.keys ∨ k ∈ entries.map Prod.fst by
    rw [ofList, h]
    simp [keys]
  induction entries with
  | nil => simp
  | cons e rest ih =>
    intro t
    rw [List.foldl_cons, ih, mem_keys_insert, List.map_cons, List.mem_cons]
    grind

variable
  [trans : Trans (fun a b : κ => a < b) (fun a b => a < b) (fun a b => a < b)]

omit [DecidableEq κ] irrefl in
/-- Insertion keeps the order of the keys. -/
theorem Ascending.insert {t : Table κ α} (h : t.Ascending) (k : κ) (v : α) :
    (t.insert k v).Ascending := by
  induction t with
  | nil => exact List.pairwise_singleton _ _
  | cons e rest ih =>
    obtain ⟨k', v'⟩ := e
    obtain ⟨hhead, htail⟩ := List.pairwise_cons.1 h
    simp only [Table.insert]
    split
    next hlt =>
      refine List.pairwise_cons.2 ⟨fun e he => ?_, h⟩
      rcases List.mem_cons.1 he with rfl | he
      · exact hlt
      · exact trans.trans hlt (hhead e he)
    next hnot =>
      split
      next hlt =>
        refine List.pairwise_cons.2 ⟨fun e he => ?_, ih htail⟩
        rcases mem_of_mem_insert he with rfl | he
        · exact hlt
        · exact hhead e he
      next hnot' =>
        obtain rfl := trichotomous.trichotomous k k' hnot hnot'
        exact List.pairwise_cons.2 ⟨hhead, htail⟩

omit [DecidableEq κ] irrefl in
/-- Whatever fills a map, its keys ascend. -/
theorem ascending_ofList (entries : List (κ × α)) :
    (ofList entries).Ascending := by
  suffices h : ∀ t : Table κ α, t.Ascending →
      (entries.foldl (fun t e => t.insert e.1 e.2) t).Ascending from
    h [] List.Pairwise.nil
  induction entries with
  | nil => exact fun _ h => h
  | cons e rest ih => exact fun t h => ih _ (h.insert e.1 e.2)

end Insertion

/-- The map without a key. -/
def erase [DecidableEq κ] (t : Table κ α) (k : κ) : Table κ α :=
  t.filter (fun e => e.1 ≠ k)

/-- The same keys with other values. -/
def mapValues (f : α → β) (t : Table κ α) : Table κ β :=
  t.map (fun e => (e.1, f e.2))

end Table

/-- The distinct members of a list, ascending. -/
def sortedSet [LT κ] [DecidableLT κ] (xs : List κ) : List κ :=
  (Table.ofList (xs.map (·, ()))).keys

section SortedSet

variable [LT κ] [DecidableLT κ] [DecidableEq κ]
  [Std.Irrefl (fun a b : κ => a < b)]
  [Std.Trichotomous (fun a b : κ => a < b)]

/-- Sorting neither adds nor loses a member. -/
theorem mem_sortedSet {xs : List κ} {x : κ} : x ∈ sortedSet xs ↔ x ∈ xs := by
  rw [sortedSet, Table.mem_keys_ofList]
  simp

omit [DecidableEq κ] [Std.Irrefl (fun a b : κ => a < b)] in
/-- What has been sorted ascends strictly, so each member stands there
once. -/
theorem pairwise_sortedSet
    [Trans (fun a b : κ => a < b) (fun a b => a < b) (fun a b => a < b)]
    {xs : List κ} : (sortedSet xs).Pairwise (· < ·) :=
  List.pairwise_map.2 (Table.ascending_ofList _)

end SortedSet

end TaskRouting
