import TaskRouting.Proofs.Noninterference
import TaskRouting.Proofs.Selection
import TaskRouting.Proofs.Setting
import TaskRouting.Proofs.Table
/-!
What the inputs of a task are before it runs.

# What is left out

A key without a value counts as left out, and so does one whose value is null
(`Lacks`). Inputs that leave out a required key are refused, and the refusal
names all such keys. Other inputs are prepared: a key that is left out gets
the default that its property declares, and every other key keeps what it has,
also if that is null.

# Defaults

The defaults are filled in one after the other, each looking at what the
earlier ones have left. As no property is declared twice, none of them sees
the work of another, and the prepared inputs can be told key by key
(`get?_foldl_fill`, by induction on the properties). Filling in keeps the keys
ascending (`ascending_foldl_fill`), and tables that ascend are the same if
they hold the same, so `Prepares` determines the prepared inputs.

# Once more

A default may itself be null. The key then counts as left out for ever, and is
given the same null each time the inputs are prepared, so that nothing changes
after the first time (`Prepares.again`). The three parts together are
`prepare_exact_and_idempotent`.
-/

namespace TaskRouting.InputSchema

-- ==================================================== what is left out

/-- The inputs have no value for a key, or null. -/
def Lacks (inputs : Inputs) (key : String) : Prop :=
  Table.get? inputs key = none ∨ Table.get? inputs key = some .null

/-- What the code tests for by `absent` is whether a key is left out. -/
theorem absent_iff {inputs : Inputs} {key : String} :
    absent inputs key = true ↔ Lacks inputs key := by
  unfold absent Lacks
  cases Table.get? inputs key with
  | none => simp
  | some value => cases value <;> simp [Json.isNull]

instance (inputs : Inputs) : DecidablePred (Lacks inputs) :=
  fun _ => decidable_of_iff _ absent_iff

/-- The keys that are `missing` are the required ones that the inputs lack. -/
theorem missing_eq_filter (s : InputSchema) (inputs : Inputs) :
    s.missing inputs = s.required.filter fun key =>
      decide (Lacks inputs key) := by
  unfold missing
  refine List.filter_congr fun key _ => ?_
  rw [Bool.eq_iff_iff, absent_iff, decide_eq_true_iff]

theorem missing_eq_nil_iff {s : InputSchema} {inputs : Inputs} :
    s.missing inputs = [] ↔ ∀ key ∈ s.required, ¬ Lacks inputs key := by
  simp [missing_eq_filter, List.filter_eq_nil_iff]

-- ============================================================ defaults

/-- The default that a property with some name declares. -/
def default? (properties : Table String Parameter) (key : String) :
    Option Json :=
  (properties.get? key).bind Parameter.default

/-- One default goes to its own key, if that is left out: `fill` is an
insertion or nothing, one case for each answer of `absent`. -/
theorem get?_fill (inputs : Inputs) (name : String) (p : Parameter)
    (key : String) :
    Table.get? (fill inputs (name, p)) key
      = if key = name ∧ Lacks inputs name then
          p.default.or (Table.get? inputs key)
        else Table.get? inputs key := by
  unfold fill
  cases p.default with
  | none => simp
  | some default =>
    by_cases hlacks : Lacks inputs name
    · by_cases hkey : key = name
      · simp [absent_iff.2 hlacks, Table.get?_insert, hkey, hlacks]
      · simp [absent_iff.2 hlacks, Table.get?_insert, hkey]
    · have hpresent : ¬ absent inputs name = true :=
        fun h => hlacks (absent_iff.1 h)
      simp [hpresent, hlacks]

/-- A default leaves other keys alone. -/
theorem get?_fill_of_ne {inputs : Inputs} {name key : String} {p : Parameter}
    (h : key ≠ name) :
    Table.get? (fill inputs (name, p)) key = Table.get? inputs key := by
  rw [get?_fill, if_neg fun hboth => h hboth.1]

/-- Where no property is declared twice, each key that is left out is given
its own `default?`. By induction on the properties, for all inputs at once:
the first property changes what the others find. -/
theorem get?_foldl_fill {properties : Table String Parameter}
    (h : properties.keys.Nodup) (inputs : Inputs) (key : String) :
    Table.get? (properties.foldl fill inputs) key
      = if Lacks inputs key then
          (default? properties key).or (Table.get? inputs key)
        else Table.get? inputs key := by
  induction properties generalizing inputs with
  | nil => simp [default?, Table.get?]
  | cons property rest ih =>
    obtain ⟨name, p⟩ := property
    obtain ⟨hfresh, hrest⟩ := List.nodup_cons.1 h
    rw [List.foldl_cons, ih hrest]
    by_cases hkey : key = name
    · -- No later property has this name, so what the first one has filled in
      -- stays.
      subst hkey
      have hnone : default? rest key = none := by
        rw [default?, Table.get?_eq_none_iff.2 hfresh, Option.bind_none]
      have hfirst : default? ((key, p) :: rest) key = p.default := by
        simp [default?, Table.get?]
      simp [hnone, hfirst, get?_fill]
    · -- The first property is about another key.
      have hsame : Lacks (fill inputs (name, p)) key ↔ Lacks inputs key := by
        unfold Lacks
        rw [get?_fill_of_ne hkey]
      have hlater : default? ((name, p) :: rest) key = default? rest key := by
        simp [default?, Table.get?, hkey]
      simp only [hsame, hlater, get?_fill_of_ne hkey]

/-- Filling in one default keeps the keys ascending. -/
theorem ascending_fill {inputs : Inputs} (h : Table.Ascending inputs)
    (property : String × Parameter) :
    Table.Ascending (fill inputs property) := by
  unfold fill
  split
  · split
    · exact h.insert _ _
    · exact h
  · exact h

/-- Filling in all defaults keeps the keys ascending. -/
theorem ascending_foldl_fill {inputs : Inputs} (h : Table.Ascending inputs)
    (properties : Table String Parameter) :
    Table.Ascending (properties.foldl fill inputs) := by
  induction properties generalizing inputs with
  | nil => exact h
  | cons property rest ih => exact ih (ascending_fill h property)

-- ===================================================== prepared inputs

/-- What a key holds in prepared inputs: its `default?` if it is left out and
has one, or else what it held before. -/
def Prepares (s : InputSchema) (inputs prepared : Inputs) : Prop :=
  Table.Ascending prepared ∧ ∀ key, Table.get? prepared key
    = if Lacks inputs key then
        (default? s.properties key).or (Table.get? inputs key)
      else Table.get? inputs key

/-- Inputs that leave out nothing required are accepted, and what comes of
them can be told key by key. That this determines them is
`Table.Ascending.ext`. -/
theorem prepare_eq_ok_iff {s : InputSchema} {inputs prepared : Inputs}
    (hproperties : s.properties.Ascending)
    (hinputs : Table.Ascending inputs) :
    s.prepare inputs = .ok prepared
      ↔ (∀ key ∈ s.required, ¬ Lacks inputs key)
        ∧ s.Prepares inputs prepared := by
  have hfilled : s.Prepares inputs (s.properties.foldl fill inputs) :=
    ⟨ascending_foldl_fill hinputs _,
      get?_foldl_fill hproperties.nodup_keys inputs⟩
  constructor
  · intro h
    refine ⟨missing_eq_nil_iff.1 ?_, eq_foldl_fill_of_prepare h ▸ hfilled⟩
    by_contra hmissing
    rw [prepare_eq_error_iff.2 ⟨rfl, hmissing⟩] at h
    cases h
  · rintro ⟨hrequired, hascending, hkeys⟩
    obtain rfl : prepared = s.properties.foldl fill inputs :=
      hascending.ext hfilled.1 fun key =>
        (hkeys key).trans (hfilled.2 key).symm
    unfold prepare
    rw [missing_eq_nil_iff.2 hrequired]

/-- Preparing gives no key a null that was not left out before, so a key that
the prepared inputs lack was left out before. -/
theorem Prepares.lacks {s : InputSchema} {inputs prepared : Inputs}
    (h : s.Prepares inputs prepared) {key : String}
    (hlacks : Lacks prepared key) : Lacks inputs key := by
  by_contra hpresent
  unfold Lacks at hlacks
  rw [h.2, if_neg hpresent] at hlacks
  exact hpresent hlacks

/-- Prepared inputs are the outcome of preparing them once more. Only a key
that is still left out could change, and that one was given its default
already. -/
theorem Prepares.again {s : InputSchema} {inputs prepared : Inputs}
    (h : s.Prepares inputs prepared) : s.Prepares prepared prepared := by
  refine ⟨h.1, fun key => ?_⟩
  by_cases hlacks : Lacks prepared key
  · have hkey := h.2 key
    rw [if_pos (h.lacks hlacks)] at hkey
    rw [if_pos hlacks, hkey]
    cases default? s.properties key with
    | none => rfl
    | some default => rfl
  · rw [if_neg hlacks]

/-- Inputs are refused exactly if a required key has no value or null, and all
such keys are named, in the order in which they are required. Otherwise they
are prepared: a key without a value, or with null, gets the default that its
property declares, and all others stay as they are. Prepared inputs are
accepted as they are by the same schema.

The refusals are `prepare_eq_error_iff` and the rest `prepare_eq_ok_iff`.
Inputs that are prepared lack no more than before (`Prepares.lacks`), and are
what `Prepares` asks for already (`Prepares.again`). -/
theorem prepare_exact_and_idempotent (s : InputSchema) (inputs : Inputs)
    (hproperties : s.properties.Ascending)
    (hinputs : Table.Ascending inputs) :
    (∀ keys, s.prepare inputs = .error keys
      ↔ (∃ key ∈ s.required, Lacks inputs key)
        ∧ keys = s.required.filter fun key => decide (Lacks inputs key))
    ∧ (∀ prepared, s.prepare inputs = .ok prepared
      ↔ (∀ key ∈ s.required, ¬ Lacks inputs key) ∧ s.Prepares inputs prepared)
    ∧ ∀ prepared, s.prepare inputs = .ok prepared →
      s.prepare prepared = .ok prepared := by
  refine ⟨fun keys => ?_,
    fun prepared => prepare_eq_ok_iff hproperties hinputs, ?_⟩
  · have hsome : s.missing inputs ≠ []
        ↔ ∃ key ∈ s.required, Lacks inputs key := by
      rw [Ne, missing_eq_nil_iff]
      simp only [not_forall, not_not, exists_prop]
    rw [prepare_eq_error_iff, ← hsome, ← missing_eq_filter]
    constructor
    · rintro ⟨rfl, hne⟩
      exact ⟨hne, rfl⟩
    · rintro ⟨hne, rfl⟩
      exact ⟨rfl, hne⟩
  · intro prepared h
    obtain ⟨hrequired, hprepares⟩ :=
      (prepare_eq_ok_iff hproperties hinputs).1 h
    refine (prepare_eq_ok_iff hproperties hprepares.1).2
      ⟨fun key hkey hlacks => ?_, hprepares.again⟩
    exact hrequired key hkey (hprepares.lacks hlacks)

/-- A question that may say where and how it is put. -/
def questioning : InputSchema :=
  ((requiring "question").declare "place"
    ⟨Parameter.usualType, "", some (.string "here")⟩).declare "style"
    ⟨Parameter.usualType, "", some .null⟩

/-- A place that is null is filled in, and so is a style that is not there,
with null. After that nothing more is filled in. Without a question there is a
refusal. -/
theorem question_is_prepared_once :
    let question : Inputs := [("place", .null), ("question", .string "where")]
    let prepared : Inputs := [
      ("place", .string "here"), ("question", .string "where"),
      ("style", .null)]
    questioning.properties.Ascending
      ∧ Table.Ascending question
      ∧ questioning.prepare question = .ok prepared
      ∧ questioning.prepare prepared = .ok prepared
      ∧ questioning.prepare [("question", .null)] = .error ["question"] := by
  intro question prepared
  have hproperties : questioning.properties.Ascending := by
    unfold questioning Table.Ascending
    decide
  have hquestion : Table.Ascending question := by
    unfold question Table.Ascending
    decide
  obtain ⟨-, -, hagain⟩ :=
    prepare_exact_and_idempotent questioning question hproperties hquestion
  obtain ⟨hrefuses, -, -⟩ :=
    prepare_exact_and_idempotent questioning [("question", .null)] hproperties
      (List.pairwise_singleton _ _)
  have hprepared : questioning.prepare question = .ok prepared := rfl
  refine ⟨hproperties, hquestion, hprepared, hagain prepared hprepared,
    (hrefuses _).2 ⟨?_, rfl⟩⟩
  exact ⟨"question", List.mem_singleton_self _, Or.inr rfl⟩

end TaskRouting.InputSchema
