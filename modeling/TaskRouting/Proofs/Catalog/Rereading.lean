import TaskRouting.Catalog.Document
import TaskRouting.Proofs.Json.Types
/-!
Catalog documents read back.

# JSON as a notation

A document is described over any notation (`Source`). Over JSON the words of
that description are those in which all other types are described, except that
a field may not be given twice (`Source.field?`). That makes no difference to
a record that has been written, whose fields ascend (`field?_of_ascending`),
so the lemmas about fields are those for other records once more
(`required_of_hold`, `defaulted_of_hold`, `optionalField_of_hold`); lists and
tables are read by the very readers of the other types (`table_eq`,
`codeTable_eq`).

# Contents

Parameters are read by way of their `Content`, which brings the members of
objects into order. So a default reads back only if it is in order itself
(`Json.Sorted`), which everything that comes of a content is
(`Content.sorted_of_toJson?`); what has been read so is read so again
(`Content.toJson?_ofJson`). `Parameter.InOrder` is what this asks of a
parameter.

# Documents

From there the parts of a document are settled as all records are:
`SharedParameter`, `Property`, `InputVariables`, `Entry` and at last
`Document`. A property may be a text, an object or a list, and a shared
parameter has its key among the members of its definition, so for these two
there is an equation first (`Property.read_object`,
`SharedParameter.read_object`). `accepted_data_stable` puts all types of data
together.
-/

namespace TaskRouting

open Json

-- ================================================== JSON as a notation

namespace Source

variable {α : Type} {fields : Fields} {name : String} {read : Json → Option α}

/-- What `get?` finds under a key is the value of the first entry with the
key. -/
theorem get?_eq_head? {β : Type} (t : Table String β) :
    t.get? name = (t.filter (·.1 == name)).head?.map Prod.snd := by
  induction t with
  | nil => rfl
  | cons e rest ih =>
    obtain ⟨k, b⟩ := e
    by_cases hk : name = k
    · have hkeep : (k == name) = true := beq_iff_eq.2 hk.symm
      rw [Table.get?, if_pos hk, List.filter_cons, if_pos hkeep]
      rfl
    · have hdrop : ¬ (k == name) = true := fun h => hk (beq_iff_eq.1 h).symm
      rw [Table.get?, if_neg hk, List.filter_cons, if_neg hdrop, ih]

/-- In an ascending map at most one entry has a certain key. By induction on
the map, whose keys are distinct. -/
theorem filter_of_ascending {β : Type} {t : Table String β}
    (h : t.Ascending) :
    t.filter (·.1 == name) = ((t.get? name).map fun b =>
      (name, b)).toList := by
  induction t with
  | nil => rfl
  | cons e rest ih =>
    obtain ⟨k, b⟩ := e
    by_cases hk : name = k
    · have hkeep : (k == name) = true := beq_iff_eq.2 hk.symm
      have hnot : name ∉ Table.keys rest :=
        hk ▸ (List.nodup_cons.1 h.nodup_keys).1
      have hnone : rest.filter (·.1 == name) = [] := by
        refine List.filter_eq_nil_iff.2 fun e he hname => hnot ?_
        rw [← beq_iff_eq.1 hname]
        exact List.mem_map_of_mem he
      rw [Table.get?, if_pos hk, List.filter_cons, if_pos hkeep, hnone, hk]
      rfl
    · have hdrop : ¬ (k == name) = true := fun h => hk (beq_iff_eq.1 h).symm
      rw [Table.get?, if_neg hk, List.filter_cons, if_neg hdrop,
        ih (List.pairwise_cons.1 h).2]

/-- A field that is found is the only one with its name, so it is the one that
`get?` finds. -/
theorem get?_of_field? {β : Type} {fields : Table String β} {given : Option β}
    (h : field? fields name = some given) : fields.get? name = given := by
  rw [get?_eq_head?]
  unfold field? at h
  split at h
  next hnone =>
    cases h
    rw [hnone]
    rfl
  next k v hone =>
    cases h
    rw [hone]
    rfl
  next => cases h

/-- No field of an ascending map is given twice, so `field?` accepts them
all. -/
theorem field?_of_ascending {β : Type} {fields : Table String β}
    (h : fields.Ascending) :
    field? fields name = some (fields.get? name) := by
  unfold field?
  rw [filter_of_ascending h]
  cases fields.get? name with
  | none => rfl
  | some v => rfl

/-- A field that has been written is read again; that it may not be given
twice is no restriction, since the fields ascend (`field?_of_ascending`). -/
theorem required_of_hold {written : List (String × Json)} {w : Json} {x : α}
    (h : Fields.Hold fields written) (name : String)
    (hwritten : Table.last? written name = some w) (hread : read w = some x) :
    required fields name read = some x := by
  show (field? fields name).join.bind read = _
  rw [field?_of_ascending h.ascending]
  exact h.required name hwritten hread

/-- A field with a default that has been written is read again, for the reason
of `required_of_hold`. -/
theorem defaulted_of_hold {written : List (String × Json)} {w : Json}
    {d x : α} (h : Fields.Hold fields written) (name : String)
    (hwritten : Table.last? written name = some w) (hread : read w = some x) :
    defaulted fields name d read = some x := by
  unfold defaulted
  rw [field?_of_ascending h.ascending, h.get name, hwritten]
  exact hread

/-- An optional field that has been written is read again. -/
theorem optionalField_of_hold {written : List (String × Json)} {w : Json}
    {o : Option α} (h : Fields.Hold fields written) (name : String)
    (hwritten : Table.last? written name = some w)
    (hread : Source.optional read w = some o) :
    optionalField fields name read = some o :=
  defaulted_of_hold h name hwritten hread

/-- A field with a default that has been read reads back, since it is stable,
and if it was missing its default does. -/
theorem readsBack_of_defaulted {write : α → Json} {d x : α}
    (hstable : Stable read write) (hdefault : ReadsBack read write d)
    (h : defaulted fields name d read = some x) : ReadsBack read write x := by
  obtain ⟨given, hgiven, hread⟩ := Option.bind_eq_some_iff.1 h
  cases given with
  | none =>
    cases hread
    exact hdefault
  | some v => exact hstable v x hread

/-- A required field that has been read reads back, since it is stable. -/
theorem readsBack_of_required {write : α → Json} {x : α}
    (hstable : Stable read write) (h : required fields name read = some x) :
    ReadsBack read write x := by
  obtain ⟨v, -, hread⟩ := Option.bind_eq_some_iff.1 h
  exact hstable v x hread

/-- The values that a notation reads directly read back in it as they do
elsewhere. -/
theorem text_readsBack (s : String) : ReadsBack Source.text .string s := rfl

theorem flag_readsBack (b : Bool) : ReadsBack Source.flag .bool b := rfl

theorem word_readsBack (n : UInt32) :
    ReadsBack Source.word (fun n => .ofNat n.toNat) n :=
  uint32_readsBack n

theorem texts_readsBack (texts : List String) :
    ReadsBack (Source.list Source.text) strings texts :=
  strings_readsBack texts

theorem optionalText_readsBack (o : Option String) :
    ReadsBack (Source.optional Source.text) (Json.optional .string) o :=
  optionalString_readsBack o

/-- Maps are read in this notation as everywhere else, so `Json.table_stable`
and the like apply. -/
theorem table_eq :
    (table read : Json → Option (Table String α)) = table? read := by
  funext v
  cases v
  all_goals rfl

/-- Maps from result codes are, too. A notation reads all keys first and then
all values, where the other reader takes member by member; both have a result
where all members do (`mapM_bind_mapM`), and it is the same. -/
theorem codeTable_eq :
    (codeTable read : Json → Option (Table UInt32 α)) = codeTable? read := by
  funext v
  cases v with
  | object members =>
    show (members.mapM fun m => (codeKey? m.1).bind fun code =>
        some (code, m.2)).bind (fun codes =>
          (codes.mapM fun e => (read e.2).bind fun x =>
            some (e.1, x)).bind fun entries =>
              some (Table.ofList entries)) = codeTable? read (.object members)
    have hentry :
        (fun m : String × Json =>
          ((codeKey? m.1).bind fun code => some (code, m.2)).bind
            fun e => (read e.2).bind fun x => some (e.1, x))
          = codeMemberEntry read := by
      funext m
      unfold codeMemberEntry
      cases codeKey? m.1 with
      | none => rfl
      | some code => rfl
    rw [← Option.bind_assoc, mapM_bind_mapM, codeTable?_object, hentry]
    cases members.mapM (codeMemberEntry read) with
    | none => rfl
    | some entries => rfl
  | _ => rfl

variable {write : α → Json}

/-- Maps of stable values are stable: `Json.table_stable`, by `table_eq`. -/
theorem table_stable (h : Stable read write) :
    Stable (table read) (ofTable write) :=
  table_eq ▸ Json.table_stable h

/-- The empty map reads back, as the default of many fields has to. -/
theorem table_nil : ReadsBack (table read) (ofTable write) [] :=
  table_eq ▸ rfl

/-- Maps from result codes to stable values are stable. -/
theorem codeTable_stable (h : Stable read write) :
    Stable (codeTable read) (ofCodeTable write) :=
  codeTable_eq ▸ Json.codeTable_stable h

theorem codeTable_nil : ReadsBack (codeTable read) (ofCodeTable write) [] :=
  codeTable_eq ▸ rfl

/-- Lists of stable values are stable. -/
theorem list_stable (h : Stable read write) :
    Stable (Source.list read) fun xs => .array (xs.map write) :=
  Json.list_stable h

theorem list_nil :
    ReadsBack (Source.list read) (fun xs => .array (xs.map write)) [] :=
  rfl

/-- A field that may be missing is `Stable` if its values are, and if none is
written as null. -/
theorem readsBack_of_optionalField {o : Option α}
    (hstable : Stable read write) (hnull : ∀ x, write x ≠ .null)
    (h : optionalField fields name read = some o) :
    ReadsBack (Source.optional read) (Json.optional write) o :=
  readsBack_of_defaulted (d := none)
    (Json.optional_stable hstable fun _ x _ _ => hnull x) rfl h

end Source

-- ============================================================ contents

/-- A value whose objects, however deep, have their members in order and none
of them twice. -/
inductive Json.Sorted : Json → Prop where
  | null : Sorted .null
  | bool (b : Bool) : Sorted (.bool b)
  | int (n : Int) : Sorted (.int n)
  | float (x : Finite64) : Sorted (.float x)
  | string (s : String) : Sorted (.string s)
  | array {items : List Json} (inside : ∀ v ∈ items, Sorted v) :
      Sorted (.array items)
  | object {members : List (String × Json)}
      (ascending : Table.Ascending members)
      (inside : ∀ m ∈ members, Sorted m.2) : Sorted (.object members)

namespace Content

/-- The items of an array come back from their contents if each one does. -/
theorem toItems?_ofItems {items : List Json}
    (h : ∀ v ∈ items, (ofJson v).toJson? = some v) :
    toItems? (ofItems items) = some items := by
  induction items with
  | nil => rfl
  | cons v rest ih =>
    have hrest := ih fun w hw => h w (List.mem_cons_of_mem _ hw)
    show ((ofJson v).toJson?).bind
        (fun v => (toItems? (ofItems rest)).bind fun rest =>
      some (v :: rest)) = _
    rw [h v List.mem_cons_self, hrest]
    rfl

/-- The members of an object come back from their contents if each one
does. -/
theorem toMembers?_ofMembers {members : List (String × Json)}
    (h : ∀ m ∈ members, (ofJson m.2).toJson? = some m.2) :
    toMembers? (ofMembers members) = some members := by
  induction members with
  | nil => rfl
  | cons m rest ih =>
    obtain ⟨k, v⟩ := m
    have hrest := ih fun m hm => h m (List.mem_cons_of_mem _ hm)
    show ((ofJson v).toJson?).bind
        (fun v => (toMembers? (ofMembers rest)).bind fun rest =>
      some ((k, v) :: rest)) = _
    rw [h (k, v) List.mem_cons_self, hrest]
    rfl

/-- A value in order comes back from its content. By induction on `Sorted`;
the members of an object fill a table, which is the same since they ascend. -/
theorem toJson?_ofJson {v : Json} (h : v.Sorted) :
    (ofJson v).toJson? = some v := by
  induction h with
  | null => rfl
  | bool b => rfl
  | int n =>
    cases n with
    | ofNat n => rfl
    | negSucc n => rfl
  | float x => exact congrArg some (dif_pos x.finite)
  | string s => rfl
  | array inside ih =>
    show (toItems? (ofItems _)).map Json.array = _
    rw [toItems?_ofItems ih]
    rfl
  | object ascending inside ih =>
    show (toMembers? (ofMembers _)).map Json.ofMembers = _
    rw [toMembers?_ofMembers ih, Option.map_some]
    unfold Json.ofMembers
    rw [ascending.ofList_eq]

mutual

/-- Whatever comes of a content is `Sorted`, since the members of its objects
have filled tables. The recursion is that of contents, through lists of items
and of entries. -/
theorem sorted_of_toJson? :
    ∀ {c : Content} {v : Json}, c.toJson? = some v → v.Sorted
  | .null, v, h => by
    cases h
    exact .null
  | .bool b, v, h => by
    cases h
    exact .bool b
  | .natural n, v, h => by
    cases h
    exact .int n
  | .negated n, v, h => by
    cases h
    exact .int (-n)
  | .float x, v, h => by
    cases h
    unfold Json.ofBinary64
    split
    · exact .float _
    · exact .null
  | .text s, v, h => by
    cases h
    exact .string s
  | .list items, v, h => by
    obtain ⟨values, hvalues, rfl⟩ := Option.map_eq_some_iff.1 h
    exact .array fun v hv => sorted_of_toItems? hvalues v hv
  | .map entries, v, h => by
    obtain ⟨members, hmembers, rfl⟩ := Option.map_eq_some_iff.1 h
    refine .object (Table.ascending_ofList members) fun m hm => ?_
    exact sorted_of_toMembers? hmembers m (Table.mem_of_mem_ofList hm)

/-- The items that come of contents are in order. -/
theorem sorted_of_toItems? : ∀ {items : List Content} {values : List Json},
    toItems? items = some values → ∀ v ∈ values, v.Sorted
  | [], values, h => by
    cases h
    exact fun v hv => nomatch hv
  | c :: rest, values, h => by
    obtain ⟨first, hfirst, h⟩ := Option.bind_eq_some_iff.1 h
    obtain ⟨others, hothers, h⟩ := Option.bind_eq_some_iff.1 h
    cases h
    intro v hv
    rcases List.mem_cons.1 hv with rfl | hv
    · exact sorted_of_toJson? hfirst
    · exact sorted_of_toItems? hothers v hv

/-- The members that come of contents have their values in order. -/
theorem sorted_of_toMembers? :
    ∀ {entries : List (Content × Content)} {members : Fields},
    toMembers? entries = some members → ∀ m ∈ members, m.2.Sorted
  | [], members, h => by
    cases h
    exact fun m hm => nomatch hm
  | (k, c) :: rest, members, h => by
    obtain ⟨name, hname, h⟩ := Option.bind_eq_some_iff.1 h
    obtain ⟨first, hfirst, h⟩ := Option.bind_eq_some_iff.1 h
    obtain ⟨others, hothers, h⟩ := Option.bind_eq_some_iff.1 h
    cases h
    intro m hm
    rcases List.mem_cons.1 hm with rfl | hm
    · exact sorted_of_toJson? hfirst
    · exact sorted_of_toMembers? hothers m hm

end

/-- The contents of the items of an array are contents of values. -/
theorem exists_of_mem_ofItems {items : List Json} {c : Content}
    (h : c ∈ ofItems items) : ∃ v, c = .ofJson v := by
  induction items with
  | nil => cases h
  | cons v rest ih =>
    rcases List.mem_cons.1 h with rfl | h
    · exact ⟨v, rfl⟩
    · exact ih h

end Content

/-- Only null stands for a default that is not there: `toJsonOrNone?` tells it
from all other contents. -/
theorem Content.toJsonOrNone?_ofJson {v : Json} (h : v ≠ .null) :
    (ofJson v).toJsonOrNone? = ((ofJson v).toJson?).map some := by
  cases v with
  | null => exact absurd rfl h
  | int n =>
    cases n with
    | ofNat n => rfl
    | negSucc n => rfl
  | bool b => rfl
  | float x => rfl
  | string s => rfl
  | array items => rfl
  | object members => rfl

/-- Nothing but null becomes null by way of its content. One case for each
kind of value; a number that `ofBinary64` would write as null is not finite,
so JSON cannot hold it. -/
theorem Content.ne_null_of_toJson? {v d : Json} (hv : v ≠ .null)
    (h : (ofJson v).toJson? = some d) : d ≠ .null := by
  cases v with
  | null => exact absurd rfl hv
  | int n =>
    cases n with
    | ofNat n =>
      cases h
      exact fun hd => nomatch hd
    | negSucc n =>
      cases h
      exact fun hd => nomatch hd
  | bool b =>
    cases h
    exact fun hd => nomatch hd
  | float x =>
    have hfloat : Json.ofBinary64 x.value = .float x := dif_pos x.finite
    cases hfloat.symm.trans (Option.some.inj h)
    exact fun hd => nomatch hd
  | string s =>
    cases h
    exact fun hd => nomatch hd
  | array items =>
    obtain ⟨values, -, rfl⟩ := Option.map_eq_some_iff.1 h
    exact fun hd => nomatch hd
  | object members =>
    obtain ⟨values, -, rfl⟩ := Option.map_eq_some_iff.1 h
    exact fun hd => nomatch hd

/-- A default that is there and has come of a content is not null
(`ne_null_of_toJson?`), and in order (`sorted_of_toJson?`). -/
theorem Content.of_toJsonOrNone? {v d : Json}
    (h : (ofJson v).toJsonOrNone? = some (some d)) :
    d ≠ .null ∧ d.Sorted := by
  by_cases hv : v = .null
  · rw [hv] at h
    cases h
  · rw [toJsonOrNone?_ofJson hv] at h
    obtain ⟨d', hd', heq⟩ := Option.map_eq_some_iff.1 h
    cases heq
    exact ⟨ne_null_of_toJson? hv hd', sorted_of_toJson? hd'⟩

-- =============================================== some members of a map

namespace Table

variable {α β : Type} {name key : String}

/-- Other values under the same keys are found under them. -/
theorem get?_mapValues (t : Table String α) (f : α → β) :
    (t.mapValues f).get? name = (t.get? name).map f := by
  induction t with
  | nil => rfl
  | cons e rest ih =>
    obtain ⟨k, a⟩ := e
    by_cases hk : name = k
    · rw [get?, if_pos hk, mapValues, List.map_cons, get?, if_pos hk]
      rfl
    · rw [get?, if_neg hk, ← ih, mapValues, List.map_cons, get?, if_neg hk]
      rfl

/-- What is under another key stays when the entries with a key are left
out. -/
theorem get?_filter_ne (t : Table String α) (h : name ≠ key) :
    Table.get? (t.filter (·.1 != key)) name = t.get? name := by
  induction t with
  | nil => rfl
  | cons e rest ih =>
    obtain ⟨k, a⟩ := e
    by_cases hk : k = key
    · have hdrop : ¬ (k != key) = true := by simp [hk]
      rw [List.filter_cons, if_neg hdrop, ih, get?, if_neg (hk ▸ h)]
    · have hkeep : (k != key) = true := bne_iff_ne.2 hk
      rw [List.filter_cons, if_pos hkeep, get?, get?, ih]

end Table

-- ========================================================== parameters

namespace Parameter

/-- A default that comes back: it is not null, and it is `Sorted`. -/
def InOrder (p : Parameter) : Prop := ∀ d ∈ p.default, d ≠ .null ∧ d.Sorted

/-- The reader of a parameter looks for each of its three fields by `field?`,
and then at what it has found. It does so in one match on the three lists of
entries, which has 27 cases. -/
theorem ofContentFields?_eq (fields : List (String × Content)) :
    ofContentFields? fields =
      (Source.field? fields "type").bind fun typeName =>
      (Source.field? fields "description").bind fun description =>
      (Source.field? fields "default").bind fun default =>
      ((typeName.map Content.text?).getD
        (some usualType)).bind fun typeName =>
      ((description.map Content.text?).getD (some "")).bind fun description =>
      ((default.map Content.toJsonOrNone?).getD
        (some none)).bind fun default =>
        some { typeName, description, default } := by
  unfold ofContentFields? Source.field?
  dsimp only
  generalize fields.filter (fun e => e.1 == "type") = types
  generalize fields.filter (fun e => e.1 == "description") = descriptions
  generalize fields.filter (fun e => e.1 == "default") = defaults
  -- each of the fields is missing, there once, or there more than once
  rcases types with _ | ⟨type, _ | ⟨type', types⟩⟩ <;>
  rcases descriptions with _ | ⟨description, _ | ⟨description', descriptions⟩⟩
    <;>
  rcases defaults with _ | ⟨default, _ | ⟨default', defaults⟩⟩ <;>
  rfl

/-- A parameter that is read by way of contents has its default in order, as
`Content.of_toJsonOrNone?` says. -/
theorem inOrder_of_ofContentFields? {fields : List (String × Content)}
    {p : Parameter} (hjson : ∀ e ∈ fields, ∃ v, e.2 = .ofJson v)
    (h : ofContentFields? fields = some p) : p.InOrder := by
  rw [ofContentFields?_eq] at h
  obtain ⟨typeName, -, h⟩ := Option.bind_eq_some_iff.1 h
  obtain ⟨description, -, h⟩ := Option.bind_eq_some_iff.1 h
  obtain ⟨given, hgiven, h⟩ := Option.bind_eq_some_iff.1 h
  obtain ⟨_, -, h⟩ := Option.bind_eq_some_iff.1 h
  obtain ⟨_, -, h⟩ := Option.bind_eq_some_iff.1 h
  obtain ⟨default, hdefault, h⟩ := Option.bind_eq_some_iff.1 h
  cases h
  rintro d ⟨⟩
  cases given with
  | none => cases hdefault
  | some c =>
    have hmem : ("default", c) ∈ fields :=
      Table.mem_of_get? (Source.get?_of_field? hgiven)
    obtain ⟨v, hv⟩ := hjson _ hmem
    cases hv
    exact Content.of_toJsonOrNone? hdefault

/-- A parameter whose default is `InOrder` is read from its fields by way of
their contents. The fields ascend, so each is found once
(`field?_of_ascending`). -/
theorem ofContentFields?_mapValues {fields : Fields} {p : Parameter}
    (hp : p.InOrder) (hascending : Table.Ascending fields)
    (htype : Table.get? fields "type" = some (.string p.typeName))
    (hdescription : Table.get? fields "description"
      = some (.string p.description))
    (hdefault : Table.get? fields "default"
      = some (Json.optional id p.default)) :
    ofContentFields? (Table.mapValues .ofJson fields) = some p := by
  have hback : (Content.ofJson (Json.optional id p.default)).toJsonOrNone?
      = some p.default := by
    cases hgiven : p.default with
    | none => rfl
    | some d =>
      obtain ⟨hnull, hsorted⟩ := hp d hgiven
      exact (Content.toJsonOrNone?_ofJson hnull).trans
        (by rw [Content.toJson?_ofJson hsorted]; rfl)
  have hfield : ∀ name, Source.field?
      (Table.mapValues Content.ofJson fields) name
      = some ((Table.get? fields name).map Content.ofJson) := by
    intro name
    rw [Source.field?_of_ascending (hascending.mapValues _),
      Table.get?_mapValues]
  rw [ofContentFields?_eq, hfield, hfield, hfield, htype,
    hdescription, hdefault]
  show ((Content.ofJson (Json.optional id p.default)).toJsonOrNone?).bind
    (fun default => some (Parameter.mk p.typeName p.description default))
      = some p
  rw [hback]
  rfl

end Parameter

-- ============================================= entries and their parts

namespace Catalog

/-- What else a shared parameter holds are the contents of its other
members. -/
theorem mapM_content (members : Fields) :
    (members.mapM fun m => (some (Content.ofJson m.2)).bind fun c =>
      some (m.1, c))
      = some (Table.mapValues Content.ofJson members) := by
  induction members with
  | nil => rfl
  | cons m rest ih =>
    rw [List.mapM_cons, ih]
    rfl

/-- A shared parameter is its key, and the parameter that its other members
are read as (`mapM_content`). -/
theorem SharedParameter.read_object {members : Fields} :
    SharedParameter.read (object members) =
      (Source.required members "key" string?).bind fun key =>
      (Parameter.ofContentFields?
        (Table.mapValues Content.ofJson (members.filter (·.1 != "key")))).bind
        fun definition => some { key, definition } := by
  show (Source.required members "key" string?).bind (fun key =>
    ((members.filter (·.1 != "key")).mapM fun m =>
      (some (Content.ofJson m.2)).bind fun c =>
        some (m.1, c)).bind fun rest =>
    (Parameter.ofContentFields? rest).bind fun definition =>
      some (SharedParameter.mk key definition)) = _
  rw [mapM_content]
  rfl

/-- Shared parameters are stable. The definition has been read by way of
contents, so it is in order and reads back; leaving the key out of the members
changes none of the others (`Table.get?_filter_ne`). -/
theorem SharedParameter.stable : Stable read toJson := by
  intro v p h
  cases v with
  | object members =>
    rw [read_object] at h
    obtain ⟨key, -, h⟩ := Option.bind_eq_some_iff.1 h
    obtain ⟨definition, hdefinition, h⟩ := Option.bind_eq_some_iff.1 h
    cases h
    have hinOrder : definition.InOrder := by
      refine Parameter.inOrder_of_ofContentFields?
        (fun e he => ?_) hdefinition
      obtain ⟨m, -, rfl⟩ := List.mem_map.1 he
      exact ⟨m.2, rfl⟩
    show ((ofMembers _).fields? [] >>= fun fields =>
      SharedParameter.read (object fields)) = _
    refine read_ofMembers fun fields hold => ?_
    have hkey : Source.required fields "key" string? = some key :=
      Source.required_of_hold hold "key" rfl (string_readsBack key)
    have hrest : ∀ name, name ≠ "key" →
        Table.get? (fields.filter (·.1 != "key")) name
          = Table.get? fields name :=
      fun name hname => Table.get?_filter_ne fields hname
    have hback : Parameter.ofContentFields?
        (Table.mapValues Content.ofJson (fields.filter (·.1 != "key")))
          = some definition := by
      refine Parameter.ofContentFields?_mapValues hinOrder
        (hold.ascending.filter _) ?_ ?_ ?_
      · exact (hrest "type" (by decide)).trans (hold.get "type")
      · exact (hrest "description" (by decide)).trans (hold.get "description")
      · exact (hrest "default" (by decide)).trans (hold.get "default")
    rw [read_object, hkey, Option.bind_some, hback]
    rfl
  | _ => cases h

/-- The names of the members of an object are the names of fields as they
are. -/
theorem mapM_fieldOf? (members : Fields) :
    ((Content.ofMembers members).mapM fun e =>
        (Parameter.fieldOf? e.1).bind fun name => some (name, e.2))
      = some (Table.mapValues Content.ofJson members) := by
  induction members with
  | nil => rfl
  | cons m rest ih =>
    rw [Content.ofMembers, List.mapM_cons, ih]
    rfl

/-- A property that is an object is an input's own definition
(`mapM_fieldOf?`). -/
theorem Property.read_object {members : Fields} :
    Property.read (object members) =
      (Parameter.ofContentFields?
        (Table.mapValues Content.ofJson members)).map own := by
  show (((Content.ofMembers members).mapM fun e =>
    (Parameter.fieldOf? e.1).bind fun name => some (name, e.2)).bind
      Parameter.ofContentFields?).map own = _
  rw [mapM_fieldOf?]
  rfl

/-- An input's own definition reads back if its default is `InOrder`. -/
theorem Property.own_readsBack {definition : Parameter}
    (h : definition.InOrder) : ReadsBack read toJson (own definition) := by
  show ((ofMembers _).fields? [] >>= fun fields =>
    Property.read (object fields)) = _
  refine read_ofMembers fun fields hold => ?_
  rw [read_object, Parameter.ofContentFields?_mapValues h hold.ascending
    (hold.get "type") (hold.get "description") (hold.get "default")]
  rfl

/-- Properties are stable: a text names a shared parameter, and a list or an
object is a definition, which is in order once it has been read
(`inOrder_of_ofContentFields?`). -/
theorem Property.stable : Stable read toJson := by
  intro v p h
  cases v with
  | string key =>
    cases h
    rfl
  | array items =>
    obtain ⟨definition, hdefinition, rfl⟩ := Option.map_eq_some_iff.1 h
    dsimp only [Content.ofJson, Parameter.ofContent?] at hdefinition
    split at hdefinition
    next =>
      refine own_readsBack (Parameter.inOrder_of_ofContentFields?
        (fun e he => ?_) hdefinition)
      exact Content.exists_of_mem_ofItems (List.of_mem_zip he).2
    next => cases hdefinition
  | object members =>
    rw [read_object] at h
    obtain ⟨definition, hdefinition, rfl⟩ := Option.map_eq_some_iff.1 h
    refine own_readsBack (Parameter.inOrder_of_ofContentFields?
      (fun e he => ?_) hdefinition)
    obtain ⟨m, -, rfl⟩ := List.mem_map.1 he
    exact ⟨m.2, rfl⟩
  | int n =>
    cases n
    all_goals cases h
  | _ => cases h

/-- The inputs that an entry declares are stable, since properties are
(`Property.stable`). -/
theorem InputVariables.stable : Stable read toJson := by
  intro v i h
  obtain ⟨fields, -, h⟩ := Option.bind_eq_some_iff.1 h
  obtain ⟨properties, hproperties, h⟩ := Option.bind_eq_some_iff.1 h
  obtain ⟨required, -, h⟩ := Option.bind_eq_some_iff.1 h
  cases h
  have hproperties :=
    Source.readsBack_of_defaulted (Source.table_stable Property.stable)
      Source.table_nil hproperties
  refine read_ofMembers fun fields' hold => ?_
  rw [Source.defaulted_of_hold hold "properties" rfl hproperties,
    Source.defaulted_of_hold hold "required" rfl
      (Source.texts_readsBack required)]
  rfl

/-- The kind of an entry reads back from its name. -/
theorem EntryKind.readsBack (k : EntryKind) :
    ReadsBack EntryKind.read (fun k => .string k.name) k := by
  cases k
  all_goals rfl

/-- What the agent of an entry may do reads back. Its one field is always
written (`defaulted_of_hold`). -/
theorem capabilities_readsBack (c : Capabilities) :
    ReadsBack readCapabilities Capabilities.toJson c := by
  refine read_ofMembers fun fields hold => ?_
  rw [Source.defaulted_of_hold hold "has_functions" rfl
    (Source.flag_readsBack c.hasFunctions)]
  rfl

/-- `readRoute` reads from JSON what `Route.ofJson?` reads. -/
theorem route_readsBack (r : Route) : ReadsBack readRoute Route.toJson r :=
  r.readsBack

/-- Entries are stable. Of their fifteen fields five are maps or records whose
values are merely `Stable`, and those are read back from having been read; for
the others all values read back. -/
theorem Entry.stable : Stable read toJson := by
  intro v e h
  obtain ⟨fields, -, h⟩ := Option.bind_eq_some_iff.1 h
  obtain ⟨key, -, h⟩ := Option.bind_eq_some_iff.1 h
  obtain ⟨kind, -, h⟩ := Option.bind_eq_some_iff.1 h
  obtain ⟨name, -, h⟩ := Option.bind_eq_some_iff.1 h
  obtain ⟨description, -, h⟩ := Option.bind_eq_some_iff.1 h
  obtain ⟨agent, -, h⟩ := Option.bind_eq_some_iff.1 h
  obtain ⟨requiredApis, -, h⟩ := Option.bind_eq_some_iff.1 h
  obtain ⟨inputVariables, hinputs, h⟩ := Option.bind_eq_some_iff.1 h
  obtain ⟨exitCodes, hcodes, h⟩ := Option.bind_eq_some_iff.1 h
  obtain ⟨labels, hlabels, h⟩ := Option.bind_eq_some_iff.1 h
  obtain ⟨capabilities, -, h⟩ := Option.bind_eq_some_iff.1 h
  obtain ⟨tasks, htasks, h⟩ := Option.bind_eq_some_iff.1 h
  obtain ⟨start, -, h⟩ := Option.bind_eq_some_iff.1 h
  obtain ⟨routing, hrouting, h⟩ := Option.bind_eq_some_iff.1 h
  obtain ⟨maxAttempts, -, h⟩ := Option.bind_eq_some_iff.1 h
  obtain ⟨recursive, -, h⟩ := Option.bind_eq_some_iff.1 h
  cases h
  -- These five are given back by how they were read; the rest of the fields
  -- needs no more than its type.
  have hinputs := Source.readsBack_of_optionalField InputVariables.stable
    (fun _ hnull => nomatch hnull) hinputs
  have hcodes := Source.readsBack_of_defaulted
    (Source.codeTable_stable (stable_of_readsBack Source.text_readsBack))
    Source.codeTable_nil hcodes
  have hlabels := Source.readsBack_of_defaulted
    (Source.table_stable (stable_of_readsBack Source.word_readsBack))
    Source.table_nil hlabels
  have htasks := Source.readsBack_of_defaulted
    (Source.table_stable (stable_of_readsBack Source.text_readsBack))
    Source.table_nil htasks
  have hrouting := Source.readsBack_of_defaulted
    (Source.table_stable (Source.codeTable_stable
      (stable_of_readsBack route_readsBack)))
    Source.table_nil hrouting
  refine read_ofMembers fun fields' hold => ?_
  rw [Source.required_of_hold hold "key" rfl (Source.text_readsBack key),
    Source.required_of_hold hold "task_type" rfl kind.readsBack,
    Source.required_of_hold hold "task_name" rfl (Source.text_readsBack name),
    Source.defaulted_of_hold hold "task_description" rfl
      (Source.text_readsBack description),
    Source.optionalField_of_hold hold "agent" rfl
      (Source.optionalText_readsBack agent),
    Source.defaulted_of_hold hold "required_apis" rfl
      (Source.texts_readsBack requiredApis),
    Source.optionalField_of_hold hold "input_variables" rfl hinputs,
    Source.defaulted_of_hold hold "exit_codes" rfl hcodes,
    Source.defaulted_of_hold hold "exit_code_response_map" rfl hlabels,
    Source.defaulted_of_hold hold "capabilities" rfl
      (capabilities_readsBack capabilities),
    Source.defaulted_of_hold hold "tasks" rfl htasks,
    Source.optionalField_of_hold hold "start_task" rfl
      (Source.optionalText_readsBack start),
    Source.defaulted_of_hold hold "tasks_end_code_routing" rfl hrouting,
    Source.defaulted_of_hold hold "max_attempts" rfl
      (Source.word_readsBack maxAttempts),
    Source.defaulted_of_hold hold "recursive" rfl
      (Source.flag_readsBack recursive)]
  rfl

/-- Documents are stable: their shared parameters (`SharedParameter.stable`)
and their entries (`Entry.stable`) are. -/
theorem Document.stable : Stable ofJson? toJson := by
  intro v d h
  obtain ⟨fields, -, h⟩ := Option.bind_eq_some_iff.1 h
  obtain ⟨parameters, hparameters, h⟩ := Option.bind_eq_some_iff.1 h
  obtain ⟨entries, hentries, h⟩ := Option.bind_eq_some_iff.1 h
  cases h
  have hparameters :=
    Source.readsBack_of_defaulted (Source.list_stable SharedParameter.stable)
      Source.list_nil hparameters
  have hentries := Source.readsBack_of_required
    (Source.list_stable Entry.stable) hentries
  refine read_ofMembers fun fields' hold => ?_
  rw [Source.defaulted_of_hold hold "parameters" rfl hparameters,
    Source.required_of_hold hold "tasks" rfl hentries]
  rfl

end Catalog

-- =========================================================== all types

/-- Whatever has been read from JSON, of any type of data and in any of the
forms that are read, is read again from what is written of it: `Stable`, for
the reader and the writer of each of the ten types. -/
theorem accepted_data_stable :
    Stable Message.ofJson? (Message.toJson ofBinary64) ∧
    Stable Usage.ofJson? (Usage.toJson ofBinary64) ∧
    Stable ApiEntry.ofJson? ApiEntry.toJson ∧
    Stable AvailabilityReport.ofJson? AvailabilityReport.toJson ∧
    Stable InputSchema.ofJson? InputSchema.toJson ∧
    Stable Identity.ofJson? Identity.toJson ∧
    Stable RoutingTable.ofJson? RoutingTable.toJson ∧
    Stable Response.ofJson? (Response.toJson .stored) ∧
    Stable StoredResponse.ofJson? (StoredResponse.toJson .stored) ∧
    Stable Catalog.Document.ofJson? Catalog.Document.toJson :=
  ⟨Message.stable, Usage.stable, stable_of_readsBack ApiEntry.readsBack,
    stable_of_readsBack AvailabilityReport.readsBack, InputSchema.stable,
    Identity.stable, RoutingTable.stable, Response.stable,
    StoredResponse.stable, Catalog.Document.stable⟩

end TaskRouting
