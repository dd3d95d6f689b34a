import TaskRouting.Json.Fields
import TaskRouting.Proofs.Sequence
import TaskRouting.Proofs.Table
import TaskRouting.Proofs.Text.Digits
/-!
Values that read back from what is written of them.

A type of data comes with a way to read its values from JSON and a way to
write them. Reading is generous: fields may be missing, null or unknown, and
records may be arrays. Writing has one form for each value, so what matters is
that the value is read again from that form (`ReadsBack`), at least if it has
been read from anything at all (`Stable`). The second is weaker only where
some values cannot be written; `stable_of_readsBack` is for the other types.

# Words

Both are settled here for the words in which all types are described: texts,
numbers, options, lists, maps and fields. For each there is what it takes for
a value to read back (`optional_readsBack_iff`, `list_readsBack_iff`,
`table_readsBack`, `codeTable_readsBack`), and that it is stable if what is
inside is. Two of them lose something. Null stands for an option that is not
there, so what is there must not be written as null. And a number is written
only if it is finite (`binary64_readsBack_iff`).

# Maps from result codes

Their keys are written as decimal texts, and JSON orders its members by text:
`10` comes before `2`. Written and read again, the entries are permuted
(`nodup_codeMembers` and `Table.ofList_perm`), and filling a map with them
puts them back in order (`Table.Ascending.ofList_eq_of_perm`).

# Records

A record is written by `ofMembers` from a list of members, and then its fields
are those members (`Fields.Hold`), so `read_ofMembers` reduces reading it back
to reading each field (`Hold.required`, `Hold.defaulted`, `Hold.optional`).
Backwards, a field that has been read was stable or had its default
(`readsBack_of_defaulted`, `readsBack_of_optional`).
-/

namespace TaskRouting

namespace Json

variable {α β : Type}

-- ======================================================== reading back

/-- A value is read from what is written of it. -/
def ReadsBack (read : Json → Option α) (write : α → Json) (x : α) : Prop :=
  read (write x) = some x

/-- Whatever is read is read again from what is written of it. -/
def Stable (read : Json → Option α) (write : α → Json) : Prop :=
  ∀ v x, read v = some x → ReadsBack read write x

variable {read : Json → Option α} {write : α → Json}

/-- Where every value reads back, whatever has been read is `Stable`. -/
theorem stable_of_readsBack (h : ∀ x, ReadsBack read write x) :
    Stable read write :=
  fun _ x _ => h x

/-- Texts, truth values and inputs are written as they are. -/
theorem string_readsBack (s : String) : ReadsBack string? .string s := rfl

theorem bool_readsBack (b : Bool) : ReadsBack bool? .bool b := rfl

theorem inputs_readsBack (inputs : Inputs) :
    ReadsBack inputs? .object inputs :=
  rfl

/-- A number below a bound is read within it by `natBelow?`. -/
theorem natBelow?_ofNat {bound n : Nat} (h : n < bound) :
    natBelow? bound (.ofNat n) = some n := by
  have hwithin : (0 : Int) ≤ (n : Int) ∧ (n : Int) < (bound : Int) := by omega
  show (if (0 : Int) ≤ (n : Int) ∧ (n : Int) < (bound : Int) then
      some (n : Int).toNat else none)
    = some n
  rw [if_pos hwithin, Int.toNat_natCast]

/-- Numbers of 32 bits read back: `natBelow?` accepts what the type holds. -/
theorem uint32_readsBack (n : UInt32) :
    ReadsBack uint32? (fun n => .ofNat n.toNat) n := by
  unfold ReadsBack uint32?
  rw [natBelow?_ofNat n.toNat_lt_size, Option.map_some, UInt32.ofNat_toNat]

/-- Numbers of 64 bits read back, as those of 32 bits do. -/
theorem uint64_readsBack (n : UInt64) :
    ReadsBack uint64? (fun n => .ofNat n.toNat) n := by
  unfold ReadsBack uint64?
  rw [natBelow?_ofNat n.toNat_lt_size, Option.map_some, UInt64.ofNat_toNat]

/-- Exactly the finite numbers read back: `ofBinary64` writes the others as
null, which is no number. -/
theorem binary64_readsBack_iff {x : Binary64} :
    ReadsBack binary64? ofBinary64 x ↔ x.isFinite = true := by
  unfold ReadsBack ofBinary64
  by_cases h : x.isFinite = true
  · rw [dif_pos h]
    exact iff_of_true rfl h
  · rw [dif_neg h]
    exact iff_of_false (fun hread => nomatch hread) h

/-- What has been read as a number is finite, whether it was written with a
point or without, so it reads back. -/
theorem binary64_stable : Stable binary64? ofBinary64 := by
  intro v x h
  refine binary64_readsBack_iff.2 ?_
  cases v with
  | float y =>
    cases h
    exact y.finite
  | int n =>
    dsimp only [binary64?] at h
    split at h
    next hfinite =>
      cases h
      exact hfinite
    next => cases h
  | null => cases h
  | bool b => cases h
  | string s => cases h
  | array items => cases h
  | object members => cases h

/-- Only null stands for an option that is not there. -/
theorem nullable?_of_ne_null {v : Json} (h : v ≠ .null) :
    nullable? read v = (read v).map some := by
  cases v with
  | null => exact absurd rfl h
  | bool b => rfl
  | int n => rfl
  | float x => rfl
  | string s => rfl
  | array items => rfl
  | object members => rfl

/-- An optional value that is there reads back exactly if the value does and
is not written as null, for then it would count as not there
(`nullable?_of_ne_null`). -/
theorem optional_readsBack_iff {o : Option α} :
    ReadsBack (nullable? read) (optional write) o
      ↔ ∀ x ∈ o, write x ≠ .null ∧ ReadsBack read write x := by
  cases o with
  | none => exact iff_of_true rfl fun x hx => nomatch hx
  | some y =>
    unfold ReadsBack
    show nullable? read (write y) = some (some y) ↔ _
    constructor
    · intro h x hx
      cases hx
      by_cases hnull : write y = .null
      · rw [hnull] at h
        cases h
      · rw [nullable?_of_ne_null hnull, Option.map_eq_some_iff] at h
        obtain ⟨z, hz, heq⟩ := h
        cases heq
        exact ⟨hnull, hz⟩
    · intro h
      obtain ⟨hnull, hread⟩ := h y rfl
      rw [nullable?_of_ne_null hnull, hread, Option.map_some]

/-- Optional values are stable if the values are, and if nothing but null is
ever written as null. A value that is there was not read from null. -/
theorem optional_stable (h : Stable read write)
    (hnull : ∀ v x, v ≠ .null → read v = some x → write x ≠ .null) :
    Stable (nullable? read) (optional write) := by
  intro v o ho
  refine optional_readsBack_iff.2 fun x hx => ?_
  cases hx
  by_cases hv : v = .null
  · rw [hv] at ho
    cases ho
  · rw [nullable?_of_ne_null hv, Option.map_eq_some_iff] at ho
    obtain ⟨y, hy, heq⟩ := ho
    cases heq
    exact ⟨hnull v x hv hy, h v x hy⟩

/-- Optional texts read back, since no text is written as null. -/
theorem optionalString_readsBack (o : Option String) :
    ReadsBack (nullable? string?) (optional .string) o :=
  optional_readsBack_iff.2 fun s _ =>
    ⟨fun hnull => (nomatch hnull), string_readsBack s⟩

/-- A JSON value of any kind is stable where null stands for none. -/
theorem optionalJson_stable : Stable (nullable? some) (optional id) := by
  refine optional_stable (fun v x h => rfl) fun v x hv h => ?_
  cases h
  exact hv

/-- A list reads back exactly if each thing in it does:
`mapM_map_eq_some_iff`, item by item. -/
theorem list_readsBack_iff {xs : List α} :
    ReadsBack (list? read) (fun xs => .array (xs.map write)) xs
      ↔ ∀ x ∈ xs, ReadsBack read write x :=
  mapM_map_eq_some_iff

/-- What is in a list that is read has been read itself (`exists_of_mapM`). -/
theorem exists_of_list? {v : Json} {xs : List α} (h : list? read v = some xs)
    {x : α} (hx : x ∈ xs) : ∃ item, read item = some x := by
  cases v with
  | array items =>
    obtain ⟨item, -, hitem⟩ := exists_of_mapM h hx
    exact ⟨item, hitem⟩
  | null => cases h
  | bool b => cases h
  | int n => cases h
  | float x => cases h
  | string s => cases h
  | object members => cases h

/-- Lists of stable values are stable, since each thing in them
`ReadsBack`. -/
theorem list_stable (h : Stable read write) :
    Stable (list? read) fun xs => .array (xs.map write) := by
  intro v xs hxs
  refine list_readsBack_iff.2 fun x hx => ?_
  obtain ⟨item, hitem⟩ := exists_of_list? hxs hx
  exact h item x hitem

/-- Lists of texts read back. -/
theorem strings_readsBack (texts : List String) :
    ReadsBack (list? string?) strings texts :=
  list_readsBack_iff.2 fun s _ => string_readsBack s

-- =========================================== maps from names and codes

/-- The entry of a map that a member of an object gives. -/
def memberEntry (read : Json → Option α) (m : String × Json) :
    Option (String × α) :=
  (read m.2).bind fun x => some (m.1, x)

/-- Reading a map is reading each member of the object by `memberEntry`, and
filling a map with the entries. -/
theorem table?_object {members : List (String × Json)} :
    table? read (.object members) = (members.mapM (memberEntry read)).map
      Table.ofList := by
  show (members.mapM (memberEntry read)).bind
      (fun entries => some (Table.ofList entries)) = _
  cases members.mapM (memberEntry read) with
  | none => rfl
  | some entries => rfl

/-- A map whose keys ascend reads back if its values do: its entries fill the
same map again (`Ascending.ofList_eq`). -/
theorem table_readsBack {t : Table String α} (hascending : t.Ascending)
    (h : ∀ e ∈ t, ReadsBack read write e.2) :
    ReadsBack (table? read) (ofTable write) t := by
  have hentries : (t.mapValues write).mapM (memberEntry read) = some t := by
    refine mapM_map_eq_some_iff.2 fun e he => ?_
    show (read (write e.2)).bind (fun x => some (e.1, x)) = some e
    rw [h e he, Option.bind_some]
  unfold ReadsBack ofTable
  rw [table?_object, hentries, Option.map_some, hascending.ofList_eq]

/-- What is read from an object is a map, each of whose values has been
read. -/
theorem of_table? {v : Json} {t : Table String α}
    (h : table? read v = some t) :
    t.Ascending ∧ ∀ e ∈ t, ∃ w, read w = some e.2 := by
  cases v with
  | object members =>
    rw [table?_object, Option.map_eq_some_iff] at h
    obtain ⟨entries, hentries, rfl⟩ := h
    refine ⟨Table.ascending_ofList entries, fun e he => ?_⟩
    obtain ⟨⟨k, w⟩, -, hw⟩ :=
      exists_of_mapM hentries (Table.mem_of_mem_ofList he)
    obtain ⟨x, hx, heq⟩ := Option.bind_eq_some_iff.1 hw
    cases heq
    exact ⟨w, hx⟩
  | null => cases h
  | bool b => cases h
  | int n => cases h
  | float x => cases h
  | string s => cases h
  | array items => cases h

/-- Maps of stable values are stable: what has been read is ascending
(`of_table?`), so it reads back. -/
theorem table_stable (h : Stable read write) :
    Stable (table? read) (ofTable write) := by
  intro v t ht
  obtain ⟨hascending, hvalues⟩ := of_table? ht
  refine table_readsBack hascending fun e he => ?_
  obtain ⟨w, hw⟩ := hvalues e he
  exact h w e.2 hw

/-- The decimal digits of a code name it: they are digits, with no zero in
front unless it is the only one (`Text.head?_toDigits`), and they add up to
the code (`Text.sumDigits_toDigits`). -/
theorem codeKey?_toString (code : UInt32) :
    codeKey? (toString code.toNat) = some code := by
  have hdigits : (toString code.toNat).toList
      = Nat.toDigits 10 code.toNat := by
    rw [Nat.toString_eq_repr, Nat.toList_repr]
  have hall : (Nat.toDigits 10 code.toNat).all Char.isDigit = true :=
    List.all_eq_true.2 fun c hc => Text.isDigit_of_mem_toDigits hc
  have hsome : (Nat.toDigits 10 code.toNat).isEmpty = false :=
    List.isEmpty_eq_false_iff.2 (Text.toDigits_ne_nil _)
  have hplain : ((Nat.toDigits 10 code.toNat).length == 1
      || (Nat.toDigits 10 code.toNat).head? != some '0') = true := by
    by_cases hlength : (Nat.toDigits 10 code.toNat).length = 1
    · rw [hlength]
      rfl
    · rw [bne_iff_ne.2 (Text.head?_toDigits hlength), Bool.or_true]
  have hkey : decimalKey? (toString code.toNat) = some code.toNat := by
    unfold decimalKey?
    rw [hdigits]
    dsimp only
    rw [hall, hsome, hplain]
    exact congrArg some (Text.sumDigits_toDigits code.toNat)
  unfold codeKey?
  rw [hkey, Option.bind_eq_bind, Option.bind_some, if_pos code.toNat_lt_size]
  exact congrArg some (UInt32.ofNat_toNat)

/-- The entry of a map from result codes that a member of an object gives. -/
def codeMemberEntry (read : Json → Option α) (m : String × Json) :
    Option (UInt32 × α) :=
  (codeKey? m.1).bind fun code => (read m.2).bind fun x => some (code, x)

/-- The member that an entry of a map from result codes is written as. -/
def codeMember (write : α → Json) (e : UInt32 × α) : String × Json :=
  (toString e.1.toNat, write e.2)

/-- Reading a map from result codes is reading the key and the value of each
member by `codeMemberEntry`, and filling a map with the entries. -/
theorem codeTable?_object {members : List (String × Json)} :
    codeTable? read (.object members)
      = (members.mapM (codeMemberEntry read)).map Table.ofList := by
  show (members.mapM (codeMemberEntry read)).bind
      (fun entries => some (Table.ofList entries)) = _
  cases members.mapM (codeMemberEntry read) with
  | none => rfl
  | some entries => rfl

/-- An entry is read from the member that it is written as. -/
theorem codeMemberEntry_codeMember {e : UInt32 × α}
    (h : ReadsBack read write e.2) :
    codeMemberEntry read (codeMember write e) = some e := by
  unfold codeMemberEntry codeMember
  rw [codeKey?_toString, Option.bind_some, h, Option.bind_some]

/-- Different codes have different decimal names, so no member gives way to
another: a code is read from its name (`codeKey?_toString`). -/
theorem nodup_codeMembers {t : Table UInt32 α} (h : t.Ascending) :
    ((t.map (codeMember write)).map Prod.fst).Nodup := by
  have hinjective : Function.Injective fun code : UInt32 =>
    toString code.toNat := by
    intro code code' hsame
    have hcodes : codeKey? (toString code.toNat)
        = codeKey? (toString code'.toNat) :=
      congrArg codeKey? hsame
    rw [codeKey?_toString, codeKey?_toString] at hcodes
    exact Option.some.inj hcodes
  have hkeys : (t.map (codeMember write)).map Prod.fst
      = t.keys.map fun code => toString code.toNat := by
    rw [List.map_map, Table.keys, List.map_map]
    rfl
  rw [hkeys]
  exact List.Nodup.map hinjective h.nodup_keys

/-- A map from result codes reads back although the decimal names of its codes
come in another order: what is read is a permutation of its entries, and those
fill the same map (`Ascending.ofList_eq_of_perm`). -/
theorem codeTable_readsBack {t : Table UInt32 α} (hascending : t.Ascending)
    (h : ∀ e ∈ t, ReadsBack read write e.2) :
    ReadsBack (codeTable? read) (ofCodeTable write) t := by
  have hentry : ∀ e ∈ t, codeMemberEntry read (codeMember write e) = some e :=
    fun e he => codeMemberEntry_codeMember (h e he)
  have hperm : (Table.ofList (t.map (codeMember write))).Perm
      (t.map (codeMember write)) :=
    Table.ofList_perm (nodup_codeMembers hascending)
  have hall : ∀ m ∈ t.map (codeMember write),
      (codeMemberEntry read m).isSome = true := by
    intro m hm
    obtain ⟨e, he, rfl⟩ := List.mem_map.1 hm
    rw [hentry e he]
    rfl
  have hback : (t.map (codeMember write)).filterMap
      (codeMemberEntry read) = t := by
    have hsome := mapM_map_eq_some_iff.2 hentry
    rw [mapM_eq_some_filterMap hall] at hsome
    exact Option.some.inj hsome
  -- Reading is done member by member, so it carries the permutation of the
  -- members over to the entries.
  have hentries :
      ((Table.ofList (t.map (codeMember write))).filterMap
        (codeMemberEntry read)).Perm t := by
    have hfiltered := hperm.filterMap (codeMemberEntry read)
    rwa [hback] at hfiltered
  show codeTable? read (.object (Table.ofList (t.map (codeMember write))))
      = some t
  rw [codeTable?_object, mapM_eq_some_filterMap fun m hm =>
    hall m (hperm.mem_iff.1 hm), Option.map_some,
      hascending.ofList_eq_of_perm hentries]

/-- Maps from result codes to stable values are stable, for the reason of
`table_stable`. -/
theorem codeTable_stable (h : Stable read write) :
    Stable (codeTable? read) (ofCodeTable write) := by
  intro v t ht
  cases v with
  | object members =>
    rw [codeTable?_object, Option.map_eq_some_iff] at ht
    obtain ⟨entries, hentries, rfl⟩ := ht
    refine codeTable_readsBack (Table.ascending_ofList entries) fun e he => ?_
    obtain ⟨⟨k, w⟩, -, hw⟩ :=
      exists_of_mapM hentries (Table.mem_of_mem_ofList he)
    obtain ⟨code, -, hw⟩ := Option.bind_eq_some_iff.1 hw
    obtain ⟨x, hx, heq⟩ := Option.bind_eq_some_iff.1 hw
    cases heq
    exact h w x hx
  | null => cases ht
  | bool b => cases ht
  | int n => cases ht
  | float x => cases ht
  | string s => cases ht
  | array items => cases ht

-- ============================================================= records

/-- The fields of a record are those that have been written, each of them
once. -/
structure Fields.Hold (fields : Fields)
    (written : List (String × Json)) : Prop where
  ascending : Table.Ascending fields
  get : ∀ name, Table.get? fields name = Table.last? written name

/-- A record that has been written is made of just those fields when it is
read, whatever else `fields?` would accept. -/
theorem read_ofMembers {names : List String} {written : List (String × Json)}
    {build : Fields → Option α} {x : α}
    (h : ∀ fields, Fields.Hold fields written → build fields = some x) :
    ((ofMembers written).fields? names >>= build) = some x :=
  h _ ⟨Table.ascending_ofList written, Table.get?_ofList written⟩

namespace Fields

variable {fields : Fields} {written : List (String × Json)} {name : String}
  {w : Json} {x : α}

/-- A required field is read as what has been written of it: the fields find
it where `written` has it last. -/
theorem Hold.required (h : fields.Hold written) (name : String)
    (hwritten : Table.last? written name = some w) (hread : read w = some x) :
    fields.required name read = some x := by
  unfold Fields.required
  rw [h.get name, hwritten, Option.bind_some, hread]

/-- A field with a default is read as what has been written of it; the default
plays no part. -/
theorem Hold.defaulted {d : α} (h : fields.Hold written) (name : String)
    (hwritten : Table.last? written name = some w) (hread : read w = some x) :
    fields.defaulted name d read = some x := by
  unfold Fields.defaulted
  rw [h.get name, hwritten]
  exact hread

/-- An optional field is read as what has been written of it, null or not. -/
theorem Hold.optional {o : Option α} (h : fields.Hold written) (name : String)
    (hwritten : Table.last? written name = some w)
    (hread : nullable? read w = some o) :
    fields.optional name read = some o :=
  h.defaulted name hwritten hread

/-- An optional field that is there has been read from something. -/
theorem exists_of_optional {o : Option α}
    (h : fields.optional name read = some o) (hx : x ∈ o) :
    ∃ v, read v = some x := by
  cases hx
  unfold Fields.optional Fields.defaulted at h
  split at h
  next => cases h
  next v hget =>
    by_cases hnull : v = .null
    · rw [hnull] at h
      cases h
    · rw [nullable?_of_ne_null hnull, Option.map_eq_some_iff] at h
      obtain ⟨y, hy, heq⟩ := h
      cases heq
      exact ⟨v, hy⟩

/-- A field with a default that has been read reads back, since it is
`Stable`, and if it was missing its default does. -/
theorem readsBack_of_defaulted {d : α} (hstable : Stable read write)
    (hdefault : ReadsBack read write d)
    (h : fields.defaulted name d read = some x) : ReadsBack read write x := by
  unfold Fields.defaulted at h
  split at h
  next =>
    cases h
    exact hdefault
  next v hget => exact hstable v x h

/-- An optional field is one whose default is `none`, which always reads
back. -/
theorem readsBack_of_optional {o : Option α}
    (hstable : Stable (nullable? read) (Json.optional write))
    (h : fields.optional name read = some o) :
    ReadsBack (nullable? read) (Json.optional write) o :=
  readsBack_of_defaulted (d := none) hstable rfl h

end Fields

end Json

end TaskRouting
