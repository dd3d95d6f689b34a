import TaskRouting.Proofs.Json.Parsing
import TaskRouting.Proofs.Json.Types
import TaskRouting.Store
/-!
Records are read back from their files.

A file store writes whatever it is given, and reads back what the JSON of the
record is read as, if its brackets do not nest too deep for the reader
(`FileStore.load_kept`). That is the same record exactly if JSON can write all
of it (`FileStore.load_kept_iff`). A cost that is not a number is written as
null and makes the whole record unreadable, and metadata that are null are
gone; the store does not tell them from anything else when it keeps the
record.

# Between the text and the JSON

The text of a record is the pretty print of its JSON, and `readAs?_pretty`
gives that back, under two conditions. The JSON must be `Printable`: its whole
numbers fit into 64 bits, its tables ascend, and its floating point numbers
are read from their own texts. And an outline must find in it what it looks
for (`Outline.Finds`), since a reader keeps no more of a text than its outline
looks at. Both are shown along the fields of a record, for usages, messages,
responses and stored responses, the history of a response by
`Response.induction`. That floating point numbers are read from their texts is
not proved but asked for (`Binary64.Legible`); only those that the record
holds are asked.

# Between the JSON and the record

What the JSON of a record is read as is a matter of `StoredResponse.ofJson?`,
and `StoredResponse.readsBack_iff` says when it is the record: if all nodes of
its response are `Writable`.

# Depth

The reader gives up at `nestingLimit` brackets. A record whose inputs and
metadata are nested `d` deep and whose histories are nested `k` deep takes at
most `d + 2 * k + 5` of them (`StoredResponse.depth_le`), two for each
history: its list, and the object of an entry.
-/

namespace TaskRouting

open Json

-- ====================================== what can be read from its text

namespace Json

variable {α : Type} {encode : α → Json}

/-- An object that is filled from members is printable if they are:
`ofMembers` puts them in order, and adds nothing. -/
theorem Printable.ofMembers {members : List (String × Json)}
    (h : ∀ m ∈ members, m.2.Printable) : (ofMembers members).Printable :=
  .object (Table.ascending_ofList members) fun m hm =>
    h m (Table.mem_of_mem_ofList hm)

/-- What may be missing is `Printable` if it is when it is there; null always
is. -/
theorem Printable.optional {o : Option α}
    (h : ∀ x ∈ o, (encode x).Printable) :
    (Json.optional encode o).Printable := by
  cases o with
  | none => exact .null
  | some x => exact h x rfl

/-- A list is printable if each thing in it is. -/
theorem Printable.list {xs : List α} (h : ∀ x ∈ xs, (encode x).Printable) :
    (Json.array (xs.map encode)).Printable := by
  refine .array fun v hv => ?_
  obtain ⟨x, hx, rfl⟩ := List.mem_map.1 hv
  exact h x hx

/-- A number of 64 bits is written and read as it is, so it is `Printable`. -/
theorem Printable.ofNat {n : Nat} (h : n < twoTo 64) :
    (Json.ofNat n).Printable :=
  .int ⟨by omega, Int.ofNat_lt.2 h⟩

/-- What may be missing is found if it is when it is there: null has no depth,
so nothing is looked for in it (`finds_of_depth_eq_zero`). -/
theorem Outline.finds_optional {o : Outline} {x? : Option α}
    (h : ∀ x ∈ x?, o.Finds (encode x)) :
    o.Finds (Json.optional encode x?) := by
  cases x? with
  | none => exact finds_of_depth_eq_zero rfl
  | some x => exact h x rfl

/-- A list is found if each thing in it is: `finds_items`, for what `encode`
makes of them. -/
theorem Outline.finds_list {o : Outline} {xs : List α}
    (h : ∀ x ∈ xs, o.Finds (encode x)) :
    (Outline.items o).Finds (.array (xs.map encode)) := by
  refine finds_items fun v hv => ?_
  obtain ⟨x, hx, rfl⟩ := List.mem_map.1 hv
  exact h x hx

end Json

/-- A number that is read from its own `text`, if it is one that JSON can
write. -/
def Binary64.Legible (x : Binary64) : Prop :=
  ∀ h : x.isFinite = true, readNumber x.text.toList
    = some (some (.float ⟨x, h⟩), [])

/-- A number that is read from its own text is printable, and one that is no
number is written as null. -/
theorem Binary64.Legible.printable {x : Binary64} (h : x.Legible) :
    (ofBinary64 x).Printable := by
  unfold ofBinary64
  split
  next hfinite => exact .float (h hfinite)
  next => exact .null

/-- A usage is `Printable` if its cost is; the counts fit into 64 bits. -/
theorem Usage.printable {u : Usage} (h : u.cost.Legible) :
    (u.toJson ofBinary64).Printable := by
  refine .ofMembers ?_
  simp only [List.forall_mem_cons]
  exact ⟨.ofNat u.promptTokens.toNat_lt, .ofNat u.completionTokens.toNat_lt,
    .ofNat u.totalTokens.toNat_lt, h.printable, fun _ hm => nomatch hm⟩

/-- A message whose cost and metadata are read from their texts. -/
structure Message.Legible (m : Message) : Prop where
  cost : ∀ u ∈ m.usage, u.cost.Legible
  metadata : ∀ v ∈ m.metadata, v.Printable

/-- A message is `Printable` if its cost and its metadata are. -/
theorem Message.printable {m : Message} (h : m.Legible) :
    (m.toJson ofBinary64).Printable := by
  refine .ofMembers ?_
  simp only [List.forall_mem_cons]
  exact ⟨.string m.role.name, .string m.content, .optional fun s _ =>
    .string s, .optional fun u hu => Usage.printable (h.cost u hu),
      .optional h.metadata, fun _ hm => nomatch hm⟩

namespace Response

/-- A response whose costs, metadata and inputs are read from their texts, its
history left out. -/
structure Legible (r : Response) : Prop where
  outputs : ∀ messages ∈ r.outputs, ∀ m ∈ messages, m.Legible
  inputs : (Json.object r.inputs).Printable
  cost : ∀ u ∈ r.usage, u.cost.Legible

/-- A response is `Printable` if each of its nodes is `Legible`. By induction
on the response: its own fields one by one, and each entry of its history,
whose nodes are nodes of the whole. -/
theorem printable {r : Response} :
    (∀ node ∈ r.nodes, node.Legible) → (r.toJson .stored).Printable := by
  induction r using Response.induction with
  | h r ih =>
    intro h
    obtain ⟨hself, hinside⟩ := forall_mem_nodes_iff.1 h
    rw [toJson_stored]
    refine .ofMembers ?_
    simp only [members, List.forall_mem_cons]
    refine ⟨.string _, .string _, .string _, .string _, .ofNat ?_,
      .optional ?_, hself.inputs, .optional fun s _ => .string s,
      .optional fun u hu => Usage.printable (hself.cost u hu), .optional ?_,
      .string _, fun _ hm => nomatch hm⟩
    · exact Nat.lt_trans r.code.toNat_lt (by decide)
    · exact fun messages hmessages =>
        .list fun m hm => Message.printable
          (hself.outputs messages hmessages m hm)
    · exact fun entries hentries => .list fun entry hentry =>
        ih entries hentries entry hentry
          (hinside entries hentries entry hentry)

end Response

/-- A record is printable if each node of its response is legible. -/
theorem StoredResponse.printable {r : StoredResponse}
    (h : ∀ node ∈ r.response.nodes, node.Legible) :
    (r.toJson .stored).Printable := by
  refine .ofMembers ?_
  simp only [List.forall_mem_cons]
  exact ⟨.string _, .string _, .bool _, Response.printable h,
    fun _ hm => nomatch hm⟩

-- ================================================ what readers look at

/-- An outline of a usage looks into nothing but the cost, which is taken
whole. -/
theorem Usage.finds {u : Usage} (h : u.cost.Legible) :
    Usage.outline.Finds (u.toJson ofBinary64) := by
  refine Outline.finds_record ?_
  simp only [List.forall_mem_cons]
  exact ⟨⟨_, rfl, Outline.finds_of_depth_eq_zero rfl⟩,
    ⟨_, rfl, Outline.finds_of_depth_eq_zero rfl⟩,
    ⟨_, rfl, Outline.finds_of_depth_eq_zero rfl⟩,
      ⟨_, rfl, Outline.finds_whole h.printable⟩,
    fun _ hm => nomatch hm⟩

/-- An outline of a message looks into its usage (`Usage.finds`), and takes
the metadata whole. -/
theorem Message.finds {m : Message} (h : m.Legible) :
    Message.outline.Finds (m.toJson ofBinary64) := by
  refine Outline.finds_record ?_
  simp only [List.forall_mem_cons]
  refine ⟨⟨_, rfl, Outline.finds_of_depth_eq_zero rfl⟩,
    ⟨_, rfl, Outline.finds_of_depth_eq_zero rfl⟩, ⟨_, rfl, ?_⟩, ⟨_, rfl, ?_⟩,
    ⟨_, rfl, ?_⟩, fun _ hm => nomatch hm⟩
  · exact Outline.finds_optional fun s _ => Outline.finds_of_depth_eq_zero rfl
  · exact Outline.finds_optional fun u hu => Usage.finds (h.cost u hu)
  · exact Outline.finds_whole (.optional h.metadata)

/-- A response is found in what is written of it, however far its histories
are looked into. By induction on the response, with a case for each level of
the outline: at none the response is taken whole, which is why it must be
`printable`, and at each further one its history is looked into. -/
theorem Response.finds {r : Response} :
    (∀ node ∈ r.nodes, node.Legible) → ∀ level, (Response.outline level).Finds
      (r.toJson .stored) := by
  induction r using Response.induction with
  | h r ih =>
    intro h level
    cases level with
    | zero => exact Outline.finds_whole (printable h)
    | succ level =>
      obtain ⟨hself, hinside⟩ := forall_mem_nodes_iff.1 h
      -- Seven of the fields have no brackets, so no outline looks into them.
      have hscalar : ∀ {o : Outline} {v : Json}, v.depth = 0 → o.Finds v :=
        fun hdepth => Outline.finds_of_depth_eq_zero hdepth
      rw [toJson_stored]
      refine Outline.finds_record ?_
      simp only [members, List.forall_mem_cons]
      refine ⟨⟨_, rfl, hscalar rfl⟩, ⟨_, rfl, hscalar rfl⟩,
        ⟨_, rfl, hscalar rfl⟩, ⟨_, rfl, hscalar rfl⟩, ⟨_, rfl, hscalar rfl⟩,
        ⟨_, rfl, ?_⟩, ⟨_, rfl, ?_⟩, ⟨_, rfl, ?_⟩, ⟨_, rfl, ?_⟩, ⟨_, rfl, ?_⟩,
        ⟨_, rfl, hscalar rfl⟩, fun _ hm => nomatch hm⟩
      · exact Outline.finds_optional fun messages hmessages =>
          Outline.finds_list fun m hm =>
            Message.finds (hself.outputs messages hmessages m hm)
      · exact Outline.finds_whole hself.inputs
      · exact Outline.finds_optional fun s _ => hscalar rfl
      · exact Outline.finds_optional fun u hu => Usage.finds (hself.cost u hu)
      · exact Outline.finds_optional fun entries hentries =>
          Outline.finds_list fun entry hentry =>
            ih entries hentries entry hentry
              (hinside entries hentries entry hentry) level

/-- A record is found in what is written of it: the reader looks into
histories as deep as its limit (`Response.finds`). -/
theorem StoredResponse.finds {r : StoredResponse}
    (h : ∀ node ∈ r.response.nodes, node.Legible) :
    StoredResponse.outline.Finds (r.toJson .stored) := by
  refine Outline.finds_record ?_
  simp only [List.forall_mem_cons]
  exact ⟨⟨_, rfl, Outline.finds_of_depth_eq_zero rfl⟩,
    ⟨_, rfl, Outline.finds_of_depth_eq_zero rfl⟩,
    ⟨_, rfl, Outline.finds_of_depth_eq_zero rfl⟩,
      ⟨_, rfl, Response.finds h nestingLimit⟩,
    fun _ hm => nomatch hm⟩

-- ================================================ how deep records are

/-- What may be missing is as deep as it is when it is there. -/
theorem Json.depth_optional_le {α : Type} {encode : α → Json} {o : Option α}
    {n : Nat} (h : ∀ x ∈ o, (encode x).depth ≤ n) :
    (Json.optional encode o).depth ≤ n := by
  cases o with
  | none => exact Nat.zero_le n
  | some x => exact h x rfl

/-- A list takes one bracket more than the deepest thing in it
(`depthOfItems_le`). -/
theorem Json.depth_list_le {α : Type} {encode : α → Json} {xs : List α}
    {n : Nat} (h : ∀ x ∈ xs, (encode x).depth ≤ n) :
    (Json.array (xs.map encode)).depth ≤ n + 1 := by
  rw [depth]
  refine Nat.succ_le_succ (depthOfItems_le fun v hv => ?_)
  obtain ⟨x, hx, rfl⟩ := List.mem_map.1 hv
  exact h x hx

/-- Numbers take no brackets. -/
theorem Json.depth_ofBinary64 (x : Binary64) : (ofBinary64 x).depth = 0 := by
  unfold ofBinary64
  split
  all_goals rfl

/-- A usage takes one bracket, its own, as none of its fields takes any
(`depth_ofBinary64`). -/
theorem Usage.depth_le (u : Usage) : (u.toJson ofBinary64).depth ≤ 1 := by
  refine depth_ofMembers_le ?_
  simp only [List.forall_mem_cons]
  exact ⟨Nat.zero_le 0, Nat.zero_le 0, Nat.zero_le 0,
    (depth_ofBinary64 u.cost).le,
    fun _ hm => nomatch hm⟩

/-- A message takes one bracket more than its metadata, or two, for its usage
(`Usage.depth_le`). -/
theorem Message.depth_le {m : Message} {n : Nat}
    (h : ∀ v ∈ m.metadata, v.depth ≤ n + 1) :
    (m.toJson ofBinary64).depth ≤ n + 2 := by
  refine depth_ofMembers_le ?_
  simp only [List.forall_mem_cons]
  refine ⟨Nat.zero_le _, Nat.zero_le _, depth_optional_le fun s _ =>
    Nat.zero_le _, depth_optional_le fun u _ => ?_, depth_optional_le h,
      fun _ hm => nomatch hm⟩
  exact Nat.le_trans u.depth_le (Nat.succ_le_succ (Nat.zero_le n))

namespace Response

/-- A response whose inputs and metadata are nested only so deep, its history
left out. -/
structure Flat (d : Nat) (r : Response) : Prop where
  outputs : ∀ messages ∈ r.outputs, ∀ m ∈ messages, ∀ v ∈ m.metadata,
    v.depth ≤ d + 1
  inputs : (Json.object r.inputs).depth ≤ d + 3

/-- A response whose histories are nested only so deep. -/
def Nested : Nat → Response → Prop
  | 0, r => r.history = none
  | k + 1, r => ∀ entries ∈ r.history, ∀ entry ∈ entries, Nested k entry

/-- A `Flat` response takes one bracket more than its history or than its own
values, whichever are deeper. -/
theorem depth_le_of_history {d n : Nat} {r : Response} (h : r.Flat d)
    (hn : d + 3 ≤ n)
    (hhistory : ∀ entries ∈ r.history,
      (Json.array (entries.map (toJson .stored))).depth ≤ n) :
    (r.toJson .stored).depth ≤ n + 1 := by
  have houtputs : ∀ messages ∈ r.outputs,
      (Json.array (messages.map (Message.toJson ofBinary64))).depth ≤ n :=
        fun messages hmessages =>
    Nat.le_trans (depth_list_le fun m hm =>
      Message.depth_le (h.outputs messages hmessages m hm)) hn
  have husage : ∀ u ∈ r.usage, (Usage.toJson ofBinary64 u).depth ≤ n :=
    fun u _ =>
    Nat.le_trans u.depth_le (by omega)
  have hscalar : ∀ {v : Json}, v.depth = 0 → v.depth ≤ n :=
    fun hv => hv ▸ Nat.zero_le n
  rw [toJson_stored]
  refine depth_ofMembers_le ?_
  simp only [members, List.forall_mem_cons]
  exact ⟨hscalar rfl, hscalar rfl, hscalar rfl, hscalar rfl, hscalar rfl,
    depth_optional_le houtputs, Nat.le_trans h.inputs hn, depth_optional_le
    fun s _ => hscalar rfl, depth_optional_le husage,
    depth_optional_le hhistory, hscalar rfl, fun _ hm => nomatch hm⟩

/-- Each history takes two brackets: by induction on how deep they are nested,
with `depth_le_of_history` for the fields of each response. -/
theorem depth_le {d k : Nat} {r : Response}
    (h : ∀ node ∈ r.nodes, node.Flat d) (hnested : r.Nested k) :
    (r.toJson .stored).depth ≤ d + 2 * k + 4 := by
  induction k generalizing r with
  | zero =>
    refine depth_le_of_history (forall_mem_nodes_iff.1 h).1 (by omega)
      fun entries hentries => ?_
    cases hnested.symm.trans hentries
  | succ k ih =>
    obtain ⟨hself, hinside⟩ := forall_mem_nodes_iff.1 h
    refine depth_le_of_history hself (by omega) fun entries hentries => ?_
    refine depth_list_le fun entry hentry => ?_
    exact ih (hinside entries hentries entry hentry)
      (hnested entries hentries entry hentry)

end Response

/-- A record is nested no deeper than its histories and what is in them make
it: one bracket more than its response. -/
theorem StoredResponse.depth_le {d k : Nat} {r : StoredResponse}
    (h : ∀ node ∈ r.response.nodes, node.Flat d)
    (hnested : r.response.Nested k) :
    (r.toJson .stored).depth ≤ d + 2 * k + 5 := by
  refine depth_ofMembers_le ?_
  simp only [List.forall_mem_cons]
  exact ⟨Nat.zero_le _, Nat.zero_le _, Nat.zero_le _,
    Response.depth_le h hnested,
    fun _ hm => nomatch hm⟩

-- ================================================= keeping and loading

namespace FileStore

variable {s s' later : FileStore} {r : StoredResponse}

/-- The file of a record that has been kept holds its text: `keep` inserts it
under the name of the record, or refuses. -/
theorem get?_of_keep (h : s.keep r = .ok s') :
    s'.files.get? r.id.text = some (recordText r) := by
  unfold keep at h
  split at h
  next => cases h
  next =>
    cases h
    show Table.get? (Table.insert s.files r.id.text (recordText r))
        r.id.text = _
    rw [Table.get?_insert, if_pos rfl]

/-- What is read of a record that has been kept is what its JSON is read as:
`readAs?_pretty`, for the text that `get?_of_keep` finds. -/
theorem load_kept (hlegible : ∀ node ∈ r.response.nodes, node.Legible)
    (hkeep : s.keep r = .ok s')
    (hfile : later.files.get? r.id.text = s'.files.get? r.id.text)
    (result : StoredResponse) :
    later.load r.id = .ok result
      ↔ (r.toJson .stored).depth < nestingLimit
        ∧ StoredResponse.ofJson? (r.toJson .stored) = some result := by
  have hread : readAs? StoredResponse.outline (recordText r)
      = if (r.toJson .stored).depth < nestingLimit then
        some (r.toJson .stored) else none :=
    readAs?_pretty (StoredResponse.printable hlegible)
      (StoredResponse.finds hlegible)
  unfold load
  rw [hfile, get?_of_keep hkeep]
  dsimp only
  rw [hread]
  by_cases hdepth : (r.toJson .stored).depth < nestingLimit
  · rw [if_pos hdepth, Option.bind_some, and_iff_right hdepth]
    cases StoredResponse.ofJson? (r.toJson .stored) with
    | none => exact iff_of_false (fun h => nomatch h) fun h => nomatch h
    | some back =>
      dsimp only
      rw [Except.ok.injEq, Option.some.injEq]
  · rw [if_neg hdepth, Option.bind_none]
    exact iff_of_false (fun h => nomatch h) fun h => hdepth h.1

/-- A record that a store has kept is read back from its file exactly if all
costs in it are numbers, no metadata are null, and its brackets do not nest
too deep: `load_kept`, with `StoredResponse.readsBack_iff` for the JSON. -/
theorem load_kept_iff (hlegible : ∀ node ∈ r.response.nodes, node.Legible)
    (hkeep : s.keep r = .ok s')
    (hfile : later.files.get? r.id.text = s'.files.get? r.id.text) :
    later.load r.id = .ok r
      ↔ (∀ node ∈ r.response.nodes, node.Writable)
        ∧ (r.toJson .stored).depth < nestingLimit := by
  rw [load_kept hlegible hkeep hfile, and_comm]
  exact and_congr_left fun _ => StoredResponse.readsBack_iff

/-- The response of a task that has been told a seed and has said one word. -/
def voiced : Response where
  header := ⟨"t", "Task", "says \"a\""⟩
  status := .success
  code := successCode
  outputs :=
    some [⟨.assistant, "a\n", some "voice", none, some (.array [.bool true])⟩]
  inputs := [("seed", .int (-7))]
  diagnostic := none
  usage := none
  history := none
  createdAt := .epoch

/-- The record of a workflow with that task alone. -/
def told : StoredResponse where
  id := .ofSerial 0
  storedAt := .epoch
  persisted := true
  response := { voiced with
    header := ⟨"w", "Workflow", ""⟩
    outputs := none
    history := some [voiced] }

/-- That record has two nodes. -/
theorem forall_mem_nodes_told {P : Response → Prop} (hwhole : P told.response)
    (hpart : P voiced) : ∀ node ∈ told.response.nodes, P node := by
  refine Response.forall_mem_nodes_iff.2 ⟨hwhole, ?_⟩
  rintro entries ⟨⟩ entry hentry
  cases List.mem_singleton.1 hentry
  exact Response.forall_mem_nodes_iff.2
    ⟨hpart, fun _ hentries => nomatch hentries⟩

/-- The record of the workflow is read back with its history: `load_kept_iff`,
with the depth bounded by `StoredResponse.depth_le`. -/
theorem told_loaded :
    ∃ s, empty.keep told = .ok s
      ∧ (∀ node ∈ told.response.nodes, node.Legible)
      ∧ s.load told.id = .ok told := by
  have hseed : (Json.object [("seed", .int (-7))]).Printable := by
    refine .object (List.pairwise_singleton _ _) fun m hm => ?_
    cases List.mem_singleton.1 hm
    exact .int ⟨by decide, by decide⟩
  have hlegible : ∀ node ∈ told.response.nodes, node.Legible := by
    refine forall_mem_nodes_told
      ⟨fun _ h => (nomatch h), hseed, fun _ h => (nomatch h)⟩
      ⟨?_, hseed, fun _ h => (nomatch h)⟩
    rintro messages ⟨⟩ m hm
    cases List.mem_singleton.1 hm
    refine ⟨fun _ h => (nomatch h), ?_⟩
    rintro v ⟨⟩
    exact .array (List.forall_mem_singleton.2 (.bool true))
  have hwritable : ∀ node ∈ told.response.nodes, node.Writable := by
    refine forall_mem_nodes_told
      ⟨fun _ h => (nomatch h), fun _ h => (nomatch h)⟩
      ⟨?_, fun _ h => (nomatch h)⟩
    rintro messages ⟨⟩ m hm
    cases List.mem_singleton.1 hm
    exact ⟨fun _ h => (nomatch h), fun h => (nomatch h)⟩
  have hflat : ∀ node ∈ told.response.nodes, node.Flat 0 := by
    refine forall_mem_nodes_told ⟨fun _ h => (nomatch h), by decide⟩
      ⟨?_, by decide⟩
    rintro messages ⟨⟩ m hm
    cases List.mem_singleton.1 hm
    rintro v ⟨⟩
    decide
  have hnested : told.response.Nested 1 := by
    rintro entries ⟨⟩ entry hentry
    cases List.mem_singleton.1 hentry
    rfl
  have hdepth : (told.toJson .stored).depth < nestingLimit :=
    Nat.lt_of_le_of_lt (StoredResponse.depth_le hflat hnested) (by decide)
  have hkeep : empty.keep told
      = .ok (empty.write told.id (recordText told)) := rfl
  exact ⟨_, hkeep, hlegible,
    (load_kept_iff hlegible hkeep rfl).2 ⟨hwritable, hdepth⟩⟩

/-- A usage whose cost is no number. -/
def priceless : Usage := ⟨1, 1, 2, .infinity false⟩

/-- The record of a task that has said one word, at a cost that is no
number. -/
def overpriced : StoredResponse where
  id := .ofSerial 0
  storedAt := .epoch
  persisted := true
  response := {
    header := ⟨"t", "Task", ""⟩
    status := .success
    code := successCode
    outputs := some [⟨.assistant, "a", none, some priceless, none⟩]
    inputs := []
    diagnostic := none
    usage := some priceless
    history := none
    createdAt := .epoch }

/-- A cost that is no number is legible: it has no text that would have to be
read. -/
theorem priceless_legible : priceless.cost.Legible :=
  fun h => absurd h (by decide)

/-- A record is kept and cannot be read back although nothing in it is hard to
read or nested deep: its cost is no number, so its response is not
`Writable`. -/
theorem overpriced_not_loaded :
    (∀ node ∈ overpriced.response.nodes, node.Legible)
      ∧ (overpriced.toJson .stored).depth < nestingLimit
      ∧ ∃ s, empty.keep overpriced = .ok s
        ∧ s.load overpriced.id ≠ .ok overpriced := by
  have hlegible : ∀ node ∈ overpriced.response.nodes, node.Legible := by
    refine Response.forall_mem_nodes_iff.2
      ⟨⟨?_, ?_, ?_⟩, fun _ hentries => nomatch hentries⟩
    · rintro messages ⟨⟩ m hm
      cases List.mem_singleton.1 hm
      refine ⟨?_, fun _ h => nomatch h⟩
      rintro u ⟨⟩
      exact priceless_legible
    · exact .object .nil fun _ hm => nomatch hm
    · rintro u ⟨⟩
      exact priceless_legible
  have hflat : ∀ node ∈ overpriced.response.nodes, node.Flat 0 := by
    refine Response.forall_mem_nodes_iff.2
      ⟨⟨?_, by decide⟩, fun _ hentries => nomatch hentries⟩
    rintro messages ⟨⟩ m hm
    cases List.mem_singleton.1 hm
    exact fun _ h => nomatch h
  have hnested : overpriced.response.Nested 0 := rfl
  have hdepth : (overpriced.toJson .stored).depth < nestingLimit :=
    Nat.lt_of_le_of_lt (StoredResponse.depth_le hflat hnested) (by decide)
  have hkeep : empty.keep overpriced
      = .ok (empty.write overpriced.id (recordText overpriced)) := rfl
  refine ⟨hlegible, hdepth, _, hkeep, fun hload => ?_⟩
  obtain ⟨-, hback⟩ := (load_kept hlegible hkeep rfl overpriced).1 hload
  have hwritable :=
    (Response.forall_mem_nodes_iff.1 (StoredResponse.readsBack_iff.1 hback)).1
  exact absurd (hwritable.cost priceless rfl) (by decide)

end FileStore

end TaskRouting
