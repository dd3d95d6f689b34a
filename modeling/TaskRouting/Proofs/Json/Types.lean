import TaskRouting.Availability
import TaskRouting.Proofs.Json.Stability
import TaskRouting.Proofs.ResponseTree
import TaskRouting.Proofs.Text.InstantText
import TaskRouting.Proofs.Text.RecordIdText
import TaskRouting.Response.Record
/-!
The types of data read back.

Of most of them all values do. A number that JSON cannot write, and a value
that is there but null, are written as null, so a usage does not read back if
its cost is not finite, a message if that is so of its usage or if its
metadata are null, and a response if it holds one of these, in its history or
outside of it (`Response.readsBack_iff`). What has been read from JSON holds
none of them, so every type is stable.

# How a record is settled

Reading back is always the same argument. `read_ofMembers` leaves a record
whose fields hold what has been written, and each field is read by its own
lemma, in the order in which the reader asks for them.

Stability begins one step earlier, with a value that has been read. The reader
is taken apart into its fields, those whose type is merely stable are read
back by `Fields.readsBack_of_defaulted` or `Fields.readsBack_of_optional`, and
the rest is as before. Where not all values can be written, as with usages,
messages and responses, a condition stands in between: what has been read is
writable (`writable_of_ofJson?`), and what is writable reads back.

# Responses

Responses hold responses, so both directions go by `Response.induction` over
the history. `ofJson?_eq` says that the history is a field like the others and
is read as a list, which the recursive reader does not show, and
`ofFields?_members` reads all other fields back.
-/

namespace TaskRouting

open Json

-- ============================================== registries and reports

/-- The status of an API reads back, each under its own name. -/
theorem ApiStatus.readsBack (s : ApiStatus) : ReadsBack ofJson? toJson s := by
  cases s
  all_goals rfl

/-- The configuration of an API reads back, field by field. -/
theorem ApiConfig.readsBack (c : ApiConfig) : ReadsBack ofJson? toJson c := by
  refine read_ofMembers fun fields hold => ?_
  rw [hold.optional "base_url" rfl (optionalString_readsBack c.baseUrl),
    hold.optional "api_key" rfl (optionalString_readsBack c.apiKey),
    hold.defaulted "extra" rfl (inputs_readsBack c.extra)]
  rfl

/-- An entry of the registry reads back, since the configuration in it does
(`ApiConfig.readsBack`). -/
theorem ApiEntry.readsBack (e : ApiEntry) : ReadsBack ofJson? toJson e := by
  refine read_ofMembers fun fields hold => ?_
  rw [hold.required "config" rfl e.config.readsBack,
    hold.defaulted "is_active" rfl (bool_readsBack e.active),
    hold.optional "degraded" rfl (optionalString_readsBack e.degraded)]
  rfl

/-- What has been found out about one API reads back. -/
theorem ApiFinding.readsBack (f : ApiFinding) :
    ReadsBack ofJson? toJson f := by
  refine read_ofMembers fun fields hold => ?_
  rw [hold.required "api" rfl (string_readsBack f.api),
    hold.required "status" rfl f.status.readsBack,
    hold.required "message" rfl (string_readsBack f.message)]
  rfl

/-- A report reads back, finding by finding (`ApiFinding.readsBack`). -/
theorem AvailabilityReport.readsBack (r : AvailabilityReport) :
    ReadsBack ofJson? toJson r := by
  refine read_ofMembers fun fields hold => ?_
  rw [hold.required "status" rfl r.status.readsBack,
    hold.required "messages" rfl
      (list_readsBack_iff.2 fun f _ => f.readsBack)]
  rfl

-- ====================================== schemas, identities and routes

/-- Parameters are `Stable`. They do not all read back: a default of null is
as if there were none. -/
theorem Parameter.stable : Stable ofJson? toJson := by
  intro v p h
  obtain ⟨fields, -, h⟩ := Option.bind_eq_some_iff.1 h
  obtain ⟨typeName, -, h⟩ := Option.bind_eq_some_iff.1 h
  obtain ⟨description, -, h⟩ := Option.bind_eq_some_iff.1 h
  obtain ⟨default, hdefault, h⟩ := Option.bind_eq_some_iff.1 h
  cases h
  refine read_ofMembers fun fields' hold => ?_
  unfold ofFields?
  rw [hold.defaulted "type" rfl (string_readsBack typeName),
    hold.defaulted "description" rfl (string_readsBack description),
    hold.optional "default" rfl
      (Fields.readsBack_of_optional optionalJson_stable hdefault)]
  rfl

/-- A schema reads back if its table of parameters does. -/
theorem InputSchema.readsBack {s : InputSchema}
    (h : ReadsBack (table? Parameter.ofJson?)
      (ofTable Parameter.toJson) s.properties) :
    ReadsBack ofJson? toJson s := by
  refine read_ofMembers fun fields hold => ?_
  rw [hold.defaulted "properties" rfl h,
    hold.defaulted "required" rfl (strings_readsBack s.required)]
  rfl

/-- Schemas are stable, since parameters are (`Parameter.stable`), and so are
tables of them. -/
theorem InputSchema.stable : Stable ofJson? toJson := by
  intro v s h
  obtain ⟨fields, -, h⟩ := Option.bind_eq_some_iff.1 h
  obtain ⟨properties, hproperties, h⟩ := Option.bind_eq_some_iff.1 h
  obtain ⟨required, -, h⟩ := Option.bind_eq_some_iff.1 h
  cases h
  have hnone : ReadsBack (table? Parameter.ofJson?)
      (ofTable Parameter.toJson) [] := rfl
  exact readsBack (Fields.readsBack_of_defaulted
    (table_stable Parameter.stable) hnone hproperties)

/-- The codes that a task explains if nothing else is said are in order. -/
theorem Identity.ascending_usualExitCodes : usualExitCodes.Ascending := by
  unfold usualExitCodes Table.Ascending
  decide

/-- Identities are stable: their schemas are (`InputSchema.stable`), and so
are the tables that explain result codes; both have a default, which reads
back. -/
theorem Identity.stable : Stable ofJson? toJson := by
  intro v i h
  obtain ⟨fields, -, h⟩ := Option.bind_eq_some_iff.1 h
  obtain ⟨key, -, h⟩ := Option.bind_eq_some_iff.1 h
  obtain ⟨name, -, h⟩ := Option.bind_eq_some_iff.1 h
  obtain ⟨description, -, h⟩ := Option.bind_eq_some_iff.1 h
  obtain ⟨requiredApis, -, h⟩ := Option.bind_eq_some_iff.1 h
  obtain ⟨inputSchema, hschema, h⟩ := Option.bind_eq_some_iff.1 h
  obtain ⟨exitCodes, hcodes, h⟩ := Option.bind_eq_some_iff.1 h
  cases h
  have hempty : ReadsBack InputSchema.ofJson? InputSchema.toJson .empty :=
    InputSchema.readsBack rfl
  have husual : ReadsBack (codeTable? string?) (ofCodeTable .string)
      usualExitCodes :=
    codeTable_readsBack ascending_usualExitCodes fun e _ =>
      string_readsBack e.2
  have hschema := Fields.readsBack_of_defaulted InputSchema.stable
    hempty hschema
  have hcodes :=
    Fields.readsBack_of_defaulted
      (codeTable_stable (stable_of_readsBack string_readsBack)) husual hcodes
  refine read_ofMembers fun fields' hold => ?_
  rw [hold.required "key" rfl (string_readsBack key),
    hold.required "name" rfl (string_readsBack name),
    hold.defaulted "description" rfl (string_readsBack description),
    hold.defaulted "required_apis" rfl (strings_readsBack requiredApis),
    hold.defaulted "input_schema" rfl hschema,
      hold.defaulted "exit_codes" rfl hcodes]
  rfl

/-- Routes read back, with a target or without. -/
theorem Route.readsBack (r : Route) : ReadsBack ofJson? toJson r := by
  show (nullable? string? (Json.optional .string r.next)).bind
    (fun next => (bool? (.bool r.isRetry)).bind fun retry =>
      some ⟨next, retry⟩) = some r
  rw [optionalString_readsBack r.next]
  rfl

/-- Routing tables are stable: two layers of maps around routes, each of which
reads back (`Route.readsBack`). -/
theorem RoutingTable.stable : Stable ofJson? toJson :=
  table_stable (codeTable_stable (stable_of_readsBack Route.readsBack))

-- ================================================= usages and messages

/-- A usage that has been read has a cost that is a number: it was read as
one, or is the default (`binary64_stable`). -/
theorem Usage.isFinite_of_ofJson? {v : Json} {u : Usage}
    (h : ofJson? v = some u) : u.cost.isFinite = true := by
  obtain ⟨fields, -, h⟩ := Option.bind_eq_some_iff.1 h
  obtain ⟨promptTokens, -, h⟩ := Option.bind_eq_some_iff.1 h
  obtain ⟨completionTokens, -, h⟩ := Option.bind_eq_some_iff.1 h
  obtain ⟨totalTokens, -, h⟩ := Option.bind_eq_some_iff.1 h
  obtain ⟨cost, hcost, h⟩ := Option.bind_eq_some_iff.1 h
  cases h
  have hzero : ReadsBack binary64? ofBinary64 Binary64.zero :=
    binary64_readsBack_iff.2 (by decide)
  exact binary64_readsBack_iff.1
    (Fields.readsBack_of_defaulted binary64_stable hzero hcost)

/-- A usage reads back exactly if JSON can write its cost. The counts always
do (`uint64_readsBack`). -/
theorem Usage.readsBack_iff {u : Usage} :
    ReadsBack ofJson? (toJson ofBinary64) u ↔ u.cost.isFinite = true := by
  constructor
  · exact isFinite_of_ofJson?
  · intro h
    refine read_ofMembers fun fields hold => ?_
    rw [hold.required "prompt_tokens" rfl (uint64_readsBack u.promptTokens),
      hold.required "completion_tokens" rfl
        (uint64_readsBack u.completionTokens),
      hold.required "total_tokens" rfl (uint64_readsBack u.totalTokens),
      hold.defaulted "cost" rfl (binary64_readsBack_iff.2 h)]
    rfl

/-- Usages are stable, since the cost of one that has been read is finite
(`isFinite_of_ofJson?`). -/
theorem Usage.stable : Stable ofJson? (toJson ofBinary64) := fun _ _ h =>
  readsBack_iff.2 (isFinite_of_ofJson? h)

/-- An optional usage reads back under the same condition as a usage, as none
is written as null. -/
theorem Usage.optional_readsBack_iff {o : Option Usage} :
    ReadsBack (nullable? ofJson?) (Json.optional (toJson ofBinary64)) o
      ↔ ∀ u ∈ o, u.cost.isFinite = true := by
  refine Json.optional_readsBack_iff.trans (forall₂_congr fun u _ => ?_)
  exact (and_iff_right fun hnull => (nomatch hnull)).trans readsBack_iff

/-- Optional usages are stable, as none is written as null. -/
theorem Usage.optional_stable :
    Stable (nullable? ofJson?) (Json.optional (toJson ofBinary64)) :=
  Json.optional_stable stable fun _ _ _ _ hnull => (nomatch hnull)

/-- A role reads back, each under its own name. -/
theorem Role.readsBack (r : Role) : ReadsBack ofJson? toJson r := by
  cases r
  all_goals rfl

/-- A message that JSON can write: its cost is a number, and its metadata are
not null if there are any. -/
structure Message.Writable (m : Message) : Prop where
  cost : ∀ u ∈ m.usage, u.cost.isFinite = true
  metadata : m.metadata ≠ some .null

/-- A message that has been read is `Writable`. Its usage and its metadata
have been read as optional fields, and no optional field is read as a null
that is there. -/
theorem Message.writable_of_ofJson? {v : Json} {m : Message}
    (h : ofJson? v = some m) : m.Writable := by
  obtain ⟨fields, -, h⟩ := Option.bind_eq_some_iff.1 h
  obtain ⟨role, -, h⟩ := Option.bind_eq_some_iff.1 h
  obtain ⟨content, -, h⟩ := Option.bind_eq_some_iff.1 h
  obtain ⟨producer, -, h⟩ := Option.bind_eq_some_iff.1 h
  obtain ⟨usage, husage, h⟩ := Option.bind_eq_some_iff.1 h
  obtain ⟨metadata, hmetadata, h⟩ := Option.bind_eq_some_iff.1 h
  cases h
  have husage := Fields.readsBack_of_optional Usage.optional_stable husage
  have hmetadata := Fields.readsBack_of_optional optionalJson_stable hmetadata
  refine ⟨Usage.optional_readsBack_iff.1 husage, fun hnull => ?_⟩
  exact (optional_readsBack_iff.1 hmetadata .null hnull).1 rfl

/-- Exactly the messages that JSON can write read back. One direction is
`writable_of_ofJson?`, since what reads back has been read. -/
theorem Message.readsBack_iff {m : Message} :
    ReadsBack ofJson? (toJson ofBinary64) m ↔ m.Writable := by
  constructor
  · exact writable_of_ofJson?
  · intro h
    have hmetadata : ReadsBack (nullable? some)
        (Json.optional id) m.metadata := by
      refine optional_readsBack_iff.2 fun v hv =>
        ⟨fun hnull => h.metadata ?_, rfl⟩
      rw [hv]
      exact congrArg some hnull
    refine read_ofMembers fun fields hold => ?_
    rw [hold.required "role" rfl m.role.readsBack,
      hold.required "content" rfl (string_readsBack m.content),
      hold.optional "generated_by" rfl (optionalString_readsBack m.producer),
      hold.optional "usage" rfl (Usage.optional_readsBack_iff.2 h.cost),
      hold.optional "creation_metadata" rfl hmetadata]
    rfl

/-- Messages are stable: what has been read can be written, and so reads
back. -/
theorem Message.stable : Stable ofJson? (toJson ofBinary64) := fun _ _ h =>
  readsBack_iff.2 (writable_of_ofJson? h)

-- =========================================================== responses

theorem Status.readsBack (s : Status) : ReadsBack ofJson? toJson s := by
  cases s
  all_goals rfl

/-- An instant reads back from its text, by `Instant.parse?_text`. -/
theorem Instant.readsBack (i : Instant) : ReadsBack ofJson? toJson i := by
  unfold ReadsBack ofJson? toJson
  rw [string_readsBack i.text, Option.bind_some, parse?_text]

/-- The name of a record reads back from its text, by
`RecordId.parse?_text`. -/
theorem RecordId.readsBack (id : RecordId) : ReadsBack ofJson? toJson id := by
  unfold ReadsBack ofJson? toJson
  rw [string_readsBack id.text, Option.bind_some, parse?_text]

namespace Response

/-- The members of a response as it is stored. -/
def members (r : Response) : List (String × Json) := [
  ("task_id", .string r.header.taskId),
  ("task_name", .string r.header.taskName),
  ("task_description", .string r.header.taskDescription),
  ("status", r.status.toJson),
  ("result_code", .ofNat r.code.toNat),
  ("task_outputs", Json.optional
    (fun ms => .array (ms.map (Message.toJson ofBinary64))) r.outputs),
  ("task_inputs", .object r.inputs),
  ("result_diagnostic", Json.optional .string r.diagnostic),
  ("usage_metrics", Json.optional (Usage.toJson ofBinary64) r.usage),
  ("execution_history", Json.optional
    (fun rs => .array (rs.map (toJson .stored))) r.history),
  ("created_at", r.createdAt.toJson)]

/-- `historyToJson` writes a history entry by entry. -/
theorem historyToJson_eq {form : RecordForm} (history : List Response) :
    historyToJson form history = history.map (toJson form) := by
  induction history with
  | nil => rfl
  | cons r rest ih => rw [historyToJson, ih, List.map_cons]

/-- A response as it is stored is an object with its members. The writer
matches on the whole response, which hides that from `simp`. -/
theorem toJson_stored (r : Response) :
    r.toJson .stored = .ofMembers r.members := by
  obtain ⟨header, status, code, outputs, inputs, diagnostic, usage, history,
      createdAt⟩ := r
  cases history with
  | none => rfl
  | some responses =>
    unfold toJson
    dsimp only
    rw [historyToJson_eq]
    rfl

/-- The history of a response is one of its fields, and is read as a list.
`ofJson?` looks into the field itself, so that its recursion can be seen to
end; the cases are what it may find there. -/
theorem ofJson?_eq (v : Json) :
    ofJson? v = (v.fields? fieldNames).bind fun fields =>
      (fields.optional "execution_history" (list? ofJson?)).bind
        (ofFields? fields) := by
  rw [ofJson?]
  split
  next hfields => rw [hfields, Option.bind_none]
  next fields hfields =>
    rw [hfields, Option.bind_some]
    unfold Fields.optional Fields.defaulted
    split
    next items hget =>
      rw [hget]
      have hitems : (items.attach.mapM fun item => ofJson? item.1)
          = items.mapM ofJson? := by
        rw [List.mapM_subtype fun _ _ => rfl, List.unattach_attach]
      show (items.attach.mapM fun item => ofJson? item.1).bind (fun history =>
        ofFields? fields (some history))
          = ((items.mapM ofJson?).map some).bind (ofFields? fields)
      rw [hitems, Option.bind_map]
      rfl
    next hget =>
      rw [hget]
      rfl
    next hget =>
      rw [hget]
      rfl
    next w harray hnull hget =>
      rw [hget]
      show none = (nullable? (list? ofJson?) w).bind (ofFields? fields)
      cases w with
      | null => exact absurd rfl hnull
      | array items => exact absurd rfl (harray items)
      | bool b => rfl
      | int n => rfl
      | float x => rfl
      | string s => rfl
      | object members => rfl

/-- A response that JSON can write, its history left out: all costs are
numbers, and no metadata are null. -/
structure Writable (r : Response) : Prop where
  outputs : ∀ messages ∈ r.outputs, ∀ m ∈ messages, m.Writable
  cost : ∀ u ∈ r.usage, u.cost.isFinite = true

/-- What has been read from JSON is `Writable`. By induction on the response:
its messages and its usage are fields that have been read, and so is each
entry of its history. -/
theorem writable_of_ofJson? {r : Response} :
    ∀ {v : Json}, ofJson? v = some r → ∀ node ∈ r.nodes, node.Writable := by
  induction r using Response.induction with
  | h r ih =>
    intro v h
    rw [ofJson?_eq] at h
    obtain ⟨fields, -, h⟩ := Option.bind_eq_some_iff.1 h
    obtain ⟨history, hhistory, h⟩ := Option.bind_eq_some_iff.1 h
    obtain ⟨taskId, -, h⟩ := Option.bind_eq_some_iff.1 h
    obtain ⟨taskName, -, h⟩ := Option.bind_eq_some_iff.1 h
    obtain ⟨taskDescription, -, h⟩ := Option.bind_eq_some_iff.1 h
    obtain ⟨status, -, h⟩ := Option.bind_eq_some_iff.1 h
    obtain ⟨code, -, h⟩ := Option.bind_eq_some_iff.1 h
    obtain ⟨outputs, houtputs, h⟩ := Option.bind_eq_some_iff.1 h
    obtain ⟨inputs, -, h⟩ := Option.bind_eq_some_iff.1 h
    obtain ⟨diagnostic, -, h⟩ := Option.bind_eq_some_iff.1 h
    obtain ⟨usage, husage, h⟩ := Option.bind_eq_some_iff.1 h
    obtain ⟨createdAt, -, h⟩ := Option.bind_eq_some_iff.1 h
    cases h
    refine forall_mem_nodes_iff.2 ⟨⟨?_, ?_⟩, ?_⟩
    · intro messages hmessages m hm
      obtain ⟨v, hread⟩ := Fields.exists_of_optional houtputs hmessages
      obtain ⟨item, hitem⟩ := exists_of_list? hread hm
      exact Message.writable_of_ofJson? hitem
    · exact Usage.optional_readsBack_iff.1
        (Fields.readsBack_of_optional Usage.optional_stable husage)
    · intro entries hentries entry hentry
      obtain ⟨v, hread⟩ := Fields.exists_of_optional hhistory hentries
      obtain ⟨item, hitem⟩ := exists_of_list? hread hentry
      exact ih entries hentries entry hentry hitem

/-- The fields of a `Writable` response read back, whatever becomes of its
history. -/
theorem ofFields?_members {r : Response} (h : r.Writable) {fields : Fields}
    (hold : fields.Hold r.members) : ofFields? fields r.history = some r := by
  have houtputs : ReadsBack (nullable? (list? Message.ofJson?))
      (Json.optional fun ms => .array (ms.map (Message.toJson ofBinary64)))
      r.outputs := by
    refine optional_readsBack_iff.2 fun messages hmessages =>
      ⟨fun hnull => (nomatch hnull), ?_⟩
    exact list_readsBack_iff.2 fun m hm =>
      Message.readsBack_iff.2 (h.outputs messages hmessages m hm)
  unfold ofFields?
  rw [hold.required "task_id" rfl (string_readsBack r.header.taskId),
    hold.required "task_name" rfl (string_readsBack r.header.taskName),
    hold.required "task_description" rfl
      (string_readsBack r.header.taskDescription),
    hold.required "status" rfl r.status.readsBack,
    hold.required "result_code" rfl (uint32_readsBack r.code),
    hold.optional "task_outputs" rfl houtputs,
    hold.required "task_inputs" rfl (inputs_readsBack r.inputs),
    hold.optional "result_diagnostic" rfl
      (optionalString_readsBack r.diagnostic),
    hold.optional "usage_metrics" rfl (Usage.optional_readsBack_iff.2 h.cost),
    hold.required "created_at" rfl r.createdAt.readsBack]
  cases r
  rfl

/-- A response that can be written reads back, with all of its history. By
induction on the response: the history reads back as a list of responses that
do, and the other fields by `ofFields?_members`. -/
theorem readsBack_of_writable {r : Response} :
    (∀ node ∈ r.nodes, node.Writable) → ReadsBack ofJson?
      (toJson .stored) r := by
  induction r using Response.induction with
  | h r ih =>
    intro h
    obtain ⟨hself, hinside⟩ := forall_mem_nodes_iff.1 h
    have hhistory : ReadsBack (nullable? (list? ofJson?))
        (Json.optional fun rs => .array (rs.map (toJson .stored)))
        r.history := by
      refine optional_readsBack_iff.2 fun entries hentries =>
        ⟨fun hnull => (nomatch hnull), ?_⟩
      exact list_readsBack_iff.2 fun entry hentry =>
        ih entries hentries entry hentry
          (hinside entries hentries entry hentry)
    unfold ReadsBack
    rw [toJson_stored, ofJson?_eq]
    refine read_ofMembers fun fields hold => ?_
    rw [hold.optional "execution_history" rfl hhistory, Option.bind_some]
    exact ofFields?_members hself hold

/-- Exactly the responses read back all of whose nodes are `Writable`:
`readsBack_of_writable`, and for the converse `writable_of_ofJson?`. -/
theorem readsBack_iff {r : Response} :
    ReadsBack ofJson? (toJson .stored) r ↔ ∀ node ∈ r.nodes, node.Writable :=
  ⟨writable_of_ofJson?, readsBack_of_writable⟩

/-- Responses are stable: what has been read can be written, and so reads
back. -/
theorem stable : Stable ofJson? (toJson .stored) := fun _ _ h =>
  readsBack_of_writable (writable_of_ofJson? h)

end Response

namespace StoredResponse

/-- The response of a stored one that has been read can be written. -/
theorem writable_of_ofJson? {v : Json} {r : StoredResponse}
    (h : ofJson? v = some r) : ∀ node ∈ r.response.nodes, node.Writable := by
  obtain ⟨fields, -, h⟩ := Option.bind_eq_some_iff.1 h
  obtain ⟨id, -, h⟩ := Option.bind_eq_some_iff.1 h
  obtain ⟨storedAt, -, h⟩ := Option.bind_eq_some_iff.1 h
  obtain ⟨persisted, -, h⟩ := Option.bind_eq_some_iff.1 h
  obtain ⟨response, hresponse, h⟩ := Option.bind_eq_some_iff.1 h
  cases h
  obtain ⟨w, -, hread⟩ := Option.bind_eq_some_iff.1 hresponse
  exact Response.writable_of_ofJson? hread

/-- Exactly the stored responses read back that JSON can write: a record adds
nothing that could not be written. -/
theorem readsBack_iff {r : StoredResponse} :
    ReadsBack ofJson? (toJson .stored) r
      ↔ ∀ node ∈ r.response.nodes, node.Writable := by
  constructor
  · exact writable_of_ofJson?
  · intro h
    refine read_ofMembers fun fields hold => ?_
    rw [hold.required "id" rfl r.id.readsBack,
      hold.required "stored_at" rfl r.storedAt.readsBack,
      hold.required "persisted" rfl (bool_readsBack r.persisted),
      hold.required "response" rfl (Response.readsBack_of_writable h)]
    rfl

/-- Stored responses are stable, as the responses in them are. -/
theorem stable : Stable ofJson? (toJson .stored) := fun _ _ h =>
  readsBack_iff.2 (writable_of_ofJson? h)

end StoredResponse

end TaskRouting
