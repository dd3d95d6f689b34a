import TaskRouting.Response.Basic
/-!
Responses as JSON records.

A response is written with all of its fields, those of its history nested in
it. How costs are written and whether instants are written at all is up to the
reader of the record, so both belong to a `RecordForm`; `RecordForm.stored` is
the form that can be read back.
-/

namespace TaskRouting

/-- How responses are written. -/
structure RecordForm where
  cost : Binary64 → Json
  /-- Whether the instant of the response is written. -/
  instants : Bool

/-- The form that stores keep: costs are numbers, instants are written. -/
def RecordForm.stored : RecordForm := ⟨Json.ofBinary64, true⟩

namespace Response

mutual

/-- The record of a response. The fields of a response are matched at once, so
that the recursion into its history is structural. -/
def toJson (form : RecordForm) : Response → Json
  | ⟨header, status, code, outputs, inputs, diagnostic, usage, history,
    createdAt⟩ =>
    let past := match history with
      | none => .null
      | some responses => .array (historyToJson form responses)
    let fields := [
      ("task_id", .string header.taskId),
      ("task_name", .string header.taskName),
      ("task_description", .string header.taskDescription),
      ("status", status.toJson),
      ("result_code", .ofNat code.toNat),
      ("task_outputs", Json.optional
        (fun ms => .array (ms.map (Message.toJson form.cost))) outputs),
      ("task_inputs", .object inputs),
      ("result_diagnostic", Json.optional .string diagnostic),
      ("usage_metrics", Json.optional (Usage.toJson form.cost) usage),
      ("execution_history", past)]
    .ofMembers (if form.instants
      then fields ++ [("created_at", createdAt.toJson)] else fields)

/-- The records of a history, in order. -/
def historyToJson (form : RecordForm) : List Response → List Json
  | [] => []
  | r :: rest => toJson form r :: historyToJson form rest

end

/-- The names of the fields of a record, in order. -/
def fieldNames : List String := [
  "task_id", "task_name", "task_description", "status", "result_code",
  "task_outputs", "task_inputs", "result_diagnostic", "usage_metrics",
  "execution_history", "created_at"]

/-- What is looked at in a record, with histories nested so deep. -/
def outline : Nat → Json.Outline
  | 0 => .whole
  | depth + 1 =>
    .record fieldNames [
      ("status", .choice),
      ("task_outputs", .items Message.outline),
      ("usage_metrics", Usage.outline),
      ("execution_history", .items (outline depth))]

/-- All fields of a record but the history. -/
def ofFields? (fields : Json.Fields) (history : Option (List Response)) :
    Option Response := do
  return {
    header := {
      taskId := ← fields.required "task_id" Json.string?
      taskName := ← fields.required "task_name" Json.string?
      taskDescription := ← fields.required "task_description" Json.string? }
    status := ← fields.required "status" Status.ofJson?
    code := ← fields.required "result_code" Json.uint32?
    outputs := ← fields.optional "task_outputs" (Json.list? Message.ofJson?)
    inputs := ← fields.required "task_inputs" Json.inputs?
    diagnostic := ← fields.optional "result_diagnostic" Json.string?
    usage := ← fields.optional "usage_metrics" Usage.ofJson?
    history := history
    createdAt := ← fields.required "created_at" Instant.ofJson? }

/-- Reads a response with its history. The recursion ends because the items of
a history lie inside the value that is read. -/
def ofJson? (v : Json) : Option Response :=
  match _hf : v.fields? fieldNames with
  | none => none
  | some fields =>
    -- The history is read here and not as one more field of `ofFields?`, so
    -- that its items are known to be smaller than `v`.
    match _hh : Table.get? fields "execution_history" with
    | some (.array items) => do
      let responses ← items.attach.mapM fun ⟨item, _⟩ => ofJson? item
      ofFields? fields (some responses)
    | none => ofFields? fields none
    | some .null => ofFields? fields none
    | some _ => none
termination_by sizeOf v
decreasing_by
  have h₁ := Json.sizeOf_lt_of_fields? _hf (Table.mem_of_get? _hh)
  have h₂ := List.sizeOf_lt_of_mem ‹item ∈ items›
  simp only [Json.array.sizeOf_spec] at h₁
  omega

end Response

namespace StoredResponse

/-- The record of a stored response, with the response's own record in it. -/
def toJson (form : RecordForm) (r : StoredResponse) : Json :=
  .ofMembers [
    ("id", r.id.toJson),
    ("stored_at", r.storedAt.toJson),
    ("persisted", .bool r.persisted),
    ("response", r.response.toJson form)]

/-- The names of the fields of a stored record, in order. -/
def fieldNames : List String := ["id", "stored_at", "persisted", "response"]

/-- What is looked at in a stored record. Each history takes two brackets, so
none that can be read is nested deeper than the limit. -/
def outline : Json.Outline :=
  .record fieldNames [("response", Response.outline Json.nestingLimit)]

/-- Reads a stored response. -/
def ofJson? (v : Json) : Option StoredResponse := do
  let fields ← v.fields? fieldNames
  return {
    id := ← fields.required "id" RecordId.ofJson?
    storedAt := ← fields.required "stored_at" Instant.ofJson?
    persisted := ← fields.required "persisted" Json.bool?
    response := ← fields.required "response" Response.ofJson? }

end StoredResponse

end TaskRouting
