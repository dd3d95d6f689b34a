import TaskRouting.Catalog.Containment
import TaskRouting.Catalog.Document
import TaskRouting.Task.Describe
/-!
Catalogs: the tasks that a document describes.

Entries are built in the order of containment, so that the tasks an entry
names are there when it is built. The document is checked first as a whole
(keys that occur twice, names of tasks that do not exist, tasks inside
themselves), then entry by entry; the first thing that does not hold decides
the error.
-/

namespace TaskRouting

/-- Tasks by their keys. -/
abbrev Catalog := List (String × Task)

namespace Catalog

/-- Adds a task under its own key, in place of the one that had it. -/
def add (c : Catalog) (t : Task) : Catalog := Table.insert c t.key t

/-- The task with a key. -/
def task? (c : Catalog) (key : String) : Option Task := Table.get? c key

/-- The line of text that shows a catalog. -/
def line (c : Catalog) : String :=
  recordLine "TaskCatalog" [("tasks", Text.quotedList (Table.keys c))]

namespace Entry

/-- A field is missing that the kind of the entry requires. -/
def missing {α : Type} (e : Entry) (field : String) : Except CatalogError α :=
  .error (.missingField e.key field)

/-- The definition of one input. -/
def parameter (e : Entry) (shared : Table String Parameter) :
    Property → Except CatalogError Parameter
  | .own definition => .ok definition
  | .shared key =>
    match shared.get? key with
    | some definition => .ok definition
    | none => .error (.unknownParameter e.key key)

/-- The inputs that the entry declares. -/
def schema (e : Entry) (shared : Table String Parameter) :
    Except CatalogError InputSchema :=
  match e.inputVariables with
  | none => .ok .empty
  | some declared => do
    let properties ← declared.properties.mapM fun (name, property) => do
      return (name, ← e.parameter shared property)
    return { properties, required := declared.required }

/-- The part of the task that does not depend on its kind. -/
def identity (e : Entry) (shared : Table String Parameter) :
    Except CatalogError Identity := do
  return {
    key := e.key
    name := e.name
    description := e.description
    requiredApis := e.requiredApis
    inputSchema := ← e.schema shared
    exitCodes := Table.override Identity.usualExitCodes e.exitCodes }

/-- The tasks that the entry names, under their local names. -/
def contained (e : Entry) (built : Catalog) :
    Except CatalogError (List (String × Task)) :=
  e.tasks.mapM fun (name, key) =>
    match built.task? key with
    | some task => .ok (name, task)
    | none => .error (.unknownTask e.key key)

/-- The agent whose key the entry gives. -/
def bindAgent (e : Entry) (agents : String → Option Agent) :
    Except CatalogError Agent :=
  match e.agent with
  | none => e.missing "agent"
  | some key =>
    match agents key with
    | some agent => .ok agent
    | none => .error (.unknownAgent e.key key)

/-- The prompt of an entry; also that of a check, which asks in the same
way. -/
def buildPrompt (e : Entry) (identity : Identity)
    (agents : String → Option Agent) (built : Catalog) :
    Except CatalogError (Prompt Task) := do
  return {
    identity
    -- The agent comes before the tools, which decides between two errors.
    agent := ← e.bindAgent agents
    capabilities := e.capabilities
    tools := ← e.contained built }

/-- The workflow of an entry, built from a draft that says what the entry
says. -/
def buildWorkflow (e : Entry) (identity : Identity) (built : Catalog) :
    Except CatalogError (Workflow Task) := do
  match e.start with
  | none => e.missing "start_task"
  | some start =>
    let draft : Workflow.Draft Task := {
      identity
      tasks := ← e.contained built
      start := some start
      routing := e.routing
      maxAttempts := e.maxAttempts
      recursive := e.recursive }
    draft.build.mapError .invalidWorkflow

/-- The task of an entry, given the tasks that it may name. -/
def build (e : Entry) (shared : Table String Parameter)
    (agents : String → Option Agent) (built : Catalog) :
    Except CatalogError Task := do
  let identity ← e.identity shared
  match e.kind with
  | .prompt => return .prompt (← e.buildPrompt identity agents built)
  | .check =>
    -- A check without labels counts as one that does not give any.
    if e.labels.isEmpty then e.missing "exit_code_response_map"
    else return .check {
      prompt := ← e.buildPrompt identity agents built
      labels := e.labels
      defaultCode := failureCode }
  | .workflow => return .workflow (← e.buildWorkflow identity built)

end Entry

namespace Document

/-- The shared parameters; of two with one key the later one counts. -/
def shared (d : Document) : Table String Parameter :=
  Table.ofList (d.parameters.map fun p => (p.key, p.definition))

/-- The keys of the entries, in their order. -/
def keys (d : Document) : List String := d.entries.map (·.key)

/-- The first entry with a key. -/
def entry? (d : Document) (key : String) : Option Entry :=
  d.entries.find? (·.key = key)

/-- The first key of a list that has occurred before. -/
def firstRepeated? : List String → List String → Option String
  | _, [] => none
  | seen, k :: rest =>
    if k ∈ seen then some k else firstRepeated? (k :: seen) rest

/-- The first name of a task that no entry has, with the key of the entry that
names it. -/
def firstUnknown? (d : Document) : Option (String × String) :=
  let known := d.keys
  d.entries.findSome? fun e =>
    (e.tasks.values.find? (!known.contains ·)).map fun key => (e.key, key)

/-- Which entries contain which. -/
def containment (d : Document) : Containment :=
  ⟨d.entries.map fun e => (e.key, e.tasks.values)⟩

/-- The keys of all entries, those of contained tasks before those of their
owners. -/
def order (d : Document) : Except CatalogError (List String) :=
  match firstRepeated? [] d.keys with
  | some key => .error (.duplicateKey key)
  | none =>
    match d.firstUnknown? with
    | some (owner, key) => .error (.unknownTask owner key)
    | none => d.containment.order.mapError .containmentCycle

/-- The catalog that a document describes, its agents bound by their keys. -/
def build (d : Document) (agents : String → Option Agent) :
    Except CatalogError Catalog := do
  let entries := (← d.order).filterMap d.entry?
  entries.foldlM (fun (built : Catalog) e => do
    return built.add (← e.build d.shared agents built)) []

end Document

end Catalog

end TaskRouting
