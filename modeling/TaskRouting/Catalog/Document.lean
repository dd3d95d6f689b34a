import TaskRouting.Catalog.Source
import TaskRouting.Task.Basic
import TaskRouting.Workflow.Draft
/-!
Catalog documents: tasks as they are written down, before they are built.

A document declares parameters that inputs may share, and lists entries. An
entry names its agent, its sub-tasks and tools by keys; which of its fields
apply depends on its kind. `Document.read` reads a document from any notation,
and fills in what it leaves out.
-/

namespace TaskRouting.Catalog

/-- A parameter that inputs refer to by its key. -/
structure SharedParameter where
  key : String
  definition : Parameter

/-- The declaration of one input of an entry. -/
inductive Property where
  /-- As the shared parameter with a key. -/
  | shared (key : String)
  /-- By a definition of its own. -/
  | own (definition : Parameter)

/-- The inputs of an entry. -/
structure InputVariables where
  properties : Table String Property
  required : List String

/-- What an entry is to become. -/
inductive EntryKind where
  | prompt
  | check
  | workflow
  deriving DecidableEq

/-- One task as it is written down. -/
structure Entry where
  key : String
  kind : EntryKind
  name : String
  description : String
  /-- The key of the agent of a prompt or check. -/
  agent : Option String
  requiredApis : List String
  inputVariables : Option InputVariables
  /-- Meanings of result codes, besides the usual ones or in their place. -/
  exitCodes : Table UInt32 String
  /-- The result codes of the answers that a check expects. -/
  labels : Table String UInt32
  capabilities : Capabilities
  /-- The sub-tasks of a workflow or the tools of a prompt or check: a key for
  each local name. -/
  tasks : Table String String
  /-- The name at which a workflow starts. -/
  start : Option String
  routing : RoutingTable
  maxAttempts : UInt32
  recursive : Bool

/-- Parameters that inputs may share, and entries. -/
structure Document where
  parameters : List SharedParameter
  entries : List Entry

-- ============================================================= writing

/-- Writes a shared parameter: its key beside the fields of its definition. -/
def SharedParameter.toJson (p : SharedParameter) : Json :=
  .ofMembers [
    ("key", .string p.key),
    ("type", .string p.definition.typeName),
    ("description", .string p.definition.description),
    ("default", Json.optional id p.definition.default)]

/-- Writes the declaration of an input. A shared parameter is written as its
key. -/
def Property.toJson : Property → Json
  | shared key => .string key
  | own definition => definition.toJson

/-- Writes the inputs of an entry. -/
def InputVariables.toJson (v : InputVariables) : Json :=
  .ofMembers [
    ("properties", .ofTable Property.toJson v.properties),
    ("required", .strings v.required)]

/-- The name under which a kind is written. -/
def EntryKind.name : EntryKind → String
  | prompt => "PromptAgentTask"
  | check => "CheckTask"
  | workflow => "Workflow"

/-- Writes an entry, with all of its fields. -/
def Entry.toJson (e : Entry) : Json :=
  .ofMembers [
    ("key", .string e.key),
    ("task_type", .string e.kind.name),
    ("task_name", .string e.name),
    ("task_description", .string e.description),
    ("agent", Json.optional .string e.agent),
    ("required_apis", .strings e.requiredApis),
    ("input_variables", Json.optional InputVariables.toJson e.inputVariables),
    ("exit_codes", .ofCodeTable .string e.exitCodes),
    ("exit_code_response_map",
      .ofTable (fun code => .ofNat code.toNat) e.labels),
    ("capabilities", e.capabilities.toJson),
    ("tasks", .ofTable .string e.tasks),
    ("start_task", Json.optional .string e.start),
    ("tasks_end_code_routing", e.routing.toJson),
    ("max_attempts", .ofNat e.maxAttempts.toNat),
    ("recursive", .bool e.recursive)]

/-- Writes a document. -/
def Document.toJson (d : Document) : Json :=
  .ofMembers [
    ("parameters", .array (d.parameters.map SharedParameter.toJson)),
    ("tasks", .array (d.entries.map Entry.toJson))]

-- ============================================================= reading

section Reading

open Source

variable {ν : Type} {m : Type → Type} [Monad m] [MonadLiftT Option m]
  [Source ν m]

/-- How deep lists and maps may be nested in a field of a shared parameter. -/
def parameterDepth : Nat := 125

/-- How deep lists and maps may be nested in the declaration of an input. -/
def propertyDepth : Nat := 123

/-- A parameter is a map. Its key is a text; what else it holds must be values
of some kind, of which the fields of a definition are taken. -/
def SharedParameter.read (v : ν) : m SharedParameter := do
  let members ← Source.members v
  let key ← required members "key" text
  let rest ← (members.filter (·.1 != "key")).mapM fun (k, w) => do
    return (k, ← content parameterDepth w)
  return { key, definition := ← liftM (Parameter.ofContentFields? rest) }

/-- A text refers to a shared parameter; anything else must be a
definition. -/
def Property.ofContent? : Content → Option Property
  | .text key => some (shared key)
  | c => (Parameter.ofContent? c).map own

/-- Reads the declaration of an input. -/
def Property.read (v : ν) : m Property := do
  liftM (Property.ofContent? (← content propertyDepth v))

/-- Reads the inputs of an entry; both fields may be missing. -/
def InputVariables.read (v : ν) : m InputVariables := do
  let given ← fields ["properties", "required"] v
  return {
    properties := ← defaulted given "properties" [] (table Property.read)
    required := ← defaulted given "required" [] (list text) }

/-- Reads a kind from its name. -/
def EntryKind.read : ν → m EntryKind :=
  alternative ([EntryKind.prompt, .check, .workflow].map fun k => (k.name, k))

/-- Reads what an agent may do; nothing, if it is not said. -/
def readCapabilities (v : ν) : m Capabilities := do
  let given ← fields ["has_functions"] v
  return { hasFunctions := ← defaulted given "has_functions" false flag }

/-- Reads a route: where it leads, and whether it retries. -/
def readRoute (v : ν) : m Route := do
  let (next, retry) ← pair v
  return { next := ← optional text next, isRetry := ← flag retry }

/-- The names of the fields of an entry, in order. -/
def Entry.fieldNames : List String := [
  "key", "task_type", "task_name", "task_description", "agent",
  "required_apis", "input_variables", "exit_codes",
  "exit_code_response_map", "capabilities", "tasks", "start_task",
  "tasks_end_code_routing", "max_attempts", "recursive"]

/-- Reads an entry. A key, a kind and a name are required; each other field
has a default. -/
def Entry.read (v : ν) : m Entry := do
  let given ← fields Entry.fieldNames v
  return {
    key := ← required given "key" text
    kind := ← required given "task_type" EntryKind.read
    name := ← required given "task_name" text
    description := ← defaulted given "task_description" "" text
    agent := ← optionalField given "agent" text
    requiredApis := ← defaulted given "required_apis" [] (list text)
    inputVariables := ← optionalField given "input_variables"
      InputVariables.read
    exitCodes := ← defaulted given "exit_codes" [] (codeTable text)
    labels := ← defaulted given "exit_code_response_map" [] (table word)
    capabilities := ← defaulted given "capabilities" .none readCapabilities
    tasks := ← defaulted given "tasks" [] (table text)
    start := ← optionalField given "start_task" text
    routing := ← defaulted given "tasks_end_code_routing" []
      (table (codeTable readRoute))
    maxAttempts := ← defaulted given "max_attempts" usualMaxAttempts word
    recursive := ← defaulted given "recursive" false flag }

/-- Reads a document, which may declare no parameters but must list its
entries. -/
def Document.read (v : ν) : m Document := do
  let given ← fields ["parameters", "tasks"] v
  return {
    parameters := ← defaulted given "parameters" []
      (list SharedParameter.read)
    entries := ← required given "tasks" (list Entry.read) }

end Reading

/-- The document that a JSON value describes. -/
def Document.ofJson? (v : Json) : Option Document := Document.read v

end TaskRouting.Catalog
