import TaskRouting.Task.Basic
import TaskRouting.Task.Verdict
/-!
Tasks shown to people: as JSON with everything that was declared, and as a
line of text that names the main parts.
-/

namespace TaskRouting

/-- The keys of some named tasks. -/
def keysOf (tasks : List (String × Task)) : Json :=
  .ofTable (fun (t : Task) => .string t.key) tasks

/-- What a prompt declares besides its identity. -/
def Prompt.description (p : Prompt Task) : List (String × Json) := [
  ("has_functions", .bool p.capabilities.hasFunctions),
  ("agent", .string p.agent.name),
  ("tools", keysOf p.tools),
  ("callable", .strings (p.callable.map Task.key))]

/-- What a workflow declares besides its identity. -/
def Workflow.description (w : Workflow Task) : Json :=
  .ofMembers [
    ("tasks", keysOf w.tasks),
    ("start_task", .string w.start),
    ("routing", w.routing.toJson),
    ("max_attempts", .ofNat w.maxAttempts.toNat),
    ("recursive", .bool w.recursive),
    ("external", .strings w.externalReferences)]

/-- All that a task declares. -/
def Task.description (t : Task) : Json :=
  let shared : List (String × Json) := [
    ("key", .string t.key),
    ("name", .string t.name),
    ("kind", .string t.kind),
    ("identity", t.identity.toJson)]
  .ofMembers (shared ++
    match t with
    | .prompt p => p.description
    | .check k => [("map", .ofTable (fun code => .ofNat code.toNat) k.labels)]
    | .workflow w => [("workflow", w.description)])

-- ======================================================= lines of text

/-- A name in front of named parts in braces. -/
def recordLine (name : String) (parts : List (String × String)) : String :=
  name ++ Text.enclosed " \x7b " " \x7d"
    (parts.map fun p => p.1 ++ ": " ++ p.2)

/-- The line of capabilities. -/
def Capabilities.line (c : Capabilities) : String :=
  recordLine "Capabilities" [("has_functions", toString c.hasFunctions)]

/-- The line of a prompt, with the names of its tools only. -/
def Prompt.line (p : Prompt Task) : String :=
  recordLine "PromptAgentTask" [
    ("key", Text.quoted p.identity.key),
    ("agent", Text.quoted p.agent.name),
    ("capabilities", p.capabilities.line),
    ("tools", Text.quotedList (Table.keys p.tools))]

/-- Labels with their codes, in braces. -/
def Labels.line (labels : Labels) : String :=
  Text.enclosed "\x7b" "\x7d"
    (labels.map fun e => Text.quoted e.1 ++ ": " ++ toString e.2.toNat)

/-- The line of a check, its prompt's line in it. -/
def Check.line (k : Check Task) : String :=
  recordLine "CheckTask" [
    ("prompt", k.prompt.line),
    ("exit_code_response_map", Labels.line k.labels),
    ("default_code", toString k.defaultCode.toNat)]

/-- The line of a workflow, with the names of its sub-tasks only. -/
def Workflow.line (w : Workflow Task) : String :=
  recordLine "Workflow" [
    ("key", Text.quoted w.key),
    ("tasks", Text.quotedList (Table.keys w.tasks)),
    ("start_task", Text.quoted w.start),
    ("max_attempts", toString w.maxAttempts.toNat),
    ("recursive", toString w.recursive)]

/-- The line of what a task is. -/
def Task.line : Task → String
  | prompt p => p.line
  | check k => k.line
  | workflow w => w.line

/-- The line of a task as a whole. -/
def Task.title (t : Task) : String :=
  recordLine "Task" [("kind", Text.quoted t.kind), ("key", Text.quoted t.key)]

end TaskRouting
