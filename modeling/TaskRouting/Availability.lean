import TaskRouting.Execution.Basic
/-!
Which APIs a task depends on, and whether they can be used.

The survey goes through the whole tree of a task: the sub-tasks of workflows,
the tools of prompts and checks whose agents may call them, and the tasks that
the lookup finds under the names to which a workflow routes without owning
them. Each workflow key is gone into once, so references in a circle do no
harm. Then each API is asked for its health once, in ascending order of names.
-/

namespace TaskRouting

/-- The health of one API in a report. -/
structure ApiFinding where
  api : String
  status : ApiStatus
  message : String
  deriving DecidableEq

namespace ApiFinding

/-- Writes a finding. -/
def toJson (f : ApiFinding) : Json :=
  .ofMembers [
    ("api", .string f.api),
    ("status", f.status.toJson),
    ("message", .string f.message)]

/-- Reads a finding. -/
def ofJson? (v : Json) : Option ApiFinding := do
  let fields ← v.fields? ["api", "status", "message"]
  return {
    api := ← fields.required "api" Json.string?
    status := ← fields.required "status" ApiStatus.ofJson?
    message := ← fields.required "message" Json.string? }

end ApiFinding

/-- The health of all APIs that a task depends on. -/
structure AvailabilityReport where
  status : ApiStatus
  findings : List ApiFinding
  deriving DecidableEq

namespace AvailabilityReport

/-- The report is as bad as its worst finding. -/
def ofFindings (findings : List ApiFinding) : AvailabilityReport :=
  { status := findings.foldl (fun worst f => worst.worse f.status) .ok
    findings }

/-- The findings that warn. -/
def warnings (r : AvailabilityReport) : List ApiFinding :=
  r.findings.filter (·.status = .warning)

/-- The findings of APIs that cannot be used. -/
def errors (r : AvailabilityReport) : List ApiFinding :=
  r.findings.filter (·.status = .error)

/-- Whether all is well. -/
def isOk (r : AvailabilityReport) : Bool := r.status = .ok

/-- Writes a report. -/
def toJson (r : AvailabilityReport) : Json :=
  .ofMembers [
    ("status", r.status.toJson),
    ("messages", .array (r.findings.map ApiFinding.toJson))]

/-- Reads a report. Its status is read as it stands, and not worked out
again. -/
def ofJson? (v : Json) : Option AvailabilityReport := do
  let fields ← v.fields? ["status", "messages"]
  return {
    status := ← fields.required "status" ApiStatus.ofJson?
    findings := ← fields.required "messages" (Json.list? ApiFinding.ofJson?) }

end AvailabilityReport

/-- A survey under way. -/
structure Survey where
  /-- The APIs met so far. Each stands here once, however often it is met: the
  tree of a task may be far larger than the number of its tasks. -/
  apis : Table String Unit
  /-- The keys of the workflows gone into. -/
  visited : List String

namespace Survey

/-- Nothing met yet. -/
def empty : Survey := ⟨[], []⟩

/-- Meets some APIs. -/
def meet (s : Survey) (apis : List String) : Survey :=
  { s with apis := apis.foldl (fun met api => met.insert api ()) s.apis }

variable {σ : Type} (c : Collaborators σ)

/-- Goes on at each of some tasks in turn. -/
def each (visit : Task → Survey → Execution σ Survey) (tasks : List Task)
    (s : Survey) : Execution σ Survey :=
  tasks.foldlM (fun s task => visit task s) s

/-- Goes on at the task that a name stands for, if the lookup finds one. -/
def target (visit : Task → Survey → Execution σ Survey) (s : Survey)
    (name : String) :
    Execution σ Survey := do
  match ← c.lookUp name with
  | .ok (some task) => visit task s
  | _ => return s

/-- Goes through a task and all that belongs to it. The bound is on how deep
that is. -/
def visit : Nat → Task → Survey → Execution σ Survey
  | 0, _, _ => Execution.stop .exhausted
  | n + 1, task, s => do
    let s := s.meet task.identity.requiredApis
    match task with
    | .prompt p => each (visit n) p.callable s
    | .check k => each (visit n) k.prompt.callable s
    | .workflow w =>
      -- The key is noted before the sub-tasks are gone into, which is what
      -- ends the survey where they lead back here.
      if s.visited.contains w.key then return s
      let s ← each (visit n) (Table.values w.tasks)
          { s with visited := w.key :: s.visited }
      w.externalReferences.foldlM (target c (visit n)) s

end Survey

/-- The health of every API that a task depends on. -/
def checkAvailability {σ : Type} (c : Collaborators σ) (bound : Nat)
    (task : Task) :
    Execution σ AvailabilityReport := do
  let survey ← Survey.visit c bound task .empty
  let findings ← survey.apis.keys.mapM fun api => do
    let health ← c.askHealth api
    return ⟨api, health.status, health.message⟩
  return .ofFindings findings

end TaskRouting
