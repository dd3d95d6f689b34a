import TaskRouting.Json.Fields
/-!
Where a workflow goes after a sub-task.

A routing table gives a route for each name and result code. A route leads to
another name or ends the workflow, and may count as a retry.
-/

namespace TaskRouting

/-- The step taken after a sub-task has ended with a certain code. -/
structure Route where
  /-- The name that runs next; none ends the workflow. -/
  next : Option String
  /-- Whether taking the route uses up one attempt. -/
  isRetry : Bool
  deriving DecidableEq

namespace Route

/-- The plain route to a name. -/
def plain (name : String) : Route := ⟨some name, false⟩

/-- The route to a name that uses up one attempt. -/
def retry (name : String) : Route := ⟨some name, true⟩

/-- The route that ends the workflow. -/
def finish : Route := ⟨none, false⟩

/-- A route is written as a pair, its target null where it ends the
workflow. -/
def toJson (r : Route) : Json :=
  .array [Json.optional .string r.next, .bool r.isRetry]

/-- Reads a route: an array of just two values. -/
def ofJson? : Json → Option Route
  | .array [next, retry] => do
    return {
      next := ← Json.nullable? Json.string? next
      isRetry := ← retry.bool? }
  | _ => none

end Route

/-- For each name and result code, the route taken. -/
abbrev RoutingTable := Table String (Table UInt32 Route)

namespace RoutingTable

/-- The route after a name has ended with a code. -/
def route? (t : RoutingTable) (name : String) (code : UInt32) :
    Option Route :=
  (t.get? name).bind fun codes => codes.get? code

/-- Sets one route. -/
def set (t : RoutingTable) (name : String) (code : UInt32) (route : Route) :
    RoutingTable :=
  t.insert name (((t.get? name).getD []).insert code route)

/-- The names that routes lead to. -/
def targets (t : RoutingTable) : List String :=
  t.values.flatMap fun codes => codes.values.filterMap Route.next

/-- A routing table as JSON, with the codes as keys in decimal. -/
def toJson (t : RoutingTable) : Json := .ofTable (.ofCodeTable Route.toJson) t

/-- Reads a routing table. -/
def ofJson? (v : Json) : Option RoutingTable :=
  v.table? (Json.codeTable? Route.ofJson?)

end RoutingTable

end TaskRouting
