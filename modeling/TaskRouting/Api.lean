import TaskRouting.Fault
import TaskRouting.Json.Fields
/-!
The external APIs that tasks name: their configuration, whether they can be
used, and a registry that answers both.
-/

namespace TaskRouting

/-- How well an API can be used, from best to worst. -/
inductive ApiStatus where
  | ok
  | warning
  | error
  deriving DecidableEq

namespace ApiStatus

/-- The name under which a status is written. -/
def name : ApiStatus → String
  | ok => "ok"
  | warning => "warning"
  | error => "error"

/-- Higher is worse. -/
def rank : ApiStatus → Nat
  | ok => 0
  | warning => 1
  | error => 2

/-- The worse of two. -/
def worse (a b : ApiStatus) : ApiStatus := if a.rank ≤ b.rank then b else a

/-- A status is written as its name. -/
def toJson (s : ApiStatus) : Json := .string s.name

/-- Reads a status from its name. -/
def ofJson? (v : Json) : Option ApiStatus :=
  v.alternative? ([ok, warning, error].map fun s => (s.name, s))

end ApiStatus

/-- The answer to the question whether an API can be used. -/
structure ApiHealth where
  status : ApiStatus
  message : String
  deriving DecidableEq

namespace ApiHealth

/-- Writes the health of an API. -/
def toJson (h : ApiHealth) : Json :=
  .ofMembers [("status", h.status.toJson), ("message", .string h.message)]

/-- Reads the health of an API. -/
def ofJson? (v : Json) : Option ApiHealth := do
  let fields ← v.fields? ["status", "message"]
  return {
    status := ← fields.required "status" ApiStatus.ofJson?
    message := ← fields.required "message" Json.string? }

end ApiHealth

/-- Where an API is found and what it needs. -/
structure ApiConfig where
  baseUrl : Option String
  apiKey : Option String
  /-- Fields of the provider's own. -/
  extra : Inputs

namespace ApiConfig

/-- Writes the configuration of an API. -/
def toJson (c : ApiConfig) : Json :=
  .ofMembers [
    ("base_url", Json.optional .string c.baseUrl),
    ("api_key", Json.optional .string c.apiKey),
    ("extra", .object c.extra)]

/-- Reads the configuration of an API. Both texts may be missing, and so may
the fields of the provider's own. -/
def ofJson? (v : Json) : Option ApiConfig := do
  let fields ← v.fields? ["base_url", "api_key", "extra"]
  return {
    baseUrl := ← fields.optional "base_url" Json.string?
    apiKey := ← fields.optional "api_key" Json.string?
    extra := ← fields.defaulted "extra" [] Json.inputs? }

end ApiConfig

/-- What a registry knows about one API. -/
structure ApiEntry where
  config : ApiConfig
  active : Bool
  /-- Why the API works less well than it should. -/
  degraded : Option String

namespace ApiEntry

/-- Writes what a registry knows about an API. -/
def toJson (e : ApiEntry) : Json :=
  .ofMembers [
    ("config", e.config.toJson),
    ("is_active", .bool e.active),
    ("degraded", Json.optional .string e.degraded)]

/-- Reads what a registry knows about an API; one is active if it is not said
otherwise. -/
def ofJson? (v : Json) : Option ApiEntry := do
  let fields ← v.fields? ["config", "is_active", "degraded"]
  return {
    config := ← fields.required "config" ApiConfig.ofJson?
    active := ← fields.defaulted "is_active" true Json.bool?
    degraded := ← fields.optional "degraded" Json.string? }

end ApiEntry

/-- The APIs that are configured. -/
abbrev Registry := Table String ApiEntry

namespace Registry

/-- Whether an API can be used: it must be configured and active, and may be
degraded. -/
def health (r : Registry) (api : String) : ApiHealth :=
  match r.get? api with
  | none => ⟨.error, "API '" ++ api ++ "' is not configured"⟩
  | some entry =>
    if !entry.active then ⟨.error,
      "API '" ++ api ++ "' is configured but inactive"⟩
    else match entry.degraded with
      | some reason =>
        ⟨.warning, "API '" ++ api ++ "' is degraded: " ++ reason⟩
      | none => ⟨.ok, "API '" ++ api ++ "' is available"⟩

/-- The configuration of an API that is active. -/
def config (r : Registry) (api : String) : Except ApiError ApiConfig :=
  match r.get? api with
  | none => .error (.notConfigured api)
  | some entry =>
    if entry.active then .ok entry.config else .error (.inactive api)

end Registry

end TaskRouting
