import TaskRouting.Json.Fields
/-!
Which inputs a task reads and which of them it must have.

A schema declares properties and lists the required keys; the two need not
agree. A value that is null counts as absent. `prepare` refuses inputs without
a required key and fills in defaults; `select` picks the declared keys out of
a wider environment, or takes it whole where nothing is declared.
-/

namespace TaskRouting

/-- The declaration of one input. -/
structure Parameter where
  typeName : String
  description : String
  /-- The value for a caller who leaves the input out. -/
  default : Option Json

namespace Parameter

/-- The type of a parameter that names none. -/
def usualType : String := "string"

/-- A parameter as JSON; a default that is missing is written as null. -/
def toJson (p : Parameter) : Json :=
  .ofMembers [
    ("type", .string p.typeName),
    ("description", .string p.description),
    ("default", Json.optional id p.default)]

/-- The names of the fields, in order. -/
def fieldNames : List String := ["type", "description", "default"]

/-- A parameter out of its fields, each of which has a default. -/
def ofFields? (fields : Json.Fields) : Option Parameter := do
  return {
    typeName := ← fields.defaulted "type" usualType Json.string?
    description := ← fields.defaulted "description" "" Json.string?
    default := ← fields.optional "default" some }

/-- Reads a parameter. -/
def ofJson? (v : Json) : Option Parameter :=
  (v.fields? fieldNames).bind ofFields?

end Parameter

/-- The inputs that a task declares. -/
structure InputSchema where
  properties : Table String Parameter
  required : List String

namespace InputSchema

/-- Declares nothing and requires nothing. -/
def empty : InputSchema := ⟨[], []⟩

/-- Declares a property. -/
def declare (s : InputSchema) (name : String) (p : Parameter) : InputSchema :=
  { s with properties := s.properties.insert name p }

/-- Declares a property and requires it. -/
def require (s : InputSchema) (name : String) (p : Parameter) : InputSchema :=
  { s.declare name p with
    required := if name ∈ s.required then s.required
      else s.required ++ [name] }

/-- Declares no property. -/
def isOpen (s : InputSchema) : Bool := s.properties.isEmpty

/-- No value, or null. -/
def absent (inputs : Inputs) (key : String) : Bool :=
  match inputs.get? key with
  | none => true
  | some v => v.isNull

/-- The required keys that are absent, in the order in which they are
required. -/
def missing (s : InputSchema) (inputs : Inputs) : List String :=
  s.required.filter (absent inputs)

/-- Puts the default of one property in place, if it has one and is absent. -/
def fill (inputs : Inputs) (property : String × Parameter) : Inputs :=
  match property.2.default with
  | some d =>
    if absent inputs property.1 then inputs.insert property.1 d else inputs
  | none => inputs

/-- The inputs with defaults filled in, or the required keys that are
absent. -/
def prepare (s : InputSchema) (inputs : Inputs) :
    Except (List String) Inputs :=
  match s.missing inputs with
  -- A required key with a default is still required: defaults come after.
  | [] => .ok (s.properties.foldl fill inputs)
  | keys => .error keys

/-- The declared part of an environment; all of it when nothing is
declared. -/
def select (s : InputSchema) (environment : Inputs) : Inputs :=
  if s.isOpen then environment
  else s.properties.keys.filterMap fun k => (environment.get? k).map
    fun v => (k, v)

/-- A schema as JSON: properties in key order, required keys in theirs. -/
def toJson (s : InputSchema) : Json :=
  .ofMembers [
    ("properties", .ofTable Parameter.toJson s.properties),
    ("required", .strings s.required)]

/-- Reads a schema; without its fields it is `empty`. -/
def ofJson? (v : Json) : Option InputSchema := do
  let fields ← v.fields? ["properties", "required"]
  return {
    properties := ← fields.defaulted "properties" []
      (Json.table? Parameter.ofJson?)
    required := ← fields.defaulted "required" [] (Json.list? Json.string?) }

end InputSchema

end TaskRouting
