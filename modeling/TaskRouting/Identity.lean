import TaskRouting.Schema
/-!
What every task carries whatever its kind: its key and name, the APIs it
needs, the inputs it declares and the meaning of its result codes.
-/

namespace TaskRouting

/-- The result code that means success. -/
def successCode : UInt32 := 0

/-- The result code of a failure that has no code of its own. -/
def failureCode : UInt32 := 1

/-- How a task is named on its responses. -/
structure Header where
  taskId : String
  taskName : String
  taskDescription : String
  deriving DecidableEq

/-- The part of a task's definition that all kinds of task share. -/
structure Identity where
  key : String
  name : String
  description : String
  requiredApis : List String
  inputSchema : InputSchema
  /-- What each result code means. -/
  exitCodes : Table UInt32 String

namespace Identity

/-- The meanings of the two result codes that every task has. -/
def usualExitCodes : Table UInt32 String :=
  [(successCode, "Success"), (failureCode, "Failed")]

/-- An identity with a key and a name and nothing else. -/
def named (key name : String) : Identity :=
  { key, name, description := "", requiredApis := [], inputSchema := .empty,
    exitCodes := usualExitCodes }

/-- The meaning of a result code; a code without one is described by its
number. -/
def describeCode (i : Identity) (code : UInt32) : String :=
  (i.exitCodes.get? code).getD ("exit code " ++ toString code.toNat)

/-- How the task is named on its responses. -/
def header (i : Identity) : Header := ⟨i.key, i.name, i.description⟩

/-- Writes an identity. -/
def toJson (i : Identity) : Json :=
  .ofMembers [
    ("key", .string i.key),
    ("name", .string i.name),
    ("description", .string i.description),
    ("required_apis", .strings i.requiredApis),
    ("input_schema", i.inputSchema.toJson),
    ("exit_codes", .ofCodeTable .string i.exitCodes)]

/-- Reads an identity. A key and a name are required; what is not said is as
in `Identity.named`. -/
def ofJson? (v : Json) : Option Identity := do
  let fields ← v.fields? [
    "key", "name", "description", "required_apis", "input_schema",
    "exit_codes"]
  return {
    key := ← fields.required "key" Json.string?
    name := ← fields.required "name" Json.string?
    description := ← fields.defaulted "description" "" Json.string?
    requiredApis := ← fields.defaulted "required_apis" []
      (Json.list? Json.string?)
    inputSchema := ← fields.defaulted "input_schema" .empty
      InputSchema.ofJson?
    exitCodes := ← fields.defaulted "exit_codes" usualExitCodes
      (Json.codeTable? Json.string?) }

end Identity

end TaskRouting
