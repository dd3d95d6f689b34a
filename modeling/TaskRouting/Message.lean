import TaskRouting.Usage
/-!
The messages that agents produce.
-/

namespace TaskRouting

/-- Who speaks in a message. -/
inductive Role where
  | system
  | user
  | assistant
  | tool
  deriving DecidableEq

namespace Role

/-- The name under which a role is written. -/
def name : Role → String
  | system => "system"
  | user => "user"
  | assistant => "assistant"
  | tool => "tool"

/-- A role is written as its name. -/
def toJson (r : Role) : Json := .string r.name

/-- Reads a role from its name. -/
def ofJson? (v : Json) : Option Role :=
  v.alternative? ([system, user, assistant, tool].map fun r => (r.name, r))

end Role

/-- One message. -/
structure Message where
  role : Role
  content : String
  /-- A free label of the producer. -/
  producer : Option String
  usage : Option Usage
  /-- Anything else that the producer wants to keep. -/
  metadata : Option Json

namespace Message

/-- A message of an assistant under a producer's name. -/
def assistant (producer content : String) (usage : Option Usage) : Message :=
  ⟨.assistant, content, some producer, usage, none⟩

/-- Writes a message, with its cost as the given form has it. -/
def toJson (cost : Binary64 → Json) (m : Message) : Json :=
  .ofMembers [
    ("role", m.role.toJson),
    ("content", .string m.content),
    ("generated_by", Json.optional .string m.producer),
    ("usage", Json.optional (Usage.toJson cost) m.usage),
    ("creation_metadata", Json.optional id m.metadata)]

/-- The names of the fields of a message, in order. -/
def fieldNames : List String :=
  ["role", "content", "generated_by", "usage", "creation_metadata"]

/-- What a reader looks at in a message. -/
def outline : Json.Outline :=
  .record fieldNames [("role", .choice), ("usage", Usage.outline)]

/-- Reads a message. A role and a content are required. -/
def ofJson? (v : Json) : Option Message := do
  let fields ← v.fields? fieldNames
  return {
    role := ← fields.required "role" Role.ofJson?
    content := ← fields.required "content" Json.string?
    producer := ← fields.optional "generated_by" Json.string?
    usage := ← fields.optional "usage" Usage.ofJson?
    metadata := ← fields.optional "creation_metadata" some }

end Message

end TaskRouting
