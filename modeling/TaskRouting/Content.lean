import TaskRouting.Schema
/-!
Values read before it is known what they are to be.

Some parts of a document can be one thing or another, so they are first read
as what they look like: a truth value, a number, a text, a list, a map. A map
keeps its entries as they were written, with keys of any kind. What it turns
out to be is decided afterwards; numbers do not become texts any more then. A
whole number after a minus sign stays apart from one without: it never counts
something, not even if it is zero.
-/

namespace TaskRouting

/-- A value as it looks, before it is known what it is to be. -/
inductive Content where
  | null
  | bool (value : Bool)
  /-- A whole number without a minus sign. -/
  | natural (value : Nat)
  /-- A whole number after a minus sign. -/
  | negated (value : Nat)
  | float (value : Binary64)
  | text (value : String)
  | list (items : List Content)
  | map (entries : List (Content × Content))

namespace Content

instance : Inhabited Content := ⟨.null⟩

/-- The text that a value is. -/
def text? : Content → Option String
  | .text s => some s
  | _ => none

mutual

/-- A JSON value as it looks. -/
def ofJson : Json → Content
  | .null => .null
  | .bool b => .bool b
  | .int (.ofNat n) => .natural n
  | .int (.negSucc n) => .negated (n + 1)
  | .float x => .float x.value
  | .string s => .text s
  | .array items => .list (ofItems items)
  | .object members => .map (ofMembers members)

/-- The items of a list as they look. -/
def ofItems : List Json → List Content
  | [] => []
  | v :: rest => ofJson v :: ofItems rest

/-- The members of an object as they look, with texts for keys. -/
def ofMembers : List (String × Json) → List (Content × Content)
  | [] => []
  | (k, v) :: rest => (.text k, ofJson v) :: ofMembers rest

end

mutual

/-- The value as JSON. Keys must be texts; of two entries with one key the
later one counts; a number that is not finite stands as null. -/
def toJson? : Content → Option Json
  | .null => some .null
  | .bool b => some (.bool b)
  | .natural n => some (.int n)
  | .negated n => some (.int (-n))
  | .float x => some (Json.ofBinary64 x)
  | .text s => some (.string s)
  | .list items => (toItems? items).map .array
  | .map entries => (toMembers? entries).map Json.ofMembers

/-- The items of a list as JSON. -/
def toItems? : List Content → Option (List Json)
  | [] => some []
  | c :: rest => do return (← toJson? c) :: (← toItems? rest)

/-- The entries of a map as members of an object. -/
def toMembers? : List (Content × Content) → Option (List (String × Json))
  | [] => some []
  | (k, v) :: rest =>
    do return (← text? k, ← toJson? v) :: (← toMembers? rest)

end

/-- Null, or a value that is there. -/
def toJsonOrNone? : Content → Option (Option Json)
  | .null => some none
  | c => (toJson? c).map some

end Content

namespace Parameter

/-- The parameter with certain fields. A field may not be given twice; others
are passed over. -/
def ofContentFields? (fields : List (String × Content)) :
    Option Parameter := do
  let field (name : String) : Option (Option Content) :=
    match fields.filter (·.1 == name) with
    | [] => some none
    | [(_, c)] => some (some c)
    | _ => none
  let typeName ← field "type"
  let description ← field "description"
  let default ← field "default"
  return {
    typeName := ← (typeName.map Content.text?).getD (some usualType)
    description := ← (description.map Content.text?).getD (some "")
    default := ← (default.map Content.toJsonOrNone?).getD (some none) }

/-- The field that a key stands for: its name, or its number. A number that no
field has stands for none. -/
def fieldOf? : Content → Option String
  | .text s => some s
  | .natural n => some ((fieldNames[n]?).getD "")
  | _ => none

/-- The parameter that a map or a list of its fields describes. -/
def ofContent? : Content → Option Parameter
  | .list items =>
    if items.length ≤ fieldNames.length then
      ofContentFields? (fieldNames.zip items) else none
  | .map entries => do
    ofContentFields? (← entries.mapM
      fun (k, v) => do return (← fieldOf? k, v))
  | _ => none

end Parameter

end TaskRouting
