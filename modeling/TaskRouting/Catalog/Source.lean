import TaskRouting.Content
/-!
What a catalog document is read from.

A catalog has one structure and two notations, JSON and YAML. A notation says
how it writes texts, numbers, lists, maps and records; the document is then
described once, over any notation, in the words of `Source`.
-/

namespace TaskRouting

/-- A notation whose nodes are of type `ν` and are read in `m`. -/
class Source (ν : Type) (m : outParam (Type → Type)) where
  text : ν → m String
  flag : ν → m Bool
  word : ν → m UInt32
  /-- Nothing, or a value of the given kind. -/
  optional {α : Type} (value : ν → m α) : ν → m (Option α)
  list {α : Type} (item : ν → m α) : ν → m (List α)
  /-- Exactly two items. -/
  pair : ν → m (ν × ν)
  /-- The entries of a map with names, in the order in which they are
  written. -/
  members : ν → m (List (String × ν))
  /-- The entries of a map with result codes. -/
  codes : ν → m (List (UInt32 × ν))
  /-- One of some names. -/
  name : ν → m String
  /-- The fields of a record, which is a map, or a list of its fields in their
  order where the notation allows that. -/
  fields (names : List String) : ν → m (List (String × ν))
  /-- A value of any kind, its lists and maps nested no deeper than the
  bound. -/
  content (depth : Nat) : ν → m Content

namespace Source

variable {ν : Type} {m : Type → Type} [Monad m] [MonadLiftT Option m]
  [Source ν m]

/-- One of some named alternatives. -/
def alternative {α : Type} (names : List (String × α)) (v : ν) : m α := do
  let name ← Source.name v
  liftM (Table.get? names name)

/-- A map from names; of two entries with one name the later one counts. -/
def table {α : Type} (value : ν → m α) (v : ν) : m (Table String α) := do
  let members ← Source.members v
  return Table.ofList (← members.mapM fun (k, w) => do return (k, ← value w))

/-- A map from result codes. -/
def codeTable {α : Type} (value : ν → m α) (v : ν) : m (Table UInt32 α) := do
  let members ← Source.codes v
  return Table.ofList (← members.mapM fun (k, w) => do return (k, ← value w))

/-- The only field with a name, if there is one. A field that is given twice
is an error. -/
def field? (fields : List (String × ν)) (name : String) : Option (Option ν) :=
  match fields.filter (·.1 == name) with
  | [] => some none
  | [(_, v)] => some (some v)
  | _ => none

/-- A field that must be there. -/
def required {α : Type} (fields : List (String × ν)) (name : String)
    (value : ν → m α) : m α := do
  value (← liftM (field? fields name).join)

/-- A field that has a default. -/
def defaulted {α : Type} (fields : List (String × ν)) (name : String)
    (default : α) (value : ν → m α) : m α := do
  match ← liftM (field? fields name) with
  | none => return default
  | some v => value v

/-- A field that may be missing. -/
def optionalField {α : Type} (fields : List (String × ν)) (name : String)
    (value : ν → m α) : m (Option α) :=
  defaulted fields name none (Source.optional value)

end Source

-- ================================================================ JSON

namespace Json

/-- The name that stands for an alternative: itself, or the only member of an
object, with null. -/
def alternativeName? : Json → Option String
  | .string s => some s
  | .object [(s, .null)] => some s
  | _ => none

/-- JSON as a notation. It sets no bound on nesting. -/
instance source : Source Json Option where
  text := string?
  flag := bool?
  word := uint32?
  optional := nullable?
  list := list?
  pair
    | .array [a, b] => some (a, b)
    | _ => none
  members
    | .object members => some members
    | _ => none
  codes
    | .object members =>
      members.mapM fun (k, v) => do return (← codeKey? k, v)
    | _ => none
  name := alternativeName?
  fields := fields?
  content _ v := some (Content.ofJson v)

end Json

end TaskRouting
