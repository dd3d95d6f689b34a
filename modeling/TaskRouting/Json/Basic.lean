import TaskRouting.Number.Binary64
import TaskRouting.Table
/-!
Values of the JSON data format.

The members of an object are a `Table`: they have no order of their own. Whole
numbers and numbers with a fraction stay apart, so that `1` and `1.0` are
different values; a number with a fraction is always finite.
-/

namespace TaskRouting

/-- A JSON value. -/
inductive Json where
  | null
  | bool (value : Bool)
  | int (value : Int)
  | float (value : Finite64)
  | string (value : String)
  | array (items : List Json)
  | object (members : List (String × Json))

/-- Named values handed to a task. -/
abbrev Inputs := Table String Json

namespace Json

instance : Inhabited Json := ⟨.null⟩

/-- Whether a value is null. -/
def isNull : Json → Bool
  | .null => true
  | _ => false

/-- A number with a fraction; one that JSON cannot write stands as null. -/
def ofBinary64 (x : Binary64) : Json :=
  if h : x.isFinite = true then .float ⟨x, h⟩ else .null

/-- A natural number. -/
def ofNat (n : Nat) : Json := .int n

/-- A list of texts. -/
def strings (texts : List String) : Json := .array (texts.map .string)

/-- An optional value, null when there is none. -/
def optional {α : Type u} (encode : α → Json) : Option α → Json
  | none => .null
  | some a => encode a

/-- The object with the given members. -/
def ofMembers (members : List (String × Json)) : Json :=
  .object (Table.ofList members)

mutual

/-- Whether two values are the same. -/
def same : Json → Json → Bool
  | .null, .null => true
  | .bool a, .bool b => a == b
  | .int a, .int b => a == b
  | .float a, .float b => a == b
  | .string a, .string b => a == b
  | .array a, .array b => sameItems a b
  | .object a, .object b => sameMembers a b
  | _, _ => false

/-- Whether two lists have the same items, in the same order. -/
def sameItems : List Json → List Json → Bool
  | [], [] => true
  | a :: as, b :: bs => same a b && sameItems as bs
  | _, _ => false

/-- Whether two objects have the same members. Their names ascend, so the
order is no matter. -/
def sameMembers : List (String × Json) → List (String × Json) → Bool
  | [], [] => true
  | (k, a) :: as, (l, b) :: bs => k == l && same a b && sameMembers as bs
  | _, _ => false

end

instance : BEq Json := ⟨same⟩

end Json

end TaskRouting
