import TaskRouting.Json.Basic
/-!
Reading typed values out of JSON values.

A record is an object, or an array of its fields in their declared order.
Members that the record does not know are passed over; a field that is missing
has its default, if it has one. Nothing is converted: a number is not read
from a string, nor a whole number from one with a fraction, and null is read
only where a value is optional.
-/

namespace TaskRouting.Json

/-- A text. -/
def string? : Json → Option String
  | .string s => some s
  | _ => none

/-- A truth value. -/
def bool? : Json → Option Bool
  | .bool b => some b
  | _ => none

/-- A whole number below a bound. -/
def natBelow? (bound : Nat) : Json → Option Nat
  | .int n => if 0 ≤ n ∧ n < bound then some n.toNat else none
  | _ => none

/-- A whole number of 32 bits without a sign. -/
def uint32? (v : Json) : Option UInt32 :=
  (v.natBelow? UInt32.size).map UInt32.ofNat

/-- A whole number of 64 bits without a sign. -/
def uint64? (v : Json) : Option UInt64 :=
  (v.natBelow? UInt64.size).map UInt64.ofNat

/-- A finite number; a whole number is rounded to the nearest. -/
def binary64? : Json → Option Binary64
  | .float x => some x.value
  | .int n => let x := Binary64.ofInt n; if x.isFinite then some x else none
  | _ => none

/-- Null, or a value of the given kind. -/
def nullable? {α : Type u} (value : Json → Option α) :
    Json → Option (Option α)
  | .null => some none
  | v => (value v).map some

/-- An array whose items are all of the given kind. -/
def list? {α : Type u} (item : Json → Option α) : Json → Option (List α)
  | .array items => items.mapM item
  | _ => none

/-- An object as a map from its names. -/
def table? {α : Type} (value : Json → Option α) :
    Json → Option (Table String α)
  | .object members => do
    return Table.ofList (← members.mapM
      fun (k, v) => do return (k, ← value v))
  | _ => none

/-- The inputs that an object names. -/
def inputs? : Json → Option Inputs
  | .object members => some members
  | _ => none

/-- The number that decimal digits write, without sign and without a zero in
front. -/
def decimalKey? (s : String) : Option Nat :=
  let digits := s.toList
  if digits.all Char.isDigit && !digits.isEmpty
    && (digits.length == 1 || digits.head? != some '0')
  then some (digits.foldl (fun n c => n * 10 + (c.toNat - '0'.toNat)) 0)
  else none

/-- A result code as the name of a member. -/
def codeKey? (s : String) : Option UInt32 := do
  let n ← decimalKey? s
  if n < UInt32.size then return UInt32.ofNat n else none

/-- An object as a map from result codes. -/
def codeTable? {α : Type} (value : Json → Option α) :
    Json → Option (Table UInt32 α)
  | .object members => do
    return Table.ofList (← members.mapM
      fun (k, v) => do return (← codeKey? k, ← value v))
  | _ => none

/-- A map as an object. -/
def ofTable {α : Type u} (value : α → Json) (t : Table String α) : Json :=
  .object (t.mapValues value)

/-- A map from result codes as an object. -/
def ofCodeTable {α : Type u} (value : α → Json) (t : Table UInt32 α) : Json :=
  ofMembers (t.map fun e => (toString e.1.toNat, value e.2))

/-- One of some named alternatives: its name, or an object with that name
alone and null. -/
def alternative? {α : Type u} (names : List (String × α)) : Json → Option α
  | .string s => Table.get? names s
  | .object [(s, .null)] => Table.get? names s
  | _ => none

/-- The fields of a record, by name. -/
abbrev Fields := List (String × Json)

/-- The fields of a record with the given field names. -/
def fields? (names : List String) : Json → Option Fields
  | .object members => some members
  | .array items =>
    -- An array may end early: the fields after that are missing.
    if items.length ≤ names.length then some (names.zip items) else none
  | _ => none

/-- A member is smaller than its object. -/
theorem sizeOf_lt_of_mem_members {members : List (String × Json)} {k : String}
    {v : Json} (h : (k, v) ∈ members) :
    sizeOf v < sizeOf (object members) := by
  have := List.sizeOf_lt_of_mem h
  simp at this ⊢
  omega

/-- The value of a field is smaller than the record. -/
theorem sizeOf_lt_of_fields? {names : List String} {v w : Json}
    {fields : Fields} {k : String} (h : v.fields? names = some fields)
    (hk : (k, w) ∈ fields) : sizeOf w < sizeOf v := by
  cases v with
  | object members =>
    simp only [fields?, Option.some.injEq] at h
    subst h
    exact sizeOf_lt_of_mem_members hk
  | array items =>
    simp only [fields?] at h
    split at h
    · simp only [Option.some.injEq] at h
      subst h
      have := List.sizeOf_lt_of_mem (List.of_mem_zip hk).2
      simp only [array.sizeOf_spec]
      omega
    · simp at h
  | _ => simp [fields?] at h

namespace Fields

variable {α : Type u}

/-- A field that has to be there. -/
def required (fields : Fields) (name : String) (value : Json → Option α) :
    Option α :=
  (Table.get? fields name).bind value

/-- A field that has a default. -/
def defaulted (fields : Fields) (name : String) (default : α)
    (value : Json → Option α) : Option α :=
  match Table.get? fields name with
  | none => some default
  | some v => value v

/-- A field that may be missing or null. -/
def optional (fields : Fields) (name : String) (value : Json → Option α) :
    Option (Option α) :=
  fields.defaulted name none (nullable? value)

end Fields

end TaskRouting.Json
