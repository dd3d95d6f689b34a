import TaskRouting.Json.Basic
/-!
Which parts of a JSON value a reader looks at.

A reader that expects a record passes over the members that the record does
not have, without asking what they hold. An outline says where records are
expected, and which members they have.
-/

namespace TaskRouting.Json

/-- Brackets that are looked into may not nest this deep. -/
def nestingLimit : Nat := 128

/-- What is looked at in a value. -/
inductive Outline where
  /-- All of it. -/
  | whole
  /-- The name of an alternative, which may stand as the only member of an
  object. -/
  | choice
  /-- What is looked at in each item of an array. -/
  | items (item : Outline)
  /-- The fields of a record, in their order. -/
  | fields (known : List (String × Outline))

namespace Outline

/-- The fields with certain names, looked at as a whole but for some of
them. -/
def record (names : List String) (inner : List (String × Outline)) :
    Outline :=
  .fields (names.map fun name => (name, (inner.lookup name).getD .whole))

/-- What is looked at in each item, should the value be an array of items. -/
def item : Outline → Outline
  | items o => o
  | _ => whole

end Outline

end TaskRouting.Json
