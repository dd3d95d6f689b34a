import TaskRouting.Json.Outline
/-!
JSON values as they are written.

A text can have the form of JSON and yet write what is no value: a number that
is too large, or a string with half of a surrogate pair. It can also name a
member twice. Whether that matters depends on who reads it, so the form of a
text (`Written`) comes first, and `Written.value?` makes a value of the parts
that an outline looks at: there all must be well, brackets may not nest too
deep, and a record may not have a field twice. In an object that is no record
the later of two members counts.
-/

namespace TaskRouting.Json

/-- The form of a JSON text. -/
inductive Written where
  /-- A null, a truth value or a number, if the number is not too large. -/
  | scalar (value : Option Json)
  /-- A string, if its surrogates come in pairs. -/
  | text (value : Option String)
  | array (items : List Written)
  | object (members : List (Option String × Written))

namespace Written

instance : Inhabited Written := ⟨.scalar (some .null)⟩

mutual

/-- The value that an outline finds, with brackets nested less than `room`
deep. -/
def value? (room : Nat) (outline : Outline) : Written → Option Json
  | .scalar v => v
  | .text s => s.map .string
  | .array items =>
    if room < 2 then none
    else match outline with
      | .fields known => (fieldsInOrder? (room - 1) known items).map .array
      | outline => (items? (room - 1) outline.item items).map .array
  | .object members =>
    if room < 2 then none
    else match outline with
      | .fields known => do
        -- Names that the record does not know may be repeated.
        let fields ← fields? (room - 1) known members
        if (fields.map (·.1)).Nodup then return ofMembers fields else none
      | .choice =>
        if members.length = 1 then (members? (room - 1) members).map ofMembers
        else none
      | _ => (members? (room - 1) members).map ofMembers

/-- The values of the items, which are all looked at in the same way. -/
def items? (room : Nat) (outline : Outline) :
    List Written → Option (List Json)
  | [] => some []
  | w :: rest =>
    do return (← value? room outline w) :: (← items? room outline rest)

/-- The values of all members of an object, whatever their names. -/
def members? (room : Nat) :
    List (Option String × Written) → Option (List (String × Json))
  | [] => some []
  | (name, w) :: rest =>
    do return (← name, ← value? room .whole w) :: (← members? room rest)

/-- The members that a record knows. The others are not looked at, but for
their names. -/
def fields? (room : Nat) (known : List (String × Outline)) :
    List (Option String × Written) → Option (List (String × Json))
  | [] => some []
  | (none, _) :: _ => none
  | (some name, w) :: rest =>
    match known.lookup name with
    | none => fields? room known rest
    | some outline => do
      return (name, ← value? room outline w) :: (← fields? room known rest)

/-- The fields of a record that is an array; it may end early. -/
def fieldsInOrder? (room : Nat) :
    List (String × Outline) → List Written → Option (List Json)
  | _, [] => some []
  | [], _ :: _ => none
  | (_, outline) :: known, w :: rest => do
    return (← value? room outline w) :: (← fieldsInOrder? room known rest)

end

end Written

end TaskRouting.Json
