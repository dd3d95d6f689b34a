import TaskRouting.Catalog.Source
import TaskRouting.Yaml.Resolve
/-!
YAML as a notation.

What is expected decides what a scalar means: a text takes any scalar as it is
written, a number or a truth value only one without quotes. A value that is
not written at all is an empty list, map or record where one is expected. An
alias is read as the node that it stands for; how many aliases a document may
follow is bounded by its size. A record is always a mapping.
-/

namespace TaskRouting.Yaml

/-- Reading from a document. The state is how many aliases may still be
followed. -/
abbrev Reading := ReaderT Document (StateT Nat Option)

namespace Reading

/-- How many aliases may be followed for each part of a document. -/
def aliasesPerPart : Nat := 100

/-- Reads the only document of a text. -/
def ofText? {α : Type} (value : Node → Reading α) (text : String) :
    Option α := do
  let document ← Document.ofText? text
  let (a, _) ← ((value document.root).run document).run
      (aliasesPerPart * document.size)
  return a

/-- The node itself, or the one that an alias stands for. -/
def follow : Node → Reading Node
  | .alias number => do
    match ← get with
    | 0 => failure
    | n + 1 =>
      set n
      liftM ((← read).node? number)
  | node => return node

/-- Whether a scalar may be a number or a truth value: it has no quotes, or is
a block with the tag of just that. -/
def isTyped (kind : String) : Style → Option Tag → Bool
  | .plain, _ => true
  | .literal, some tag => tag = .core kind
  | _, _ => false

/-- Whether a node is a value that is not written at all. -/
def isNothing : Node → Bool
  | .void => true
  | .scalar text style _ => text.isEmpty && style = .plain
  | _ => false

/-- A scalar as it is written. -/
def text (v : Node) : Reading String := do
  match ← follow v with
  | .scalar text _ _ => return text
  | _ => failure

/-- A scalar that is a number or a truth value. -/
def typed {α : Type} (kind : String) (value : String → Option α) (v : Node) :
    Reading α := do
  match ← follow v with
  | .scalar text style tag =>
    if isTyped kind style tag then liftM (value text) else failure
  | _ => failure

/-- A truth value. -/
def flag : Node → Reading Bool := typed "bool" bool?

/-- A whole number of 32 bits. -/
def word : Node → Reading UInt32 := typed "int" fun text => do
  let n ← natural? text.toList
  if n < UInt32.size then return UInt32.ofNat n else none

/-- Whether a node, which is no alias, is something rather than nothing. The
tag of null allows nothing else. -/
def isThere : Node → Option Bool
  | .void => some false
  | .scalar text style tag =>
    if style ≠ .plain then some true
    else match tag with
      | none => some (!text.isEmpty && !isNull text)
      | some tag =>
        if tag ≠ .core "null" then some true
        else if isNull text then some false
        else none
  | _ => some true

/-- A value, or none where there is nothing. -/
def optional {α : Type} (value : Node → Reading α) (v : Node) :
    Reading (Option α) := do
  let v ← follow v
  if ← liftM (isThere v) then return some (← value v) else return none

/-- The items of a sequence. -/
def items (v : Node) : Reading (List Node) := do
  match ← follow v with
  | .sequence _ items => return items
  | v => if isNothing v then return [] else failure

/-- The entries of a mapping. -/
def entries (v : Node) : Reading (List (Node × Node)) := do
  match ← follow v with
  | .mapping _ entries => return entries
  | v => if isNothing v then return [] else failure

/-- The entries of a mapping, their keys of some kind. -/
def keyed {κ : Type} (key : Node → Reading κ) (v : Node) :
    Reading (List (κ × Node)) := do
  (← entries v).mapM fun (k, w) => do return (← key k, w)

/-- The name of an alternative: a scalar, or a local tag in front of
nothing. -/
def name (v : Node) : Reading String := do
  match ← follow v with
  | .scalar text style tag =>
    match tag.bind Tag.localName? with
    | none => return text
    | some name =>
      if style = .plain ∧ (text.isEmpty ∨ isNull text) then return name
      else failure
  | _ => failure

/-- A value of any kind. A local tag would need something that knows it. -/
def content : Nat → Node → Reading Content
  | 0, v => do
    match ← follow v with
    | .scalar text style tag => liftM (scalarContent? text style tag)
    | _ => failure
  | depth + 1, v => do
    match ← follow v with
    | .scalar text style tag => liftM (scalarContent? text style tag)
    | .sequence tag items =>
      if isNamed tag then failure
      return .list (← items.mapM (content depth))
    | .mapping tag entries =>
      if isNamed tag then failure
      return .map (← entries.mapM fun (k, w) => do
        return (← content depth k, ← content depth w))
    | .alias _ => failure
    | .void => return .null

instance source : Source Node Reading where
  text := text
  flag := flag
  word := word
  optional := optional
  list item v := do (← items v).mapM item
  pair v := do
    match ← items v with
    | [a, b] => return (a, b)
    | _ => failure
  members := keyed text
  codes := keyed word
  name := name
  fields _ := keyed text
  content := content

end Reading

end TaskRouting.Yaml
