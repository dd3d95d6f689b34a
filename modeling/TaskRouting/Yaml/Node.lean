import TaskRouting.Yaml.Tokens
/-!
The nodes of a YAML document.

A document is a tree of scalars, sequences and mappings. An alias stands for a
node that an anchor has named earlier; it is kept as the anchor's number, and
the document tells which node carries that number. A name may be anchored
again: the number of a new anchor is the count of distinct names so far, so
after such a repetition two anchors can share a number, and then the one that
begins later has it.
-/

namespace TaskRouting.Yaml

/-- A node of a document. An alias refers to another by its `number`. -/
inductive Node where
  | scalar (text : String) (style : Style) (tag : Option Tag)
  | sequence (tag : Option Tag) (items : List Node)
  | mapping (tag : Option Tag) (entries : List (Node × Node))
  | alias (number : Nat)
  /-- What a text without a document holds. -/
  | void

instance : Inhabited Node := ⟨.void⟩

/-- A document with its anchors. -/
structure Document where
  root : Node
  /-- The place of the node that carries a number. -/
  places : List (Nat × Nat)
  /-- The anchored nodes by their places. -/
  nodes : List (Nat × Node)
  /-- How many scalars, aliases, and beginnings and ends of collections the
  document has. -/
  size : Nat

/-- The node that carries an anchor's number. -/
def Document.node? (d : Document) (number : Nat) : Option Node := do
  d.nodes.lookup (← d.places.lookup number)

/-- A scalar that is not written at all. -/
def Node.nothing : Node := .scalar "" .plain none

namespace Document

/-- The state of building a document from its tokens. -/
structure Building where
  tokens : List Token
  /-- The numbers of the anchor names. -/
  names : List (String × Nat)
  places : List (Nat × Nat)
  nodes : List (Nat × Node)
  size : Nat
  /-- What the handles of tags stand for. -/
  handles : List (String × Tag)

/-- What builds part of a document, if the tokens allow it. -/
abbrev Build := StateT Building Option

/-- Fails unless a condition holds. -/
def require (b : Bool) : Build Unit := if b then pure () else failure

/-- The next token; after the last one the stream has ended. -/
def peek : Build Token := do return (← get).tokens.headD .streamEnd

/-- Takes the next token. -/
def skip : Build Unit := modify fun s => { s with tokens := s.tokens.drop 1 }

/-- Counts parts of the document, and gives the place of the next one. -/
def grow (n : Nat) : Build Nat :=
  modifyGet fun s => (s.size, { s with size := s.size + n })

/-- Gives an anchor its number, which then belongs to a place. -/
def declare (name : Option String) (place : Nat) : Build Unit :=
  modify fun s =>
  match name with
  | none => s
  | some name =>
    let number := s.names.length
    { s with
      names := (name, number) :: s.names.filter (·.1 ≠ name)
      places := (number, place) :: s.places.filter (·.1 ≠ number) }

/-- Keeps an anchored node. -/
def keep (name : Option String) (place : Nat) (node : Node) : Build Node := do
  if name.isSome then modify fun s =>
    { s with nodes := (place, node) :: s.nodes }
  return node

/-- The handles that every document knows. -/
def usualHandles : List (String × Tag) := [("!", .bare), ("!!", .corePrefix)]

/-- The full tag that a handle and a suffix stand for. -/
def fullTag (handle : String) (suffix : Tag) : Build Tag := do
  if handle.isEmpty then return suffix
  match ((← get).handles ++ usualHandles).lookup handle with
  | some front => return front.append suffix
  | none => failure

/-- An anchor and a tag in front of a node, in either order. -/
def properties : Build (Option String × Option Tag) := do
  match ← peek with
  | .anchor name =>
    skip
    match ← peek with
    | .tag handle suffix =>
      skip
      return (some name, some (← fullTag handle suffix))
    | _ => return (some name, none)
  | .tag handle suffix =>
    skip
    match ← peek with
    | .anchor name =>
      skip
      return (some name, some (← fullTag handle suffix))
    | _ => return (none, some (← fullTag handle suffix))
  | _ => return (none, none)

/-- A scalar that is not written, which counts as a part of the document. -/
def nothing : Build Node := do
  let _ ← grow 1
  return .nothing

/-- Whether the next token is one of some. -/
def meets (ts : List Token) : Build Bool := do return ts.contains (← peek)

mutual

/-- A node: in a block or within brackets, and perhaps with a sequence that is
not indented. -/
def node : Nat → Bool → Bool → Build Node
  | 0, _, _ => failure
  | n + 1, block, indentless => do
    match ← peek with
    | .alias name =>
      skip
      let _ ← grow 1
      match (← get).names.lookup name with
      | some number => return .alias number
      | none => failure
    | _ =>
      let (anchor, tag) ← properties
      let t ← peek
      match t with
      | .scalar text style =>
        skip
        let place ← grow 1
        declare anchor place
        keep anchor place (.scalar text style tag)
      | _ =>
        let opens := t = .flowSequenceStart || t = .flowMappingStart
          || (block && (t = .blockSequenceStart || t = .blockMappingStart))
        let listed := indentless && t = .blockEntry
        if opens || listed then
          -- The anchor gets its number before the items are read, so that
          -- aliases inside the collection may refer to it.
          let place ← grow 2
          declare anchor place
          if !listed then skip
          if listed then
            keep anchor place (.sequence tag (← indentlessItems n))
          else if t = .flowSequenceStart then
            keep anchor place (.sequence tag (← flowItems n true))
          else if t = .flowMappingStart then
            keep anchor place (.mapping tag (← flowEntries n true))
          else if t = .blockSequenceStart then
            keep anchor place (.sequence tag (← blockItems n))
          else keep anchor place (.mapping tag (← blockEntries n))
        else
          -- Properties without a node belong to a scalar that is empty.
          require (anchor.isSome || tag.isSome)
          let place ← grow 1
          declare anchor place
          keep anchor place (.scalar "" .plain tag)

/-- The items of an indented sequence. -/
def blockItems : Nat → Build (List Node)
  | 0 => failure
  | n + 1 => do
    match ← peek with
    | .blockEntry =>
      skip
      let item ←
        if ← meets [.blockEntry, .blockEnd] then nothing
        else node n true false
      return item :: (← blockItems n)
    | .blockEnd =>
      skip
      return []
    | _ => failure

/-- The items of a sequence that stands as deep as the mapping around it. -/
def indentlessItems : Nat → Build (List Node)
  | 0 => failure
  | n + 1 => do
    match ← peek with
    | .blockEntry =>
      skip
      let item ←
        if ← meets [.blockEntry, .key, .value, .blockEnd] then nothing
        else node n true false
      return item :: (← indentlessItems n)
    | _ => return []

/-- The entries of an indented mapping. -/
def blockEntries : Nat → Build (List (Node × Node))
  | 0 => failure
  | n + 1 => do
    match ← peek with
    | .key =>
      skip
      let k ←
        if ← meets [.key, .value, .blockEnd] then nothing
        else node n true true
      let v ←
        if ← meets [.value] then
          skip
          if ← meets [.key, .value, .blockEnd] then nothing
          else node n true true
        else nothing
      return (k, v) :: (← blockEntries n)
    | .blockEnd =>
      skip
      return []
    | _ => failure

/-- The items of a sequence in brackets; an item with a key is a mapping of
one entry. -/
def flowItems : Nat → Bool → Build (List Node)
  | 0, _ => failure
  | n + 1, first => do
    if ← meets [.flowSequenceEnd] then
      skip
      return []
    if !first then
      require (← meets [.flowEntry])
      skip
    match ← peek with
    | .flowSequenceEnd =>
      skip
      return []
    | .key =>
      skip
      -- The mapping of one entry has a beginning and an end of its own.
      let _ ← grow 2
      let k ←
        if ← meets [.value, .flowEntry, .flowSequenceEnd] then
          skip
          nothing
        else node n false false
      let v ←
        if ← meets [.value] then
          skip
          if ← meets [.flowEntry, .flowSequenceEnd] then nothing
          else node n false false
        else nothing
      return .mapping none [(k, v)] :: (← flowItems n false)
    | _ =>
      let item ← node n false false
      return item :: (← flowItems n false)

/-- The entries of a mapping in braces; a node without a key mark is a key
without a value. -/
def flowEntries : Nat → Bool → Build (List (Node × Node))
  | 0, _ => failure
  | n + 1, first => do
    if ← meets [.flowMappingEnd] then
      skip
      return []
    if !first then
      require (← meets [.flowEntry])
      skip
    match ← peek with
    | .flowMappingEnd =>
      skip
      return []
    | .key =>
      skip
      let k ←
        if ← meets [.value, .flowEntry, .flowMappingEnd] then nothing
        else node n false false
      let v ←
        if ← meets [.value] then
          skip
          if ← meets [.flowEntry, .flowMappingEnd] then nothing
          else node n false false
        else nothing
      return (k, v) :: (← flowEntries n false)
    | _ =>
      let k ← node n false false
      let v ← nothing
      return (k, v) :: (← flowEntries n false)

end

/-- The directions in front of a document: at most one version, which must be
1.1 or 1.2, and each handle once. -/
def directives : Nat → Bool → Build Unit
  | 0, _ => failure
  | n + 1, versioned => do
    match ← peek with
    | .version major minor =>
      require (!versioned && major = 1 && (minor = 1 || minor = 2))
      skip
      directives n true
    | .tagDirective handle expansion =>
      require (((← get).handles.lookup handle).isNone)
      modify fun s => { s with handles := s.handles ++ [(handle, expansion)] }
      skip
      directives n versioned
    | _ => return ()

/-- Whether a token belongs to the frame of a document rather than its
nodes. -/
def isDocumentToken : Token → Bool
  | .version _ _ | .tagDirective _ _ => true
  | .documentStart | .documentEnd | .streamEnd => true
  | _ => false

/-- The only document of a stream: without a mark in front, or after
directions and a mark. -/
def single (fuel : Nat) : Build Node := do
  match ← peek with
  | .streamEnd =>
    let _ ← grow 1
    return .void
  | .version _ _ | .tagDirective _ _ | .documentStart =>
    directives fuel false
    require (← meets [.documentStart])
    skip
    if isDocumentToken (← peek) then nothing else node fuel true false
  | _ => node fuel true false

/-- The document that a list of tokens forms. After it only marks of its end
may follow. No token needs more than a few calls. -/
def ofTokens? (tokens : List Token) : Option Document := do
  let start : Building := ⟨tokens, [], [], [], 0, []⟩
  let (root, s) ← (single (3 * tokens.length + 3)).run start
  if s.tokens.dropWhile (· = .documentEnd) = [.streamEnd] then
    return ⟨root, s.places, s.nodes, s.size⟩
  else none

/-- The document of a text that holds exactly one. -/
def ofText? (text : String) : Option Document := (tokens? text).bind ofTokens?

end Document

end TaskRouting.Yaml
