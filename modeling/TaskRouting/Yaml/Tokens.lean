import TaskRouting.Yaml.Scalar
/-!
Cutting a YAML text into tokens.

The block structure of a text is given by its indentation. Whenever a line
stands deeper than the block around it a token opens a new block, and whenever
it stands less deep tokens close the blocks that it leaves. A mapping without
brackets shows only when the colon after its first key is met, so a place that
may turn out to begin a key is remembered (`KeyPlace`), and the tokens that
announce the key are put in there afterwards. Such a key must lie on one line
and be short.
-/

namespace TaskRouting.Yaml

/-- A place at which a key may have begun. -/
structure KeyPlace where
  /-- The number of the token that may be the key. -/
  number : Nat
  /-- Whether nothing else than a key may stand there. -/
  required : Bool
  cursor : Cursor

namespace KeyPlace

/-- How many bytes a key may take. -/
def longestKey : Nat := 1024

/-- Whether a place is too far back for a key that ends at a cursor. -/
def stale (k : KeyPlace) (c : Cursor) : Bool :=
  k.cursor.line < c.line || k.cursor.index + longestKey < c.index

end KeyPlace

/-- The state of cutting a text into tokens. -/
structure Scan where
  cursor : Cursor
  tokens : Array Token
  /-- Whether a key may begin here. -/
  keyAllowed : Bool
  /-- The column of the block that is open, -1 outside of all. -/
  indent : Int
  /-- The columns of the blocks around it. -/
  outer : List Int
  /-- The place at which a key may have begun, for each level of brackets, the
  innermost first. -/
  keys : List (Option KeyPlace)

namespace Scan

/-- What takes part of the text, if it can be cut there. -/
abbrev Step := StateT Scan Option

/-- The state before the first token. -/
def start (text : List Char) : Scan :=
  { cursor := .ofText text
    tokens := #[]
    keyAllowed := true
    indent := -1
    outer := []
    keys := [none] }

/-- Whether a bracket is open. -/
def inFlow (s : Scan) : Bool :=
  match s.keys with
  | _ :: _ :: _ => true
  | _ => false

/-- Adds a token after those found so far. -/
def emit (t : Token) : Step Unit :=
  modify fun s => { s with tokens := s.tokens.push t }

/-- Goes on to another place. -/
def moveTo (c : Cursor) : Step Unit := modify fun s => { s with cursor := c }

/-- Goes on by some characters of the same line. -/
def skip (n : Nat) : Step Unit :=
  modify fun s => { s with cursor := s.cursor.advance n }

/-- Says whether a key may begin here. -/
def allowKey (b : Bool) : Step Unit :=
  modify fun s => { s with keyAllowed := b }

/-- Fails unless a condition holds. -/
def require (b : Bool) : Step Unit := if b then pure () else failure

-- ========================================================= indentation

/-- Opens a block at a column that is deeper than the open one. The token that
says so goes to the end, or in front of the token with a number. -/
def roll (column : Nat) (number : Option Nat) (t : Token) : Step Unit :=
  modify fun s =>
  if s.inFlow || (column : Int) ≤ s.indent then s
  else
    { s with
      indent := column, outer := s.indent :: s.outer
      tokens := s.tokens.insertIdxIfInBounds (number.getD s.tokens.size) t }

/-- Closes the blocks that are deeper than a column. -/
def unrollBlocks (column : Int) :
    Int → List Int → Array Token → Int × List Int × Array Token
  | indent, outer, tokens =>
    match outer with
    | [] => (indent, [], tokens)
    | i :: rest =>
      if column < indent then
        unrollBlocks column i rest (tokens.push .blockEnd)
      else (indent, outer, tokens)
termination_by _ outer _ => outer.length

/-- Closes the blocks that are deeper than a column; within brackets none
is. -/
def unroll (column : Int) : Step Unit := modify fun s =>
  if s.inFlow then s
  else
    let (indent, outer, tokens) :=
      unrollBlocks column s.indent s.outer s.tokens
    { s with indent, outer, tokens }

-- ================================================================ keys

/-- The innermost place, unless it is too far back. One that must begin a key
may not be. -/
def keyPlace? : Step (Option KeyPlace) := do
  let s ← get
  match s.keys.head?.bind id with
  | some place =>
    if place.stale s.cursor then
      require !place.required
      return none
    else return some place
  | none => return none

/-- Forgets the innermost place; one that must begin a key is an error. -/
def dropKey : Step Unit := do
  let s ← get
  require !((s.keys.head?.bind id).any (·.required))
  set { s with keys := none :: s.keys.drop 1 }

/-- Remembers that a key may begin here. -/
def markKey : Step Unit := do
  let s ← get
  if s.keyAllowed then
    dropKey
    let place : KeyPlace := {
      number := s.tokens.size
      -- At the column of the open block nothing but a key may stand.
      required := !s.inFlow && s.indent == (s.cursor.column : Int)
      cursor := s.cursor }
    modify fun s => { s with keys := some place :: s.keys.drop 1 }

-- ================================================= blanks and comments

/-- Goes past blanks, comments and line ends, and past a byte order mark at
the start of a line. A tab is no blank where a key may begin; the end of a
line outside brackets lets a key begin. -/
def skipGap : Nat → Scan → Scan
  | 0, s => s
  | n + 1, s =>
    let c :=
      if s.cursor.column = 0 && s.cursor.isAt '\ufeff'
      then s.cursor.advance 1 else s.cursor
    let tabs := s.inFlow || !s.keyAllowed
    let c :=
      (c.skipWhile fun ch => ch = ' ' || (tabs && ch = '\t')).skipComment
    if c.has isBreak 0 then
      skipGap n { s with
        cursor := c.skipBreak
        keyAllowed := s.keyAllowed || !s.inFlow }
    else { s with cursor := c }

-- =========================================== directives, anchors, tags

/-- Characters up to the first without a property, at least one. -/
def word (p : Char → Bool) : Step (List Char) := do
  let (w, c) := (← get).cursor.takeWhile p
  require !w.isEmpty
  moveTo c
  return w

/-- Goes past spaces and tabs. -/
def skipBlanks : Step Unit :=
  modify fun s => { s with cursor := s.cursor.skipWhile isBlank }

/-- Takes a certain character. -/
def expect (ch : Char) : Step Unit := do
  require ((← get).cursor.isAt ch)
  skip 1

/-- A number of a version, of at most nine digits. -/
def versionNumber : Step Nat := do
  let ds ← word Char.isDigit
  require (ds.length ≤ 9)
  return ds.foldl (fun n c => n * 10 + (c.toNat - '0'.toNat)) 0

/-- A character of a tag, of a tag in angle brackets if so said. -/
def isTagChar (verbatim : Bool) (c : Char) : Bool :=
  isWordChar c || ";/?:@&=+$.%!~*'()".toList.contains c
    || (verbatim && ",[]".toList.contains c)

/-- Puts the bytes that percent signs introduce in place. The bytes of a
character must follow one another, and the first of them tells how many they
are. -/
def unescapeTag : Nat → List UInt8 → List Char → Option (List UInt8)
  | 0, _, _ => none
  | _, acc, [] => some acc.reverse
  | n + 1, acc, '%' :: rest => do
    let first ← hexNumber? 2 rest
    let width ←
      if first < 0x80 then some 1
      else if 0xC0 ≤ first ∧ first < 0xE0 then some 2
      else if 0xE0 ≤ first ∧ first < 0xF0 then some 3
      else if 0xF0 ≤ first ∧ first < 0xF8 then some 4
      else none
    let (acc, rest) ← (List.range (width - 1)).foldlM (fun (acc, rest) _ =>
      match rest with
      | '%' :: rest => do
        let b ← hexNumber? 2 rest
        if b / 64 = 2 then some (UInt8.ofNat b :: acc, rest.drop 2) else none
      | _ => none) (UInt8.ofNat first :: acc, rest.drop 2)
    unescapeTag n acc rest
  | n + 1, acc, c :: rest =>
    unescapeTag n ((String.singleton c).toUTF8.toList.reverse ++ acc) rest

/-- A tag after some characters in front of it. -/
def tagText (verbatim : Bool) (front : List Char) (mayBeEmpty : Bool) :
    Step Tag := do
  let (w, c) := (← get).cursor.takeWhile (isTagChar verbatim)
  require (mayBeEmpty || !w.isEmpty)
  moveTo c
  let bytes ← liftM (unescapeTag (w.length + 1) [] w)
  return (Tag.ofString (String.ofList front)).append (Tag.ofBytes bytes)

/-- An exclamation mark, a name, and perhaps another exclamation mark. -/
def tagHandle : Step (List Char) := do
  expect '!'
  let (w, c) := (← get).cursor.takeWhile isWordChar
  moveTo c
  if c.isAt '!' then
    skip 1
    return '!' :: w ++ ['!']
  else return '!' :: w

/-- A line of directions to the reader, after its percent sign. -/
def directive : Step Unit := do
  let name ← word isWordChar
  require ((← get).cursor.gapAt 0)
  skipBlanks
  if String.ofList name = "YAML" then
    let major ← versionNumber
    expect '.'
    let minor ← versionNumber
    emit (.version major minor)
  else if String.ofList name = "TAG" then
    let handle ← tagHandle
    require (handle = ['!'] || handle.getLast? == some '!')
    require ((← get).cursor.has isBlank 0)
    skipBlanks
    let expansion ← tagText true [] false
    require ((← get).cursor.gapAt 0)
    emit (.tagDirective (String.ofList handle) expansion)
  else failure
  let c := ((← get).cursor.skipWhile isBlank).skipComment
  require (c.lineEndsAt 0)
  moveTo c.skipBreak

/-- The name of an anchor or alias, after its sign. -/
def anchorName : Step String := do
  skip 1
  let name ← word isWordChar
  let c := (← get).cursor
  require (c.gapAt 0 || c.has
    (fun ch => "?:,]\x7d%@".toList.contains ch || ch = '\x60') 0)
  return String.ofList name

/-- A tag: in angle brackets, or a handle with a suffix, or a suffix alone. -/
def tagToken : Step Token := do
  let t ←
    if (← get).cursor.sees '<' 1 then
      skip 2
      let suffix ← tagText true [] false
      expect '>'
      pure (Token.tag "" suffix)
    else
      let handle ← tagHandle
      if 1 < handle.length && handle.getLast? == some '!' then
        let suffix ← tagText false [] false
        pure (Token.tag (String.ofList handle) suffix)
      else
        let suffix ← tagText false (handle.drop 1) true
        pure (if suffix.isEmpty then Token.tag "" Tag.bare
          else Token.tag "!" suffix)
  let s ← get
  require (s.cursor.gapAt 0 || (s.inFlow && s.cursor.isAt ','))
  return t

-- ============================================================== tokens

/-- Closes everything that is open before a mark of the whole stream. -/
def closeAll : Step Unit := do
  unroll (-1)
  dropKey
  allowKey false

/-- The end of the text, which closes all blocks. -/
def streamEnd : Step Unit := do
  modify fun s =>
    if s.cursor.column = 0 then s
    else
      { s with cursor :=
        { s.cursor with line := s.cursor.line + 1, column := 0 } }
  closeAll
  emit .streamEnd

/-- A mark of three characters, which closes all blocks. -/
def documentMark (t : Token) : Step Unit := do
  closeAll
  skip 3
  emit t

/-- A bracket that opens. It may begin a key, and inside it a key may begin at
another place of its own. -/
def openFlow (t : Token) : Step Unit := do
  markKey
  modify fun s => { s with keys := none :: s.keys }
  allowKey true
  skip 1
  emit t

/-- A bracket that closes. -/
def closeFlow (t : Token) : Step Unit := do
  dropKey
  modify fun s => if s.inFlow then { s with keys := s.keys.drop 1 } else s
  allowKey false
  skip 1
  emit t

/-- A comma, after which a key may begin. -/
def flowEntry : Step Unit := do
  dropKey
  allowKey true
  skip 1
  emit .flowEntry

/-- Outside brackets an indicator may stand only where a key may, and opens a
block if it stands deeper than the open one. -/
def openBlock (t : Token) : Step Unit := do
  let s ← get
  if !s.inFlow then
    require s.keyAllowed
    roll s.cursor.column none t

/-- A hyphen in front of an item of a sequence. -/
def blockEntry : Step Unit := do
  openBlock .blockSequenceStart
  dropKey
  allowKey true
  skip 1
  emit .blockEntry

/-- A question mark in front of a key. -/
def explicitKey : Step Unit := do
  openBlock .blockMappingStart
  dropKey
  allowKey !(← get).inFlow
  skip 1
  emit .key

/-- A colon: after a place at which a key has begun the key is announced
there. -/
def valueMark : Step Unit := do
  match ← keyPlace? with
  | some place =>
    modify fun s =>
      { s with tokens := s.tokens.insertIdxIfInBounds place.number .key }
    -- The beginning of the mapping goes to the same place, and so comes
    -- before the key.
    roll place.cursor.column (some place.number) .blockMappingStart
    modify fun s => { s with keys := none :: s.keys.drop 1 }
    allowKey false
  | none =>
    openBlock .blockMappingStart
    allowKey !(← get).inFlow
  skip 1
  emit .value

/-- The name of a node or a reference to one; a key may begin with it. -/
def anchorToken (make : String → Token) : Step Unit := do
  markKey
  allowKey false
  let name ← anchorName
  emit (make name)

/-- A tag, with which a key may begin. -/
def tagMark : Step Unit := do
  markKey
  allowKey false
  let t ← tagToken
  emit t

/-- A scalar in a block of lines, after which a key may begin. -/
def blockScalarToken (literal : Bool) (bound : Nat) : Step Unit := do
  dropKey
  allowKey true
  let s ← get
  let (text, c) ← blockScalar literal s.indent bound (s.cursor.advance 1)
  moveTo c
  emit (.scalar text (if literal then .literal else .folded))

/-- A scalar in quotes, which may itself be a key. -/
def quotedToken (single : Bool) (bound : Nat) : Step Unit := do
  markKey
  allowKey false
  let c := (← get).cursor.advance 1
  let (text, c) ← quotedScalar single bound [] c
  moveTo c
  emit (.scalar text .quoted)

/-- A scalar without quotes, which may itself be a key. If it went over a line
end, a key may begin after it. -/
def plainToken (bound : Nat) : Step Unit := do
  markKey
  allowKey false
  let s ← get
  let (text, newLine, c) ←
    plainScalar s.inFlow (s.indent + 1) bound [] Gap.empty s.cursor
  moveTo c
  if newLine then allowKey true
  emit (.scalar text .plain)

/-- Characters that begin no plain scalar, whatever follows them. -/
def isIndicator (c : Char) : Bool :=
  ",[]\x7b\x7d#&*!|>'\"%@".toList.contains c || c = '\x60'

/-- Whether a plain scalar begins here. -/
def beginsPlain (s : Scan) : Bool :=
  match s.cursor.rest with
  | [] => false
  | ch :: rest =>
    if isBlank ch || isBreak ch || isIndicator ch then false
    else if ch = '-' then !(rest.head?.any isBlank)
    else if ch = '?' || ch = ':' then
      !s.inFlow && rest.head?.any (fun d => !(isBlank d || isBreak d))
    else true

/-- The tokens that begin at the next character that is no blank. True after
the last. The bound is more than the length of the rest of the text. -/
def next (bound : Nat) : Step Bool := do
  modify (skipGap bound)
  unroll (← get).cursor.column
  -- The blocks that end are closed first, so that every token below finds
  -- the block to which it belongs.
  let s ← get
  let c := s.cursor
  if c.atEnd then
    streamEnd
    return true
  if c.column = 0 && c.isAt '%' then
    closeAll
    skip 1
    directive
  else if c.marks '-' then documentMark .documentStart
  else if c.marks '.' then documentMark .documentEnd
  else if c.isAt '[' then openFlow .flowSequenceStart
  else if c.isAt '\x7b' then openFlow .flowMappingStart
  else if c.isAt ']' then closeFlow .flowSequenceEnd
  else if c.isAt '\x7d' then closeFlow .flowMappingEnd
  else if c.isAt ',' then flowEntry
  else if c.isAt '-' && c.gapAt 1 then blockEntry
  else if c.isAt '?' && (s.inFlow || c.gapAt 1) then explicitKey
  else if c.isAt ':' && (s.inFlow || c.gapAt 1) then valueMark
  else if c.isAt '*' then anchorToken .alias
  else if c.isAt '&' then anchorToken .anchor
  else if c.isAt '!' then tagMark
  else if c.isAt '|' && !s.inFlow then blockScalarToken true bound
  else if c.isAt '>' && !s.inFlow then blockScalarToken false bound
  else if c.isAt '\'' then quotedToken true bound
  else if c.isAt '"' then quotedToken false bound
  else if beginsPlain s then plainToken bound
  else failure
  return false

/-- All tokens. Each step but the last takes a character. -/
def all : Nat → Step Unit
  | 0 => failure
  | n + 1 => do if ← next (n + 1) then return () else all n

end Scan

/-- The tokens of a text, if it has only characters that are allowed and can
be cut into tokens. -/
def tokens? (text : String) : Option (List Token) := do
  let chars := text.toList
  if chars.all isAllowed then
    let (_, s) ← (Scan.all (chars.length + 2)).run (Scan.start chars)
    return s.tokens.toList
  else none

end TaskRouting.Yaml
