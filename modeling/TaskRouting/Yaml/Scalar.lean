import TaskRouting.Text.Hexadecimal
import TaskRouting.Yaml.Token
/-!
Scalars of YAML, read from their first character to the place after them.

Inside plain and quoted scalars a run of blanks and line ends is a `Gap`: on
one line it stands for itself; across lines the first line end becomes a
space, or gives way to the empty lines after it. Block scalars keep or join
whole lines of a common indentation.

Text that is still being read is held with its end first, so that reading on
costs no more than what is read. Each reader takes a bound on its length; the
rest of the text is always shorter than that.
-/

namespace TaskRouting.Yaml

-- ================================================================ gaps

/-- Blanks and line ends between two words of a scalar. -/
structure Gap where
  /-- Blanks of the first line, the latest first. -/
  blanks : List Char
  /-- The first line end. -/
  first : List Char
  /-- The line ends after the first, the latest first. -/
  more : List Char
  /-- Whether a line has ended. -/
  broken : Bool

namespace Gap

/-- No gap at all. -/
def empty : Gap := ⟨[], [], [], false⟩

/-- What the gap stands for. -/
def fold (g : Gap) : List Char :=
  if g.broken then
    if g.first.head? = some '\n' then
      (if g.more.isEmpty then [' '] else g.more.reverse)
    else g.first ++ g.more.reverse
  else g.blanks.reverse

/-- Reads on to the end of the gap. Where an indentation is required, a tab
before it is an error. -/
def read (indent : Option Int) : Nat → Gap → Cursor → Option (Gap × Cursor)
  | 0, g, c => some (g, c)
  | n + 1, g, c =>
    match c.rest with
    | [] => some (g, c)
    | ch :: _ =>
      if isBlank ch then
        if g.broken && ch = '\t'
          && indent.any (fun i => (c.column : Int) < i) then none
        else read indent n (if g.broken then g
          else { g with blanks := ch :: g.blanks }) (c.advance 1)
      else if isBreak ch then
        let (lineEnd, c) := c.takeBreak
        if g.broken then
          read indent n { g with more := lineEnd.reverse ++ g.more } c
        else
          read indent n
            { g with blanks := [], first := lineEnd, broken := true } c
      else some (g, c)

end Gap

-- ======================================================= plain scalars

/-- The flow indicators that end a plain scalar within brackets. -/
def endsFlow (c : Char) : Bool :=
  c = ',' || c = '[' || c = ']' || c = '\x7b' || c = '\x7d'

/-- The length of the next word of a plain scalar, of which some characters
are known: up to a blank, a line end, or a colon that ends a key. Within
brackets an indicator ends the word too, but may not follow a colon. -/
def plainWord? (flow : Bool) (known : Nat) : List Char → Option Nat
  | [] => some known
  | c :: rest =>
    if isBlank c || isBreak c then some known
    else if flow && c = ':'
      && rest.head?.any (fun d => d = '?' || endsFlow d) then none
    else if c = ':' && rest.head?.all (fun d => isBlank d || isBreak d)
      then some known
    else if flow && endsFlow c then some known
    else plainWord? flow (known + 1) rest

/-- Reads a plain scalar: its text, whether it was left at the start of a
line, and the place after it. A comment, a document mark or a line that is not
indented enough ends it. -/
def plainScalar (flow : Bool) (indent : Int) :
    Nat → List Char → Gap → Cursor → Option (String × Bool × Cursor)
  | 0, _, _, _ => none
  | n + 1, text, gap, c => do
    if c.atDocumentMark || c.isAt '#' then
      some (String.ofList text.reverse, gap.broken, c)
    else
      let len ← plainWord? flow 0 c.rest
      let word := c.rest.take len
      -- The gap before a word becomes text only once the word is there, so
      -- that blanks at the end of the scalar are no part of it.
      let text := if len = 0 then text
          else word.reverse ++ (gap.fold.reverse ++ text)
      let gap := if len = 0 then gap else Gap.empty
      let c := c.advance len
      if c.atEnd || !c.gapAt 0 then
        some (String.ofList text.reverse, gap.broken, c)
      else
        let (gap, c) ← gap.read (some indent) (n + 1) c
        if !flow && (c.column : Int) < indent then
          some (String.ofList text.reverse, gap.broken, c)
        else plainScalar flow indent n text gap c

-- ====================================================== quoted scalars

/-- The number that the next hexadecimal digits write. -/
def hexNumber? (count : Nat) (text : List Char) : Option Nat :=
  let digits := text.take count
  if digits.length = count then
    Text.hexNumber? digits
  else none

/-- The character that a letter after a backslash stands for. -/
def namedEscape? (c : Char) : Option Char :=
  match c with
  | '0' => some (Char.ofNat 0)
  | 'a' => some (Char.ofNat 7)
  | 'b' => some (Char.ofNat 8)
  | 't' | '\t' => some '\t'
  | 'n' => some '\n'
  | 'v' => some (Char.ofNat 11)
  | 'f' => some (Char.ofNat 12)
  | 'r' => some '\r'
  | 'e' => some (Char.ofNat 27)
  | ' ' => some ' '
  | '"' => some '"'
  | '/' => some '/'
  | '\\' => some '\\'
  | 'N' => some '\u0085'
  | '_' => some '\u00a0'
  | 'L' => some '\u2028'
  | 'P' => some '\u2029'
  | _ => none

/-- How many digits follow a letter that introduces a character by its
number. -/
def escapeWidth? : Char → Option Nat
  | 'x' => some 2
  | 'u' => some 4
  | 'U' => some 8
  | _ => none

/-- The character that an escape stands for, and the length of the escape
after its backslash. -/
def escape? : List Char → Option (Char × Nat)
  | [] => none
  | c :: rest =>
    match namedEscape? c with
    | some ch => some (ch, 1)
    | none => do
      let width ← escapeWidth? c
      let n ← hexNumber? width rest
      if n.isValidChar then some (Char.ofNat n, width + 1) else none

/-- Reads one word of a quoted scalar after some text: the text with the word,
whether a line end after it was escaped, and the place after it. -/
def quotedWord (single : Bool) :
    Nat → List Char → Cursor → Option (List Char × Bool × Cursor)
  | 0, _, _ => none
  | n + 1, text, c =>
    match c.rest with
    | [] => some (text, false, c)
    | ch :: rest =>
      if isBlank ch || isBreak ch then some (text, false, c)
      -- Two single quotes are one quote of the text.
      else if single && ch = '\'' && rest.head? = some '\'' then
        quotedWord single n ('\'' :: text) (c.advance 2)
      else if ch = (if single then '\'' else '"') then some (text, false, c)
      else if !single && ch = '\\' && rest.head?.any isBreak then
        some (text, true, (c.advance 1).skipBreak)
      else if !single && ch = '\\' then do
        let (e, len) ← escape? rest
        quotedWord single n (e :: text) (c.advance (len + 1))
      else quotedWord single n (ch :: text) (c.advance 1)

/-- Reads a quoted scalar after its opening quote: its text and the place
after the closing one. A document mark inside is an error. -/
def quotedScalar (single : Bool) :
    Nat → List Char → Cursor → Option (String × Cursor)
  | 0, _, _ => none
  | n + 1, text, c => do
    if c.atDocumentMark || c.atEnd then none
    else
      let (text, escaped, c) ← quotedWord single (n + 1) text c
      if c.isAt (if single then '\'' else '"') then
        some (String.ofList text.reverse, c.advance 1)
      else
        -- An escaped line end leaves nothing of itself: the gap begins as
        -- one whose line has ended already, with nothing to stand for it.
        let (gap, c) ← Gap.read none (n + 1)
            { Gap.empty with broken := escaped } c
        quotedScalar single n (gap.fold.reverse ++ text) c

-- ======================================================= block scalars

/-- What becomes of the line ends at the end of a block scalar. -/
inductive Chomping where
  | strip
  | clip
  | keep
  deriving DecidableEq

/-- The header of a block scalar: what becomes of its end, and its indentation
if it is given. -/
structure BlockHeader where
  chomping : Chomping
  indent : Option Nat

/-- The sign that says what becomes of the line ends after a block scalar. -/
def chomping? (c : Cursor) : Option Chomping :=
  if c.isAt '+' then some .keep else if c.isAt '-' then some .strip else none

/-- An indentation of one to nine. -/
def indentDigit? (c : Cursor) : Option (Option Nat × Cursor) :=
  match c.peek 0 with
  | some d =>
    if d.isDigit then
      if d = '0' then none else some (some (d.toNat - '0'.toNat), c.advance 1)
    else some (none, c)
  | none => some (none, c)

/-- Reads the header, which has its two parts in either order. -/
def blockHeader? (c : Cursor) : Option (BlockHeader × Cursor) := do
  match chomping? c with
  | some ch =>
    let (indent, c) ← indentDigit? (c.advance 1)
    return (⟨ch, indent⟩, c)
  | none =>
    let (indent, c) ← indentDigit? c
    match indent, chomping? c with
    | some i, some ch => return (⟨ch, some i⟩, c.advance 1)
    | _, _ => return (⟨.clip, indent⟩, c)

/-- Reads indentation and empty lines in front of a line: the line ends, the
deepest column met, and the place at which the line begins. While the
indentation is not known, all blanks count as such. A tab in the indentation
is an error. -/
def leadingLines (indent : Option Nat) :
    Nat → List Char → Nat → Cursor → Option (List Char × Nat × Cursor)
  | 0, _, _, _ => none
  | n + 1, breaks, deepest, c =>
    let blanks := (c.rest.takeWhile (· = ' ')).length
    let c := c.advance (match indent with
      | none => blanks
      | some i => min blanks (i - c.column))
    let deepest := max deepest c.column
    if indent.all (fun i => c.column < i) && c.isAt '\t' then none
    else if c.has isBreak 0 then
      let (lineEnd, c) := c.takeBreak
      leadingLines indent n (lineEnd.reverse ++ breaks) deepest c
    else some (breaks.reverse, deepest, c)

/-- What has been read of a block scalar. -/
structure BlockText where
  /-- The lines, the end of the latest first. -/
  text : List Char
  /-- The end of the latest line. -/
  lineEnd : List Char
  /-- The empty lines after it. -/
  emptyLines : List Char
  /-- Whether the latest line began with a blank. -/
  indented : Bool

/-- Reads the lines of a block scalar. Two lines are joined by a space where
neither begins with a blank and no empty line lies between them. -/
def blockLines (literal : Bool) (indent : Nat) :
    Nat → BlockText → Cursor → Option (BlockText × Cursor)
  | 0, _, _ => none
  | n + 1, b, c =>
    if c.column = indent && !c.atEnd then do
      let blank := c.has isBlank 0
      let joined := !literal && b.lineEnd.head? = some '\n'
          && !b.indented && !blank
      let between :=
        if joined then (if b.emptyLines.isEmpty then [' '] else b.emptyLines)
        else b.lineEnd ++ b.emptyLines
      let (line, c) := c.takeWhile fun ch => !isBreak ch
      let (lineEnd, c) := c.takeBreak
      let (breaks, _, c) ← leadingLines (some indent) (n + 1) [] 0 c
      let text := line.reverse ++ (between.reverse ++ b.text)
      blockLines literal indent n ⟨text, lineEnd, breaks, blank⟩ c
    else some (b, c)

/-- Reads a block scalar after its indicator: its text and the place after it.
The indentation is given from that of the surrounding block, or found from the
first line that is not empty. -/
def blockScalar (literal : Bool) (parent : Int) (bound : Nat) (c : Cursor) :
    Option (String × Cursor) := do
  let (header, c) ← blockHeader? c
  let c := (c.skipWhile isBlank).skipComment
  if !c.lineEndsAt 0 then none
  else
    let c := c.skipBreak
    -- Outside of all blocks the parent's column is -1, which counts as none.
    let given := header.indent.map fun i =>
      if 0 ≤ parent then parent.toNat + i else i
    let (breaks, deepest, c) ← leadingLines given bound [] 0 c
    let indent := given.getD (max deepest (max (parent + 1).toNat 1))
    let (b, c) ← blockLines literal indent bound ⟨[], [], breaks, false⟩ c
    let ending := match header.chomping with
      | .strip => []
      | .clip => b.lineEnd
      | .keep => b.lineEnd ++ b.emptyLines
    return (String.ofList (b.text.reverse ++ ending), c)

end TaskRouting.Yaml
