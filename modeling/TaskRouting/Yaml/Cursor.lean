/-!
A place in a YAML text.

YAML cares about lines and columns: what a character means depends on how deep
its line is indented, and a key must stand on one line and be short. A cursor
is the rest of the text together with how many bytes, lines and columns lie
before it: the length of a key is counted in bytes, the depth of a line in
characters.
-/

namespace TaskRouting.Yaml

/-- A space or a tab. -/
def isBlank (c : Char) : Bool := c = ' ' || c = '\t'

/-- A character that ends a line. -/
def isBreak (c : Char) : Bool :=
  c = '\r' || c = '\n' || c = '\u0085' || c = '\u2028' || c = '\u2029'

/-- A character of a name: a letter or digit of the Latin alphabet, a hyphen
or an underscore. -/
def isWordChar (c : Char) : Bool := c.isAlphanum || c = '-' || c = '_'

/-- The characters that a text may contain: no control characters but tabs and
line ends. -/
def isAllowed (c : Char) : Bool :=
  let n := c.toNat
  n = 0x9 || n = 0xA || n = 0xD || (0x20 ≤ n && n ≤ 0x7E) || n = 0x85
    || (0xA0 ≤ n && n ≤ 0xD7FF)
    || (0xE000 ≤ n && n ≤ 0xFFFD) || 0x10000 ≤ n

/-- A place in a text. -/
structure Cursor where
  rest : List Char
  /-- How many bytes lie before. -/
  index : Nat
  line : Nat
  column : Nat

namespace Cursor

/-- How many bytes characters take. -/
def byteLength (cs : List Char) : Nat :=
  cs.foldl (fun n c => n + c.utf8Size) 0

/-- The beginning of a text. -/
def ofText (text : List Char) : Cursor := ⟨text, 0, 0, 0⟩

/-- The character so many places ahead. -/
def peek (c : Cursor) (n : Nat) : Option Char := c.rest[n]?

/-- Whether nothing is left of the text. -/
def atEnd (c : Cursor) : Bool := c.rest.isEmpty

/-- Whether a certain character comes so many places ahead. -/
def sees (c : Cursor) (ch : Char) (n : Nat) : Bool := c.peek n == some ch

/-- Whether a certain character comes next. -/
def isAt (c : Cursor) (ch : Char) : Bool := c.sees ch 0

/-- Whether the character so many places ahead exists and has a property. -/
def has (c : Cursor) (p : Char → Bool) (n : Nat) : Bool := (c.peek n).any p

/-- Whether the line ends so many places ahead. -/
def lineEndsAt (c : Cursor) (n : Nat) : Bool := (c.peek n).all isBreak

/-- Whether a blank or the end of the line comes so many places ahead. -/
def gapAt (c : Cursor) (n : Nat) : Bool :=
  (c.peek n).all fun ch => isBlank ch || isBreak ch

/-- Goes on by some characters of the same line. -/
def advance (c : Cursor) (n : Nat) : Cursor :=
  { c with
    rest := c.rest.drop n
    index := c.index + byteLength (c.rest.take n)
    column := c.column + n }

/-- Goes on while characters have a property that no line end has. -/
def skipWhile (c : Cursor) (p : Char → Bool) : Cursor :=
  c.advance (c.rest.takeWhile p).length

/-- The characters up to the first without a property, and the place after
them. -/
def takeWhile (c : Cursor) (p : Char → Bool) : List Char × Cursor :=
  let run := c.rest.takeWhile p
  (run, c.advance run.length)

/-- Goes on to the next line, after a line end of some characters. -/
def nextLine (c : Cursor) (n : Nat) : Cursor where
  rest := c.rest.drop n
  index := c.index + byteLength (c.rest.take n)
  line := c.line + 1
  column := 0

/-- Goes past a line end, if there is one. What the line end stands for: the
two separators of Unicode stand for themselves, every other one for a line
feed. -/
def takeBreak (c : Cursor) : List Char × Cursor :=
  match c.rest with
  | '\r' :: '\n' :: _ => (['\n'], c.nextLine 2)
  | ch :: _ =>
    if ch = '\u2028' ∨ ch = '\u2029' then ([ch], c.nextLine 1)
    else if isBreak ch then (['\n'], c.nextLine 1)
    else ([], c)
  | [] => ([], c)

/-- Goes past a line end, if there is one. -/
def skipBreak (c : Cursor) : Cursor := c.takeBreak.2

/-- Goes past a comment, if there is one. -/
def skipComment (c : Cursor) : Cursor :=
  if c.isAt '#' then c.skipWhile fun ch => !isBreak ch else c

/-- Whether a line begins here with three times a certain character and
nothing attached. -/
def marks (c : Cursor) (ch : Char) : Bool :=
  c.column == 0 && c.sees ch 0 && c.sees ch 1 && c.sees ch 2 && c.gapAt 3

/-- Whether the line begins or ends a document. -/
def atDocumentMark (c : Cursor) : Bool := c.marks '-' || c.marks '.'

end Cursor

end TaskRouting.Yaml
