import TaskRouting.Content
import TaskRouting.Yaml.Node
/-!
What a scalar of YAML means when nothing else says so.

A plain scalar is null, a truth value, a whole number, a number with a
fraction, or else a text. Whole numbers are decimal, hexadecimal, octal or
binary; a decimal one with a zero in front is a text. A tag of the core schema
says what the scalar must be.
-/

namespace TaskRouting.Yaml

/-- The ways to write null. -/
def isNull (s : String) : Bool :=
  s = "~" || s = "null" || s = "Null" || s = "NULL"

/-- The ways to write a truth value. -/
def bool? (s : String) : Option Bool :=
  if s = "true" ∨ s = "True" ∨ s = "TRUE" then some true
  else if s = "false" ∨ s = "False" ∨ s = "FALSE" then some false
  else none

-- ======================================================= whole numbers

/-- Digits in a base, at least one. -/
def digits? (base : Nat) (ds : List Char) : Option Nat :=
  if ds.isEmpty then none
  else ds.foldl (fun acc c => do
    let d ← Text.hexValue? c
    if d < base then return (← acc) * base + d else none) (some 0)

/-- Digits after the mark of their base. -/
def marked? : List Char → Option Nat
  | '0' :: 'x' :: ds => digits? 16 ds
  | '0' :: 'o' :: ds => digits? 8 ds
  | '0' :: 'b' :: ds => digits? 2 ds
  | _ => none

/-- More than one decimal digit, the first of them a zero. -/
def hasLeadingZero (ds : List Char) : Bool :=
  ds.head? = some '0' && 1 < ds.length && ds.all Char.isDigit

/-- The text after a plus sign, or all of it. -/
def afterPlus : List Char → List Char
  | '+' :: rest => rest
  | s => s

/-- A whole number that is not negative. -/
def natural? (s : List Char) : Option Nat :=
  let ds := afterPlus s
  match marked? ds with
  | some n => some n
  | none => if hasLeadingZero ds then none else digits? 10 ds

/-- The digits after a minus sign, as a whole number. -/
def negated? : List Char → Option Nat
  | '-' :: ds =>
    match marked? ds with
    | some n => some n
    | none => if hasLeadingZero ds then none else digits? 10 ds
  | _ => none

-- ============================================= numbers with a fraction

/-- The ways to write an infinity, and what is not a number. -/
def infinite? (s : String) : Option Binary64 :=
  if s = ".inf" ∨ s = ".Inf" ∨ s = ".INF" then some (.infinity false)
  else if s = "+.inf" ∨ s = "+.Inf" ∨ s = "+.INF" then some (.infinity false)
  else if s = "-.inf" ∨ s = "-.Inf" ∨ s = "-.INF" then some (.infinity true)
  else if s = ".nan" ∨ s = ".NaN" ∨ s = ".NAN" then some .notANumber
  else none

/-- The power of ten after an exponent mark; zero without one. -/
def exponent? : List Char → Option Int
  | [] => some 0
  | c :: rest =>
    if c = 'e' ∨ c = 'E' then
      match rest with
      | '+' :: ds => (digits? 10 ds).map fun n => (n : Int)
      | '-' :: ds => (digits? 10 ds).map fun n => -(n : Int)
      | ds => (digits? 10 ds).map fun n => (n : Int)
    else none

/-- A decimal number with digits before or after its point, rounded to the
nearest. -/
def decimal? (negative : Bool) (s : List Char) : Option Binary64 := do
  let (whole, rest) := s.span Char.isDigit
  let (part, rest) := match rest with
    | '.' :: rest => rest.span Char.isDigit
    | rest => ([], rest)
  let ds ← digits? 10 (whole ++ part)
  let e ← exponent? rest
  let x := Binary64.ofDecimal negative ds (e - part.length)
  if x.isFinite then return x else none

/-- A number with a fraction. -/
def float? (s : String) : Option Binary64 :=
  match infinite? s with
  | some x => some x
  | none =>
    match s.toList with
    | '-' :: rest => decimal? true rest
    | s => decimal? false (afterPlus s)

-- ============================================================= scalars

/-- A whole number of at most 128 bits: nothing when the text is none, and an
error when it does not fit into 64 bits, with its sign or without. -/
def wholeContent? (s : List Char) : Option (Option Content) :=
  match natural? s, negated? s with
  | some n, _ =>
    if n < twoTo 64 then some (some (.natural n))
    else if n < twoTo 128 then some none else none
  | none, some n =>
    if n ≤ twoTo 63 then some (some (.negated n))
    else if n ≤ twoTo 127 then some none else none
  | none, none => none

/-- What a plain scalar means. A whole number between 64 and 128 bits is an
error. -/
def plainContent? (s : String) : Option Content :=
  if s.isEmpty || isNull s then some .null
  else match bool? s with
    | some b => some (.bool b)
    | none =>
      match wholeContent? s.toList with
      | some whole => whole
      | none =>
        let digits := match s.toList with
          | '-' :: rest | '+' :: rest => rest
          | ds => ds
        if hasLeadingZero digits then some (.text s)
        else match float? s with
          | some x => some (.float x)
          | none => some (.text s)

/-- Whether a tag names something of the document's own, which has no meaning
here. -/
def isNamed (tag : Option Tag) : Bool := (tag.bind Tag.localName?).isSome

/-- What a scalar means. A local tag that names nothing counts as none, and a
tag of another schema makes it a text. -/
def scalarContent? (text : String) (style : Style) (tag : Option Tag) :
    Option Content :=
  if isNamed tag then none
  else match tag.filter (!·.isLocal) with
    | none => if style = .plain then plainContent? text else some (.text text)
    | some tag =>
      if tag = .core "bool" then (bool? text).map .bool
      else if tag = .core "int" then (wholeContent? text.toList).join
      else if tag = .core "float" then (float? text).map .float
      else if tag = .core "null" then
        (if isNull text then some .null else none)
      else some (.text text)

end TaskRouting.Yaml
