import TaskRouting.Text.UppercaseTable
/-!
Texts compared without regard to case and to blanks around them.

A text is taken as its characters. `upper` replaces each character by its
upper-case form, which may be longer than one character; `trim` drops blanks
at both ends; `position?` finds the first place at which a word occurs.
-/

namespace TaskRouting.Text

/-- The blank characters, as ranges of code points. -/
def blankRanges : List (Nat × Nat) := [
  (0x9, 0xD), (0x20, 0x20), (0x85, 0x85), (0xA0, 0xA0), (0x1680, 0x1680),
  (0x2000, 0x200A), (0x2028, 0x2029), (0x202F, 0x202F), (0x205F, 0x205F),
  (0x3000, 0x3000)]

/-- Whether a code point lies in one of some ranges. -/
def within (ranges : List (Nat × Nat)) (c : Char) : Bool :=
  ranges.any fun r => r.1 ≤ c.toNat && c.toNat ≤ r.2

/-- Whether a character is blank. -/
def isBlank (c : Char) : Bool := within blankRanges c

/-- The text without the blanks at its ends. -/
def trim (s : List Char) : List Char :=
  ((s.dropWhile isBlank).reverse.dropWhile isBlank).reverse

/-- The upper-case form of one character; a character without one stands for
itself. -/
def upperForm (c : Char) : List Char :=
  match caseExpansions.find? (·.1 == c.toNat) with
  | some (_, form) => form.map Char.ofNat
  | none =>
    match caseRuns.find? (·.takes c.toNat) with
    | some run => [Char.ofNat ((c.toNat : Int) + run.shift).toNat]
    | none => [c]

/-- The text in upper case. -/
def upper (s : List Char) : List Char := s.flatMap upperForm

/-- Whether the text begins with the word. -/
def beginsWith (word : List Char) (s : List Char) : Bool := word.isPrefixOf s

/-- How many characters stand before the first occurrence of the word. The
empty word occurs at the very start of any text. -/
def position? (word : List Char) : List Char → Option Nat
  | [] => if word.isEmpty then some 0 else none
  | c :: rest =>
    if beginsWith word (c :: rest) then some 0
    else (position? word rest).map (· + 1)

end TaskRouting.Text
