import TaskRouting.Text.DisplayTable
import TaskRouting.Text.Hexadecimal
import TaskRouting.Text.Uppercase
/-!
Texts in double quotes, and lists of them.

A quoted text shows every character that has a shape of its own. The quote,
the backslash and the common control characters are escaped by a backslash;
every other character without a shape, and every character that would attach
itself to the one before, is written by its number.
-/

namespace TaskRouting.Text

/-- One character as it stands between quotes. -/
def quotedChar (c : Char) : String :=
  if c = '"' then "\\\""
  else if c = '\\' then "\\\\"
  else if c = '\n' then "\\n"
  else if c = '\r' then "\\r"
  else if c = '\t' then "\\t"
  else if c.toNat = 0 then "\\0"
  else if [graphemeExtendRanges, fillerRanges, unprintableRanges].any
    (within · c) then
    "\\u\x7b" ++ hexDigits c.toNat ++ "\x7d"
  else c.toString

/-- The text in double quotes. -/
def quoted (s : String) : String :=
  "\"" ++ String.join (s.toList.map quotedChar) ++ "\""

/-- Texts between a pair of marks, separated by commas. -/
def enclosed (opening closing : String) (parts : List String) : String :=
  opening ++ String.intercalate ", " parts ++ closing

/-- Quoted texts in square brackets. -/
def quotedList (texts : List String) : String :=
  enclosed "[" "]" (texts.map quoted)

end TaskRouting.Text
