import TaskRouting.Json.Basic
import TaskRouting.Number.Shortest
import TaskRouting.Text.Quoted
/-!
The text of a JSON value, on one line or indented.

Strings keep every character but the quote, the backslash and the control
characters. Indented text gives each item and each member a line of its own,
two blanks deeper than the bracket that holds it; an empty array or object
stays on its line.
-/

namespace TaskRouting.Json

/-- A four-digit escape of a control character. -/
def controlEscape (c : Char) : String :=
  let digits := Nat.toDigits 16 c.toNat
  "\\u" ++ String.ofList (List.replicate (4 - digits.length) '0' ++ digits)

/-- One character of a string as it is written. -/
def writtenChar (c : Char) : String :=
  if c = '"' then "\\\""
  else if c = '\\' then "\\\\"
  else if c = '\n' then "\\n"
  else if c = '\r' then "\\r"
  else if c = '\t' then "\\t"
  else if c.toNat = 8 then "\\b"
  else if c.toNat = 12 then "\\f"
  else if c.toNat < 32 then controlEscape c
  else c.toString

/-- A string as it is written, in quotes. -/
def writtenString (s : String) : String :=
  "\"" ++ String.join (s.toList.map writtenChar) ++ "\""

/-- The text of a value that holds no other value. -/
def writtenScalar : Json → String
  | .null => "null"
  | .bool b => if b then "true" else "false"
  | .int n => toString n
  | .float x => x.value.text
  | .string s => writtenString s
  | .array _ => "[]"
  | .object _ => "\x7b\x7d"

mutual

/-- A text with the value after it, on one line and without blanks. -/
def compactAfter (text : String) : Json → String
  | .array items => compactItems (text ++ "[") items ++ "]"
  | .object members => compactMembers (text ++ "\x7b") members ++ "\x7d"
  | v => text ++ writtenScalar v

/-- A text with items after it, with commas between them. -/
def compactItems (text : String) : List Json → String
  | [] => text
  | [v] => compactAfter text v
  | v :: rest => compactItems (compactAfter text v ++ ",") rest

/-- A text with members after it, with commas between them. -/
def compactMembers (text : String) : List (String × Json) → String
  | [] => text
  | [(k, v)] => compactAfter (text ++ writtenString k ++ ":") v
  | (k, v) :: rest =>
    compactMembers (compactAfter (text ++ writtenString k ++ ":") v ++ ",")
      rest

end

/-- The value on one line, without blanks. -/
def compact (v : Json) : String := compactAfter "" v

/-- A line break and the blanks of a nesting depth. -/
def newLine (depth : Nat) : String :=
  "\n" ++ String.ofList (List.replicate (2 * depth) ' ')

mutual

/-- The value with a line for each item and member, at a nesting depth. -/
def pretty (depth : Nat) : Json → String
  | .array [] => "[]"
  | .array items =>
    "[" ++ newLine (depth + 1) ++ prettyItems (depth + 1) items
      ++ newLine depth ++ "]"
  | .object [] => "\x7b\x7d"
  | .object members =>
    "\x7b" ++ newLine (depth + 1) ++ prettyMembers (depth + 1) members
      ++ newLine depth ++ "\x7d"
  | v => writtenScalar v

/-- The items of an array, each on its own line. -/
def prettyItems (depth : Nat) : List Json → String
  | [] => ""
  | [v] => pretty depth v
  | v :: rest =>
    pretty depth v ++ "," ++ newLine depth ++ prettyItems depth rest

/-- The members of an object, each on its own line. -/
def prettyMembers (depth : Nat) : List (String × Json) → String
  | [] => ""
  | [(k, v)] => writtenString k ++ ": " ++ pretty depth v
  | (k, v) :: rest =>
    writtenString k ++ ": " ++ pretty depth v ++ "," ++ newLine depth
      ++ prettyMembers depth rest

end

end TaskRouting.Json
