/-!
Hexadecimal digits.

A character that has no shape of its own is written by its number in base
sixteen, in lower case. Such numbers are read in either case, both after a
backslash in JSON and in the escapes, tags and whole numbers of YAML.
-/

namespace TaskRouting.Text

/-- The lower-case hexadecimal digits of a number. -/
def hexDigits (n : Nat) : String := String.ofList (Nat.toDigits 16 n)

/-- The value of one hexadecimal digit, in either case. -/
def hexValue? (c : Char) : Option Nat :=
  if '0' ≤ c ∧ c ≤ '9' then some (c.toNat - '0'.toNat)
  else if 'a' ≤ c ∧ c ≤ 'f' then some (c.toNat - 'a'.toNat + 10)
  else if 'A' ≤ c ∧ c ≤ 'F' then some (c.toNat - 'A'.toNat + 10)
  else none

/-- The number that hexadecimal digits write. -/
def hexNumber? (digits : List Char) : Option Nat :=
  digits.foldl (fun acc c => do
    return (← acc) * 16 + (← hexValue? c)) (some 0)

end TaskRouting.Text
