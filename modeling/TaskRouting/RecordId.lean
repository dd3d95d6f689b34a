import TaskRouting.Json.Fields
/-!
Identifiers of stored records: 128 bits, written as thirty-two hexadecimal
digits.

An identifier is written in lower case in groups of 8, 4, 4, 4 and 12 digits.
It is read in either case, with the groups or as one run of digits; a grouped
identifier may stand in braces or after the name of its URN scheme, which has
no case either.
-/

namespace TaskRouting

/-- The identifier of a record. -/
structure RecordId where
  digits : List (Fin 16)
  length_eq : digits.length = 32
  deriving DecidableEq

namespace RecordId

/-- A digit as it is written, in lower case. -/
def hexDigit (d : Fin 16) : Char :=
  if d.val < 10 then Char.ofNat (d.val + 48) else Char.ofNat (d.val + 87)

/-- The digit that a character writes, in either case. -/
def hexDigit? (c : Char) : Option (Fin 16) :=
  if h : 48 ≤ c.toNat ∧ c.toNat < 58 then some ⟨c.toNat - 48, by omega⟩
  else if h : 97 ≤ c.toNat ∧ c.toNat < 103 then some ⟨c.toNat - 87, by omega⟩
  else if h : 65 ≤ c.toNat ∧ c.toNat < 71 then some ⟨c.toNat - 55, by omega⟩
  else none

/-- The identifier that thirty-two digits write. -/
def ofDigits? (digits : List Char) : Option RecordId := do
  let ds ← digits.mapM hexDigit?
  if h : ds.length = 32 then return ⟨ds, h⟩ else none

/-- Takes the hyphens out of five groups of digits. -/
def ungroup? (s : List Char) : Option (List Char) :=
  if s.length = 36 ∧ [8, 13, 18, 23].all (fun i => s[i]? = some '-') then
    some (s.take 8 ++ (s.drop 9).take 4 ++ (s.drop 14).take 4
      ++ (s.drop 19).take 4 ++ s.drop 24)
  else none

/-- The letters in front of a grouped identifier that is given as a URN. -/
def urnScheme : List Char := "urn:uuid:".toList

/-- The identifier that a text writes. Its length tells in which form. -/
def parse? (s : String) : Option RecordId :=
  let cs := s.toList
  if cs.length = 32 then ofDigits? cs
  else if cs.length = 36 then (ungroup? cs).bind ofDigits?
  else if cs.length = 38 ∧ cs.head? = some '\x7b'
    ∧ cs.getLast? = some '\x7d' then
    (ungroup? ((cs.drop 1).take 36)).bind ofDigits?
  else if (cs.take urnScheme.length).map Char.toLower = urnScheme then
    (ungroup? (cs.drop urnScheme.length)).bind ofDigits?
  else none

/-- The identifier as it is written, in groups. -/
def text (id : RecordId) : String :=
  let cs := id.digits.map hexDigit
  String.ofList <|
    cs.take 8 ++ '-' :: (cs.drop 8).take 4 ++ '-' :: (cs.drop 12).take 4
      ++ '-' :: (cs.drop 16).take 4 ++ '-' :: cs.drop 20

/-- The digits of a number in base sixteen, the last of them, most significant
first. -/
def lastDigits : Nat → Nat → List (Fin 16)
  | 0, _ => []
  | width + 1, n => lastDigits width (n / 16) ++ [⟨n % 16, by omega⟩]

/-- There are as many digits as are asked for. -/
theorem length_lastDigits (width n : Nat) :
    (lastDigits width n).length = width := by
  induction width generalizing n with
  | zero => rfl
  | succ w ih => simp [lastDigits, ih]

/-- The identifier of the record with a serial number. The digits that tell
the kind of identifier are those of one drawn at random. -/
def ofSerial (n : Nat) : RecordId where
  digits := lastDigits 12 0 ++ [4] ++ lastDigits 3 0 ++ [8] ++ lastDigits 3 0
    ++ lastDigits 12 n
  length_eq := by simp [length_lastDigits]

/-- An identifier is written as its text. -/
def toJson (id : RecordId) : Json := .string id.text

/-- Reads an identifier from its text. -/
def ofJson? (v : Json) : Option RecordId := v.string?.bind parse?

end RecordId

end TaskRouting
