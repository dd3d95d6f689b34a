import TaskRouting.Json.Fields
import TaskRouting.Text.Uppercase
/-!
Instants of time, to the nanosecond.

An instant is kept as its date and time of day in universal time. It is
written with as many decimals of a second as it needs, in groups of three, and
with the letter that stands for universal time. It is read with any offset
from universal time, and blanks between its parts are passed over. A leap
second is the second before it with a thousand million nanoseconds or more.
-/

namespace TaskRouting

/-- A date and a time of day. -/
structure Civil where
  year : Int
  month : Nat
  day : Nat
  hour : Nat
  minute : Nat
  second : Nat
  nano : Nat
  deriving DecidableEq

namespace Civil

/-- Every fourth year has a leap day, but of the hundreds only every
fourth. -/
def isLeapYear (year : Int) : Bool :=
  year % 4 = 0 ∧ (year % 100 ≠ 0 ∨ year % 400 = 0)

/-- The number of days in a month of a year. -/
def daysInMonth (year : Int) (month : Nat) : Nat :=
  if month = 2 then (if isLeapYear year then 29 else 28)
  else if month = 4 ∨ month = 6 ∨ month = 9 ∨ month = 11 then 30
  else 31

/-- The number of nanoseconds in a second. -/
def nanosPerSecond : Nat := tenTo 9

/-- A day of the calendar within the years that are kept, and a second of that
day. -/
def Valid (c : Civil) : Prop :=
  (-262143 ≤ c.year ∧ c.year ≤ 262142) ∧ (1 ≤ c.month ∧ c.month ≤ 12)
    ∧ (1 ≤ c.day ∧ c.day ≤ daysInMonth c.year c.month)
    ∧ c.hour < 24 ∧ c.minute < 60 ∧ c.second < 60
    ∧ (c.nano < nanosPerSecond
      ∨ (c.second = 59 ∧ c.nano < 2 * nanosPerSecond))

instance (c : Civil) : Decidable c.Valid := by unfold Valid; infer_instance

/-- The same time on the next day. -/
def nextDay (c : Civil) : Civil :=
  if c.day < daysInMonth c.year c.month then { c with day := c.day + 1 }
  else if c.month < 12 then { c with month := c.month + 1, day := 1 }
  else { c with year := c.year + 1, month := 1, day := 1 }

/-- The same time on the day before. -/
def previousDay (c : Civil) : Civil :=
  if 1 < c.day then { c with day := c.day - 1 }
  else if 1 < c.month then
    { c with month := c.month - 1, day := daysInMonth c.year (c.month - 1) }
  else { c with year := c.year - 1, month := 12, day := 31 }

/-- So many minutes earlier; less than a day either way. -/
def earlier (c : Civil) (minutes : Int) : Civil :=
  let m : Int := c.hour * 60 + c.minute - minutes
  let moved :=
    if m < 0 then c.previousDay
    else if 1440 ≤ m then c.nextDay else c
  let m := (m % 1440).toNat
  { moved with hour := m / 60, minute := m % 60 }

end Civil

/-- An instant, as its date and time of day in universal time. -/
structure Instant where
  civil : Civil
  valid : civil.Valid
  deriving DecidableEq

namespace Instant

-- ============================================================= writing

/-- The decimal digits of a number, with zeros in front up to a width. -/
def padded (width n : Nat) : String :=
  let ds := Nat.toDigits 10 n
  String.ofList (List.replicate (width - ds.length) '0' ++ ds)

/-- Years of four digits stand alone, all others after their sign. -/
def yearText (year : Int) : String :=
  if 0 ≤ year ∧ year ≤ 9999 then padded 4 year.toNat
  else (if year < 0 then "-" else "+") ++ padded 4 year.natAbs

/-- The decimals of a second, in as many groups of three as are needed. -/
def decimalsText (nano : Nat) : String :=
  if nano = 0 then ""
  else if nano % 1000000 = 0 then "." ++ padded 3 (nano / 1000000)
  else if nano % 1000 = 0 then "." ++ padded 6 (nano / 1000)
  else "." ++ padded 9 nano

/-- The instant as it is written, in universal time. A leap second has the
number 60. -/
def text (i : Instant) : String :=
  let c := i.civil
  let leap := Civil.nanosPerSecond ≤ c.nano
  let second := if leap then c.second + 1 else c.second
  let nano := if leap then c.nano - Civil.nanosPerSecond else c.nano
  yearText c.year ++ "-" ++ padded 2 c.month ++ "-" ++ padded 2 c.day
    ++ "T" ++ padded 2 c.hour ++ ":" ++ padded 2 c.minute
    ++ ":" ++ padded 2 second ++ decimalsText nano ++ "Z"

-- ============================================================= reading

/-- The text from its first character that is no blank. -/
def skipBlanks (s : List Char) : List Char := s.dropWhile Text.isBlank

/-- The number that decimal digits write. -/
def digitsValue (ds : List Char) : Nat :=
  ds.foldl (fun n c => n * 10 + (c.toNat - '0'.toNat)) 0

/-- At least one digit. -/
def digits? (s : List Char) : Option (Nat × List Char) :=
  let (ds, rest) := s.span Char.isDigit
  if ds.isEmpty then none else some (digitsValue ds, rest)

/-- At least one digit and at most so many. -/
def digitsUpTo? (width : Nat) (s : List Char) : Option (Nat × List Char) := do
  let ds := (s.take width).takeWhile Char.isDigit
  if ds.isEmpty then none else some (digitsValue ds, s.drop ds.length)

/-- A year: up to four digits, or any number of digits after a sign. -/
def year? (s : List Char) : Option (Int × List Char) :=
  match skipBlanks s with
  | '-' :: rest => (digits? rest).map fun (n, rest) => (-(n : Int), rest)
  | '+' :: rest => (digits? rest).map fun (n, rest) => ((n : Int), rest)
  | s => (digitsUpTo? 4 s).map fun (n, rest) => ((n : Int), rest)

/-- A number of up to two digits within bounds, blanks before it passed
over. -/
def part? (low high : Nat) (s : List Char) : Option (Nat × List Char) := do
  let (n, rest) ← digitsUpTo? 2 (skipBlanks s)
  if low ≤ n ∧ n ≤ high then some (n, rest) else none

/-- A mark between two parts, blanks before it passed over. -/
def mark? (c : Char) (s : List Char) : Option (List Char) :=
  match skipBlanks s with
  | d :: rest => if d = c then some rest else none
  | [] => none

/-- Decimals of a second; beyond the ninth they are passed over. -/
def decimals? : List Char → Option (Nat × List Char)
  | '.' :: rest => do
    let (ds, rest) := rest.span Char.isDigit
    if ds.isEmpty then none
    let kept := ds.take 9
    some (digitsValue kept * tenTo (9 - kept.length), rest)
  | s => some (0, s)

/-- Exactly two digits. -/
def twoDigits? : List Char → Option (Nat × List Char)
  | a :: b :: rest =>
    if a.isDigit && b.isDigit then some (digitsValue [a, b], rest) else none
  | _ => none

/-- The offset from universal time in minutes: a letter or name for none, or
hours and minutes after a sign. -/
def offset? (s : List Char) : Option (Int × List Char) :=
  if ((s.take 3).map Char.toUpper) = ['U', 'T', 'C'] then some (0, s.drop 3)
  else match s with
    | 'Z' :: rest | 'z' :: rest => some (0, rest)
    | sign :: rest => do
      let negative ←
        if sign = '+' then some false
        else if sign = '-' ∨ sign = '−' then some true
        else none
      let (h, rest) ← twoDigits? rest
      let (m, rest) ← twoDigits?
          (rest.dropWhile fun c => c = ':' || Text.isBlank c)
      if h < 24 ∧ m < 60 then
        let minutes : Int := h * 60 + m
        some (if negative then -minutes else minutes, rest)
      else none
    | [] => none

/-- The instant of a date and time, if there is such a date and time. -/
def ofCivil? (c : Civil) : Option Instant :=
  if h : c.Valid then some ⟨c, h⟩ else none

/-- The instant that a text writes. The date and time must be valid both as
they are written and in universal time. -/
def parse? (s : String) : Option Instant := do
  let (year, s) ← year? s.toList
  let s ← mark? '-' s
  let (month, s) ← part? 1 12 s
  let s ← mark? '-' s
  let (day, s) ← part? 1 31 s
  let s ← match s with
    | c :: rest => if c = 't' ∨ c = 'T' ∨ c = ' ' then some rest else none
    | [] => none
  let (hour, s) ← part? 0 23 s
  let s ← mark? ':' s
  let (minute, s) ← part? 0 59 s
  let s ← mark? ':' s
  let (second, s) ← part? 0 60 s
  let (nano, s) ← decimals? s
  let (offset, s) ← offset? (skipBlanks s)
  if !(skipBlanks s).isEmpty then none
  -- Second 60 is read in any minute; whether there was a leap second then is
  -- not asked.
  let leap := second = 60
  let moment : Civil := {
    year, month, day, hour, minute
    second := if leap then 59 else second
    nano := if leap then nano + Civil.nanosPerSecond else nano }
  let _ ← ofCivil? moment
  ofCivil? (moment.earlier offset)

/-- An instant is written as its text. -/
def toJson (i : Instant) : Json := .string i.text

/-- Reads an instant from its text. -/
def ofJson? (v : Json) : Option Instant := v.string?.bind parse?

/-- The first instant of the year 1970. -/
def epoch : Instant := ⟨⟨1970, 1, 1, 0, 0, 0, 0⟩, by decide⟩

instance : Inhabited Instant := ⟨epoch⟩

end Instant

end TaskRouting
