import TaskRouting.Number.Binary64
/-!
The shortest decimal text of a floating point number.

Every real number within a certain interval rounds to the number at hand. For
one digit, two digits and so on, the two points of that decimal grid beside
the number are tried; the first grid with a point in the interval gives the
digits, and of two such points the nearer. Everything is compared in whole
numbers: both sides of `d · 10 ^ k` against `w · 2 ^ e` are cleared of
negative powers first.
-/

namespace TaskRouting

namespace Binary64

/-- A decimal number `digits · 10 ^ exponent`. -/
structure Decimal where
  digits : Nat
  exponent : Int
  deriving DecidableEq, Inhabited

/-- `w · 2 ^ e` and `d · 10 ^ k` as whole numbers on one scale. -/
def onOneScale (w : Nat) (e : Int) (d : Nat) (k : Int) : Nat × Nat :=
  (w * twoTo e.toNat * tenTo (-k).toNat, d * tenTo k.toNat * twoTo (-e).toNat)

/-- The place of the leading digit of `w · 2 ^ e`: ten to this power is the
largest power of ten that does not exceed it. -/
def leadingPlace (w : Nat) (e : Int) : Int :=
  let num := w * twoTo e.toNat
  let den := twoTo (-e).toNat
  if den ≤ num then (digitCount (num / den) : Int) - 1
  else -(digitCount ((den + num - 1) / num - 1) : Int)

/-- Quarter steps `w · 2 ^ e` of a number and the ends of the interval that
rounds to it. -/
structure Interval where
  low : Nat
  mid : Nat
  high : Nat
  exponent : Int
  closed : Bool

/-- Below a power of two the neighbouring number is only half as far away. -/
def interval (x : Binary64) : Interval :=
  let m := x.significand
  let below := if m = twoTo 52 ∧ 1 < x.biased then 1 else 2
  { low := 4 * m - below
    mid := 4 * m
    high := 4 * m + 2
    exponent := x.exponent - 2
    closed := m % 2 = 0 }

/-- Whether `d · 10 ^ k` rounds to the number. -/
def Interval.holds (i : Interval) (d : Nat) (k : Int) : Bool :=
  let (low, v) := onOneScale i.low i.exponent d k
  let (high, _) := onOneScale i.high i.exponent d k
  if i.closed then low ≤ v ∧ v ≤ high else low < v ∧ v < high

/-- Whether the upper of two neighbouring grid points is the nearer one; a tie
goes to the point with the even last digit. -/
def Interval.upperIsNearer (i : Interval) (d : Nat) (k : Int) : Bool :=
  let (v, low) := onOneScale i.mid i.exponent d k
  let (_, high) := onOneScale i.mid i.exponent (d + 1) k
  low + high < 2 * v ∨ (low + high = 2 * v ∧ d % 2 = 1)

/-- The point of the grid with step `10 ^ k` that stands for the number, if
one does. -/
def Interval.onGrid (i : Interval) (k : Int) : Option Decimal :=
  let (num, den) := onOneScale i.mid i.exponent 1 k
  let d := num / den
  match i.holds d k, i.holds (d + 1) k with
  | true, true => some ⟨if i.upperIsNearer d k then d + 1 else d, k⟩
  | true, false => some ⟨d, k⟩
  | false, true => some ⟨d + 1, k⟩
  | false, false => none

/-- Drops zeros at the end of the digits. -/
def Decimal.trim : Nat → Decimal → Decimal
  | 0, d => d
  | n + 1, d =>
    if d.digits ≠ 0 ∧ d.digits % 10 = 0 then
      trim n ⟨d.digits / 10, d.exponent + 1⟩ else d

/-- The shortest decimal that rounds to the size of a finite number. Seventeen
digits always suffice. -/
def shortest (x : Binary64) : Decimal :=
  if x.significand = 0 then ⟨0, 0⟩
  else
    let i := x.interval
    let place := leadingPlace i.mid i.exponent
    let grids := (List.range 17).map fun (n : Nat) => place - (n : Int)
    ((grids.findSome? i.onGrid).getD ⟨0, 0⟩).trim 17

/-- So many zeros. -/
def zeros (n : Nat) : String := String.ofList (List.replicate n '0')

/-- The text of a finite number: with a point from ten to the minus fifth up
to ten to the sixteenth, with an exponent outside. A whole number keeps a zero
after its point. -/
def text (x : Binary64) : String :=
  let sign := if x.negative then "-" else ""
  if x.isZero then sign ++ "0.0"
  else
    let d := x.shortest
    let ds := Nat.toDigits 10 d.digits
    let place := (ds.length : Int) + d.exponent
    let body :=
      if 0 ≤ d.exponent ∧ place ≤ 16 then
        String.ofList ds ++ zeros d.exponent.toNat ++ ".0"
      else if 0 < place ∧ place ≤ 16 then
        String.ofList (ds.take place.toNat) ++ "."
          ++ String.ofList (ds.drop place.toNat)
      else if -5 < place ∧ place ≤ 0 then
        "0." ++ zeros (-place).toNat ++ String.ofList ds
      else if ds.length = 1 then
        String.ofList ds ++ "e" ++ toString (place - 1)
      else String.ofList (ds.take 1) ++ "." ++ String.ofList (ds.drop 1)
        ++ "e" ++ toString (place - 1)
    sign ++ body

end Binary64

end TaskRouting
