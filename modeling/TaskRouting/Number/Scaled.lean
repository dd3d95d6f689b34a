import TaskRouting.Number.Binary64
/-!
Decimal numbers read by one multiplication or division.

The digits are gathered in a word of 64 bits until one more would overflow it;
the word, rounded to a floating point number, is then scaled by a power of
ten. The result may differ from the nearest number in its last bit, which is
the price of the simple rule. Digits after the point that no longer fit are
dropped; digits before the point that no longer fit still count as tens.
-/

namespace TaskRouting

/-- A number as its digits so far: `significand · 10 ^ exponent`. -/
structure Scaled where
  significand : Nat
  exponent : Int
  /-- A digit has not fitted any more. -/
  full : Bool
  deriving DecidableEq

namespace Scaled

/-- The value of a decimal digit. -/
def digitValue (c : Char) : Nat := c.toNat - '0'.toNat

/-- Whether one more digit still fits into 64 bits. -/
def fits (significand : Nat) (c : Char) : Bool :=
  significand * 10 + digitValue c < twoTo 64

/-- Takes a digit before the point. -/
def whole (s : Scaled) (c : Char) : Scaled :=
  if !s.full && fits s.significand c then
    { s with significand := s.significand * 10 + digitValue c }
  else { s with exponent := s.exponent + 1, full := true }

/-- Takes the digits after the point, up to the first that does not fit. -/
def decimals (s : Scaled) : List Char → Scaled
  | [] => s
  | c :: rest =>
    if fits s.significand c then
      decimals { s with significand := s.significand * 10 + digitValue c,
                        exponent := s.exponent - 1 } rest
    else s

/-- The digits before the point. -/
def ofDigits (digits : List Char) : Scaled := digits.foldl whole ⟨0, 0, false⟩

/-- The largest power of ten that is scaled by at once. -/
def largestPower : Nat := 308

/-- Scales by a power of ten; none when the number is too large. A number that
is divided by more than the largest power is divided by that power first;
after a few divisions nothing is left. -/
def scale : Nat → Binary64 → Int → Option Binary64
  | 0, x, _ => some x
  | n + 1, x, e =>
    if e.natAbs ≤ largestPower then
      let power := Binary64.ofDecimal false 1 e.natAbs
      -- Neither the power nor what comes of it need be exact, so the number
      -- is not always the one nearest to the text.
      if 0 ≤ e then
        let y := x.mul power
        if y.isInfinite then none else some y
      else some (x.div power)
    else if x.isZero then some x
    else if 0 ≤ e then none
    else scale n (x.div (Binary64.ofDecimal false 1 largestPower))
      (e + largestPower)

/-- The floating point number, if it is not too large. -/
def toBinary64? (negative : Bool) (s : Scaled) : Option Binary64 :=
  (scale 4 (Binary64.ofInt s.significand) s.exponent).map fun x =>
    if negative then x.neg else x

end Scaled

end TaskRouting
