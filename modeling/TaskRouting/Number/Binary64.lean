import TaskRouting.Number.Power
/-!
Floating point numbers of 64 bits, kept as their bit pattern.

Two numbers are the same here when their bits are, which tells 0.0 from -0.0
and makes equality decidable. A finite number is
`± significand · 2 ^ exponent`; `ofRatio` and `ofDecimal` go the other way and
round to the nearest number, a tie to the one with an even significand, in
exact integer arithmetic. Sums, products and quotients are the machine's own.
-/

namespace TaskRouting

/-- A floating point number in the 64-bit binary interchange format. -/
structure Binary64 where
  bits : UInt64
  deriving DecidableEq, Inhabited

namespace Binary64

/-- The sign bit. -/
def negative (x : Binary64) : Bool := twoTo 63 ≤ x.bits.toNat

/-- The eleven exponent bits. -/
def biased (x : Binary64) : Nat := x.bits.toNat / twoTo 52 % twoTo 11

/-- The fifty-two bits after the leading one. -/
def fraction (x : Binary64) : Nat := x.bits.toNat % twoTo 52

/-- Neither infinite nor not-a-number. -/
def isFinite (x : Binary64) : Bool := x.biased ≠ 2047

/-- Whether the number is infinite, with either sign. -/
def isInfinite (x : Binary64) : Bool := x.biased = 2047 ∧ x.fraction = 0

/-- Whether the number is zero, with either sign. -/
def isZero (x : Binary64) : Bool := x.biased = 0 ∧ x.fraction = 0

/-- The whole number in `± significand · 2 ^ exponent`. -/
def significand (x : Binary64) : Nat :=
  if x.biased = 0 then x.fraction else x.fraction + twoTo 52

/-- The power of two in `± significand · 2 ^ exponent`. -/
def exponent (x : Binary64) : Int :=
  if x.biased = 0 then -1074 else (x.biased : Int) - 1075

/-- The pattern of a sign and the sixty-three bits below it. -/
def ofMagnitude (negative : Bool) (magnitude : Nat) : Binary64 :=
  ⟨UInt64.ofNat (if negative then magnitude + twoTo 63 else magnitude)⟩

/-- The zero without a sign. -/
def zero : Binary64 := ofMagnitude false 0

/-- The bits of an infinite number, less the sign. -/
def infiniteMagnitude : Nat := 2047 * twoTo 52

/-- The infinite number with a sign. -/
def infinity (negative : Bool) : Binary64 :=
  ofMagnitude negative infiniteMagnitude

/-- The number that stands for no number. -/
def notANumber : Binary64 := ofMagnitude false (infiniteMagnitude + twoTo 51)

/-- Rounds `num / den` to a whole number, a tie to the even one. -/
def roundHalfEven (num den : Nat) : Nat :=
  let q := num / den
  let r := num % den
  if den < 2 * r ∨ (2 * r = den ∧ q % 2 = 1) then q + 1 else q

/-- The bits, less the sign, of the number nearest to `num / den`. The
exponent is chosen so that the significand has fifty-three bits, or as small
as the format allows; rounding up to the next power of two then carries into
the exponent bits by itself. -/
def ratioMagnitude (num den : Nat) : Nat :=
  if num = 0 ∨ den = 0 then 0
  else
    -- The logarithms are rounded down, so the guess may be one too small;
    -- then the quotient has fifty-four bits.
    let guess : Int := (num.log2 : Int) - den.log2 - 53
    let scaled (e : Int) : Nat × Nat :=
      (num * twoTo (-e).toNat, den * twoTo e.toNat)
    let wide := let (n, d) := scaled guess; twoTo 53 ≤ n / d
    let e := max (if wide then guess + 1 else guess) (-1074)
    let (n, d) := scaled e
    let q := roundHalfEven n d
    -- Below `2 ^ 52` the number is subnormal, with exponent bits of zero.
    let magnitude := if q < twoTo 52 then q
        else ((e + 1075).toNat - 1) * twoTo 52 + q
    min magnitude infiniteMagnitude

/-- The number nearest to a ratio, with a sign. -/
def ofRatio (negative : Bool) (num den : Nat) : Binary64 :=
  ofMagnitude negative (ratioMagnitude num den)

/-- The number of decimal digits of a whole number. -/
def digitCount (n : Nat) : Nat := (Nat.toDigits 10 n).length

/-- The number nearest to `± digits · 10 ^ exponent`. Beyond the format's
range the power of ten is not worked out. -/
def ofDecimal (negative : Bool) (digits : Nat) (exponent : Int) : Binary64 :=
  let leading := (digitCount digits : Int) + exponent
  if digits = 0 ∨ leading < -400 then ofMagnitude negative 0
  else if 400 < leading then infinity negative
  else ofRatio negative (digits * tenTo exponent.toNat)
    (tenTo (-exponent).toNat)

/-- The number nearest to a whole number. -/
def ofInt (n : Int) : Binary64 := ofRatio (n < 0) n.natAbs 1

/-- The number with the other sign. -/
def neg (x : Binary64) : Binary64 :=
  ofMagnitude (!x.negative) (x.bits.toNat % twoTo 63)

/-- The sum, rounded by the machine. -/
def add (x y : Binary64) : Binary64 :=
  ⟨(Float.ofBits x.bits + Float.ofBits y.bits).toBits⟩

/-- The product, rounded by the machine. -/
def mul (x y : Binary64) : Binary64 :=
  ⟨(Float.ofBits x.bits * Float.ofBits y.bits).toBits⟩

/-- The quotient, rounded by the machine. -/
def div (x y : Binary64) : Binary64 :=
  ⟨(Float.ofBits x.bits / Float.ofBits y.bits).toBits⟩

end Binary64

/-- A floating point number that is neither infinite nor not-a-number. -/
structure Finite64 where
  value : Binary64
  finite : value.isFinite = true
  deriving DecidableEq

end TaskRouting
