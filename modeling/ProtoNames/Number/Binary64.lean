/-!
Numbers of the IEEE 754 format binary64, and the rounding of decimals to them.

A number is its sign and the other 63 bits, the *magnitude*, read as a natural
number: for finite numbers of one sign the order of the magnitudes is the order of
the numbers, and the magnitude after the largest finite one is infinity.
`Binary64.ofDecimal` rounds to nearest, ties to the even magnitude, in exact
arithmetic.
-/

namespace ProtoNames.Number

/-- A binary64 number by its bits. -/
structure Binary64 where
  negative : Bool
  /-- The 63 bits below the sign. -/
  magnitude : Nat
  deriving DecidableEq, Repr

namespace Binary64

/-- The magnitude of infinity; greater ones are not numbers. -/
def infinite : Nat := 0x7FF0000000000000

/-- Infinity. -/
def infinity : Binary64 := ⟨false, infinite⟩

/-- Not a number. -/
def nan : Binary64 := ⟨false, 0x7FF8000000000000⟩

/-- Whether `x` is not a number. -/
def isNaN (x : Binary64) : Bool := x.magnitude > infinite

/-- The other sign. -/
def neg (x : Binary64) : Binary64 := { x with negative := !x.negative }

instance : Neg Binary64 := ⟨neg⟩

/-- All 64 bits. -/
def bits (x : Binary64) : Nat :=
  if x.negative then Nat.pow 2 63 + x.magnitude else x.magnitude

/-- The natural number nearest to `num / den`, the even one of two. -/
def roundDiv (num den : Nat) : Nat :=
  let q := num / den
  let r := num % den
  if 2 * r < den then q
  else if den < 2 * r then q + 1
  else q + q % 2

/-- `num / den` times two to the power `-k`, as a fraction. -/
def scale (num den : Nat) (k : Int) : Nat × Nat :=
  (num * Nat.pow 2 (-k).toNat, den * Nat.pow 2 k.toNat)

/-- The exponent of the largest power of two not above `num / den`. -/
def floorLog2 (num den : Nat) : Int :=
  let guess : Int := (num.log2 : Int) - den.log2
  let (n, d) := scale num den guess
  if d ≤ n then guess else guess - 1

/-- The magnitude nearest to the positive fraction `num / den`. The spacing of the
numbers around it is two to the power `q`. -/
def magnitudeOfFraction (num den : Nat) : Nat :=
  let q := max (floorLog2 num den - 52) (-1074)
  let (n, d) := scale num den q
  min ((q + 1074).toNat * Nat.pow 2 52 + roundDiv n d) infinite

/-- The magnitude nearest to `digits` times ten to the power `exponent`, where
`digits` has `count` decimal digits, leading zeros not counted. -/
def magnitudeOfDecimal (digits count : Nat) (exponent : Int) : Nat :=
  if digits = 0 then 0
  else if 310 < exponent + count then infinite
  else if exponent + count < -330 then 0
  else magnitudeOfFraction (digits * Nat.pow 10 exponent.toNat) (Nat.pow 10 (-exponent).toNat)

/-- The number nearest to a decimal: `digits`, of `count` decimal digits without
leading zeros, times ten to the power `exponent`. -/
def ofDecimal (negative : Bool) (digits count : Nat) (exponent : Int) : Binary64 :=
  ⟨negative, magnitudeOfDecimal digits count exponent⟩

end Binary64

end ProtoNames.Number
