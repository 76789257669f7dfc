import ProtoNames.Number.Binary64

/-!
Binary64 numbers as text.

A finite number is written with the fewest decimal digits that read back to it; of two
such decimals the nearer one is taken, and the even one if both are equally near. The
digits are written out around a point if the first of them stands for a power of ten from
`-4` to `15`, and with an exponent otherwise.
-/

namespace ProtoNames.Number

/-- A decimal: its digits, read as a natural number, times ten to the power `exponent`. -/
structure Decimal where
  digits : Nat
  exponent : Int
  deriving DecidableEq, Repr

namespace Decimal

/-- The digits as text. -/
def digitChars (d : Decimal) : List Char := Nat.toDigits 10 d.digits

/-- The power of ten that the first digit stands for. -/
def leadingExponent (d : Decimal) : Int := d.exponent + d.digitChars.length - 1

/-- The magnitude that a decimal reads as. -/
def magnitude (d : Decimal) : Nat :=
  Binary64.magnitudeOfDecimal d.digits d.digitChars.length d.exponent

end Decimal

namespace Binary64

/-- The value of a finite magnitude, as a fraction. -/
def fractionOf (magnitude : Nat) : Nat × Nat :=
  let field := magnitude / Nat.pow 2 52
  let rest := magnitude % Nat.pow 2 52
  if field = 0 then (rest, Nat.pow 2 1074)
  else scale (rest + Nat.pow 2 52) 1 (1075 - (field : Int))

/-- The exponent of the largest power of ten not above `num / den`. -/
def floorLog10 (num den : Nat) : Int :=
  let guess : Int := ((Nat.toDigits 10 num).length : Int) - (Nat.toDigits 10 den).length
  if den * Nat.pow 10 guess.toNat ≤ num * Nat.pow 10 (-guess).toNat then guess else guess - 1

/-- The multiples of ten to the power `exponent` on either side of `num / den`, the nearer
one first, and of two equally near ones the even one. -/
def neighbours (num den : Nat) (exponent : Int) : List Decimal :=
  let n := num * Nat.pow 10 (-exponent).toNat
  let d := den * Nat.pow 10 exponent.toNat
  let below : Decimal := ⟨n / d, exponent⟩
  let above : Decimal := ⟨n / d + 1, exponent⟩
  if roundDiv n d == n / d then [below, above] else [above, below]

/-- The decimal with the fewest digits that reads as a positive finite magnitude.
Seventeen digits are always enough. -/
def shortest (magnitude : Nat) : Decimal :=
  let (num, den) := fractionOf magnitude
  let leading := floorLog10 num den
  let found? := (List.range 17).findSome? fun (further : Nat) =>
    (neighbours num den (leading - (further : Int))).find? fun d => d.magnitude == magnitude
  found?.getD ⟨0, 0⟩

end Binary64

/-! ### Layout -/

namespace Decimal

/-- The digits without zeros at the end. -/
def significant (d : Decimal) : List Char :=
  (d.digitChars.reverse.dropWhile (· == '0')).reverse

/-- Digits with a point behind the first `whole` of them. At least one digit stands on
either side. -/
def withPoint (whole : Nat) (digits : List Char) : List Char :=
  let front := digits.take whole
  let back := digits.drop whole
  front ++ List.replicate (whole - front.length) '0' ++
    '.' :: (if back.isEmpty then ['0'] else back)

/-- An exponent: sign and two digits at least. -/
def exponentText (e : Int) : List Char :=
  let digits := Nat.toDigits 10 e.natAbs
  (if e < 0 then '-' else '+') :: List.replicate (2 - digits.length) '0' ++ digits

/-- A positive decimal as text. -/
def text (d : Decimal) : List Char :=
  let e := d.leadingExponent
  if e < -4 ∨ 16 ≤ e then
    let mantissa :=
      match d.significant with
      | first :: c :: more => first :: '.' :: c :: more
      | digits => digits
    mantissa ++ 'e' :: exponentText e
  else if e < 0 then '0' :: '.' :: List.replicate (-e - 1).toNat '0' ++ d.significant
  else withPoint (e.toNat + 1) d.significant

end Decimal

/-- A number as text. Zero keeps its sign. -/
def Binary64.text (x : Binary64) : String :=
  let sign := if x.negative then "-" else ""
  if x.isNaN then "nan"
  else if x.magnitude = Binary64.infinite then sign ++ "inf"
  else if x.magnitude = 0 then sign ++ "0.0"
  else sign ++ String.ofList (Binary64.shortest x.magnitude).text

end ProtoNames.Number
