import ProtoNames.Number.Binary64
import ProtoNames.Number.Numeral

/-!
Number literals of a schema.

An integer literal is decimal, hexadecimal (`0x`) or octal (a leading zero), with a
sign allowed in front. A floating-point literal is a decimal with optional point and
exponent, an infinity or a NaN. Where either will do, the integer reading wins.
Blanks around a literal are ignored.
-/

namespace ProtoNames.Number

open Text

/-- What a literal should have been. -/
inductive Target
  | int
  | double
  deriving DecidableEq, Repr

/-- The name of a target in messages. -/
def Target.name : Target → String
  | .int => "int"
  | .double => "double"

/-- Why a literal has no value. -/
inductive LiteralError
  | empty (target : Target)
  | malformed (literal : String) (target : Target)
  deriving DecidableEq, Repr

/-- The words for a literal error. -/
def LiteralError.message : LiteralError → String
  | .empty target => "Couldn't convert empty string to " ++ target.name ++ "."
  | .malformed literal target => "Couldn't convert '" ++ literal ++ "' to " ++ target.name ++ "."

/-- The value of an unsigned integer literal. What stands after the mark of the
notation is read leniently, see `signedNumeral?`. -/
def unsignedLiteral? : List Char → Option Int
  | '0' :: 'x' :: digits => signedNumeral? 16 digits
  | '0' :: 'X' :: digits => signedNumeral? 16 digits
  | '0' :: c :: digits => signedNumeral? 8 (c :: digits)
  | digits => signedNumeral? 10 digits

/-- The value of an integer literal. -/
def readInt (literal : String) : Except LiteralError Int :=
  let value := trim literal.toList
  if value.isEmpty then .error (.empty .int)
  else
    let (negative, digits) := splitSign value
    match unsignedLiteral? digits with
    | some n => .ok (withSign negative n)
    | none => .error (.malformed (String.ofList value) .int)

/-- Drops the underscores, each of which must stand between two decimal digits. -/
def dropUnderscores? (afterDigit : Bool) : List Char → Option (List Char)
  | [] => some []
  | '_' :: c :: rest =>
    if afterDigit && c.isDigit then (dropUnderscores? true rest).map (c :: ·) else none
  | c :: rest =>
    if c == '_' then none else (dropUnderscores? c.isDigit rest).map (c :: ·)

/-- The digits after an `e`, with a sign allowed. -/
def exponent? (cs : List Char) : Option Int :=
  let (negative, digits) := splitSign cs
  if digits.isEmpty || !digits.all Char.isDigit then none
  else some (withSign negative (Nat.ofDigitChars 10 digits 0))

/-- The value of an unsigned decimal with optional point and exponent. -/
def decimal? (negative : Bool) (cs : List Char) : Option Binary64 := do
  let whole := cs.takeWhile Char.isDigit
  let afterWhole := cs.dropWhile Char.isDigit
  let (fraction, tail) :=
    match afterWhole with
    | '.' :: more => (more.takeWhile Char.isDigit, more.dropWhile Char.isDigit)
    | _ => ([], afterWhole)
  let digits := whole ++ fraction
  if digits.isEmpty then none
  else
    let exponent ←
      match tail with
      | [] => some 0
      | c :: more => if c == 'e' || c == 'E' then exponent? more else none
    let significant := digits.dropWhile (· == '0')
    some (Binary64.ofDecimal negative (Nat.ofDigitChars 10 significant 0) significant.length
      (exponent - fraction.length))

/-- The value of a floating-point literal without blanks around it. -/
def floating? (value : List Char) : Option Binary64 := do
  let ascii ← dropUnderscores? false (value.map plain)
  let (negative, body) := splitSign ascii
  match String.ofList (body.map Char.toLower) with
  | "inf" | "infinity" => some ⟨negative, Binary64.infinite⟩
  | "nan" => some Binary64.nan
  | _ => decimal? negative body

/-- The value of a floating-point literal. -/
def readDouble (literal : String) : Except LiteralError Binary64 :=
  let value := trim literal.toList
  if value.isEmpty then .error (.empty .double)
  else
    match floating? value with
    | some x => .ok x
    | none => .error (.malformed (String.ofList value) .double)

end ProtoNames.Number

namespace ProtoNames

/-- A number of either sort. -/
inductive Number
  | int (n : Int)
  | double (x : Number.Binary64)
  deriving DecidableEq, Repr

namespace Number

/-- The negative of a number. -/
def neg : Number → Number
  | .int n => .int (-n)
  | .double x => .double (-x)

instance : Neg Number := ⟨neg⟩

/-- The value of a number literal: an integer if it reads as one, else a double. -/
def readNumber (literal : String) : Except LiteralError Number :=
  match readInt literal with
  | .ok n => .ok (.int n)
  | .error _ => (readDouble literal).map .double

end Number

end ProtoNames
