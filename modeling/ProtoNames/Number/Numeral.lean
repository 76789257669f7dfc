import ProtoNames.Text.Blank
import ProtoNames.Text.Digit

/-!
Numerals: digits in a base, read into their value.

`numeral?` reads bare digits, between which single underscores may stand.
`signedNumeral?` is lenient around them: blanks at both ends, a sign, and the mark
of the base (`0x`, `0o`) are allowed too. Decimal digits of every script count;
`plain` turns them into ASCII first.
-/

namespace ProtoNames.Number

open Text

/-- The character in ASCII: blanks and decimal digits of other scripts are replaced
by the ASCII ones, and every other foreign character by one that no numeral has. -/
def plain (c : Char) : Char :=
  if c.toNat < 127 then c
  else if isBlank c then ' '
  else
    match decimalValue? c with
    | some d => Char.ofNat (0x30 + d)
    | none => '?'

/-- The blanks that may stand around a numeral. -/
def isPlainBlank (c : Char) : Bool :=
  c == ' ' || (0x09 ≤ c.toNat && c.toNat ≤ 0x0D)

/-- The blanks around a numeral dropped. -/
def trimPlain (cs : List Char) : List Char :=
  ((cs.dropWhile isPlainBlank).reverse.dropWhile isPlainBlank).reverse

/-- The value of a digit, letters in either case standing for 10 and above. -/
def digitValue? (base : Nat) (c : Char) : Option Nat :=
  let value? :=
    if c.isDigit then some (c.toNat - 0x30)
    else if c.isLower then some (c.toNat - 0x61 + 10)
    else if c.isUpper then some (c.toNat - 0x41 + 10)
    else none
  value?.filter (· < base)

/-- Reads the digits that follow `count` digits of value `value`, with single
underscores before any of them; gives the value and the number of all digits. -/
def digitsAfter (base value count : Nat) : List Char → Option (Nat × Nat)
  | [] => some (value, count)
  | '_' :: c :: rest =>
    match digitValue? base c with
    | some d => digitsAfter base (value * base + d) (count + 1) rest
    | none => none
  | c :: rest =>
    match digitValue? base c with
    | some d => digitsAfter base (value * base + d) (count + 1) rest
    | none => none

/-- The most digits that a decimal numeral may have. -/
def maxDecimalDigits : Nat := 4300

/-- The value of a numeral without sign, mark or blanks. -/
def numeral? (base : Nat) : List Char → Option Nat
  | [] => none
  | c :: rest => do
    let first ← digitValue? base c
    let (value, count) ← digitsAfter base first 1 rest
    if base == 10 && count > maxDecimalDigits then none else some value

/-- The sign of a numeral, true for a minus, and what follows it. -/
def splitSign : List Char → Bool × List Char
  | '+' :: rest => (false, rest)
  | '-' :: rest => (true, rest)
  | cs => (false, cs)

/-- `n` or its negative. -/
def withSign (negative : Bool) (n : Int) : Int :=
  if negative then -n else n

/-- The letter of a base's mark, in lower case. -/
def baseLetter? : Nat → Option Char
  | 16 => some 'x'
  | 8 => some 'o'
  | _ => none

/-- Drops the mark of the base, and an underscore after it. -/
def dropBaseMark (base : Nat) : List Char → List Char
  | '0' :: c :: rest =>
    if baseLetter? base == some c.toLower then
      match rest with
      | '_' :: digits => digits
      | digits => digits
    else '0' :: c :: rest
  | cs => cs

/-- The value of a numeral with blanks, a sign and a mark of its base allowed. -/
def signedNumeral? (base : Nat) (cs : List Char) : Option Int :=
  let (negative, body) := splitSign (trimPlain (cs.map plain))
  (numeral? base (dropBaseMark base body)).map fun n => withSign negative n

end ProtoNames.Number
