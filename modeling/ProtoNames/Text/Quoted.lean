import ProtoNames.Text.Printable

/-!
Quoted text, as messages and log lines show it.

The text stands between single quotes, or between double quotes when it holds a
single quote and no double one. The backslash and the quote in use are escaped,
newline, carriage return and tab by a letter, and every other unprintable
character by the digits of its code point.
-/

namespace ProtoNames.Text

/-- The single quote. -/
def singleQuote : Char := '\x27'

/-- The double quote. -/
def doubleQuote : Char := '\x22'

/-- `n` in hexadecimal with lower-case digits, filled up to `width` with zeros. -/
def hexDigits (width n : Nat) : List Char :=
  let digits := Nat.toDigits 16 n
  List.replicate (width - digits.length) '0' ++ digits

/-- The delimiter that quoted text stands between. -/
def delimiterOf (cs : List Char) : Char :=
  if cs.contains singleQuote && !cs.contains doubleQuote then doubleQuote else singleQuote

/-- One character inside quotes. -/
def escaped (delimiter c : Char) : List Char :=
  if c == delimiter || c == '\\' then ['\\', c]
  else if c == '\n' then ['\\', 'n']
  else if c == '\r' then ['\\', 'r']
  else if c == '\t' then ['\\', 't']
  else if isPrintable c then [c]
  else if c.toNat < 0x100 then '\\' :: 'x' :: hexDigits 2 c.toNat
  else if c.toNat < 0x10000 then '\\' :: 'u' :: hexDigits 4 c.toNat
  else '\\' :: 'U' :: hexDigits 8 c.toNat

/-- Text with its quotes. -/
def quoted (s : String) : String :=
  let cs := s.toList
  let delimiter := delimiterOf cs
  String.ofList (delimiter :: cs.flatMap (escaped delimiter) ++ [delimiter])

/-- A list of quoted texts in square brackets. -/
def quotedList (items : List String) : String :=
  "[" ++ String.intercalate ", " (items.map quoted) ++ "]"

end ProtoNames.Text
