import ProtoNames.Number.Numeral

/-!
Markers: the diagnostics that a schema compiler writes, one a line.

A diagnostic is `file:line:column: message`, `file:line: message` or `file: message`. The
file ends at the first colon. As much of a position is read as leaves a message; a message
is not empty and has no newline. A message that begins with `warning:` is a warning.
-/

namespace ProtoNames.Compiler

open Text Number

/-- How bad a diagnostic is. The compiler only knows the first two. -/
inductive Severity
  | error
  | warning
  | other (name : String)
  deriving DecidableEq, Repr

/-- How a severity is written. -/
def Severity.text : Severity → String
  | .error => "error"
  | .warning => "warning"
  | .other name => name

/-- The severity that is written in a certain way. -/
def Severity.ofText (s : String) : Severity :=
  if s == "error" then .error else if s == "warning" then .warning else .other s

/-- A diagnostic. Line 0 stands for the file as a whole. -/
structure Marker where
  file : String
  line : Int
  column : Option Int
  severity : Severity
  message : String
  deriving DecidableEq, Repr

/-- A number in a diagnostic has too many digits. -/
structure NumberTooLong where
  digits : Nat
  deriving DecidableEq, Repr

/-- The words for a number with too many digits. -/
def NumberTooLong.message (e : NumberTooLong) : String :=
  "Exceeds the limit (" ++ toString maxDecimalDigits ++
    " digits) for integer string conversion: value has " ++ toString e.digits ++
    " digits; use sys.set_int_max_str_digits() to increase the limit"

/-! ### Positions -/

/-- Where a message might begin: the digits of the line and the column before it, and the
text from there on. -/
structure Placement where
  line : Option (List Char)
  column : Option (List Char)
  rest : List Char
  deriving DecidableEq, Repr

/-- Digits of any script that end in a colon, and what follows. -/
def numberAndColon? (cs : List Char) : Option (List Char × List Char) :=
  match cs.takeWhile isDecimal, cs.dropWhile isDecimal with
  | d :: digits, ':' :: rest => some (d :: digits, rest)
  | _, _ => none

/-- The ways to read what follows the file, those with more numbers first. -/
def placements (cs : List Char) : List Placement :=
  match numberAndColon? cs with
  | none => [⟨none, none, cs⟩]
  | some (line, afterLine) =>
    match numberAndColon? afterLine with
    | none => [⟨some line, none, afterLine⟩, ⟨none, none, cs⟩]
    | some (column, afterColumn) =>
      [⟨some line, some column, afterColumn⟩, ⟨some line, none, afterLine⟩, ⟨none, none, cs⟩]

/-- The message that begins after some blanks, if it is one. -/
def messageFrom? (cs : List Char) : Option (List Char) :=
  let message := cs.dropWhile isBlank
  if message.isEmpty || message.contains '\n' then none else some message

/-- The value of digits of any script. -/
def numberFrom (digits : List Char) : Except NumberTooLong Int :=
  match numeral? 10 (digits.map plain) with
  | some n => .ok n
  | none => .error ⟨digits.length⟩

/-! ### Messages -/

/-- What a warning begins with. -/
def warningMark : List Char := ['w', 'a', 'r', 'n', 'i', 'n', 'g', ':']

/-- The severity of a message, and the message without the mark of it. -/
def splitSeverity (message : List Char) : Severity × List Char :=
  if (message.take warningMark.length).map Char.toLower == warningMark then
    (.warning, trim (message.drop warningMark.length))
  else (.error, message)

/-! ### Diagnostics -/

/-- A diagnostic taken apart: the file, the digits of the position, and the message with
its severity. -/
structure Diagnostic where
  file : List Char
  placement : Placement
  message : List Char
  deriving DecidableEq, Repr

/-- Takes a line apart if it is a diagnostic. -/
def diagnostic? (text : List Char) : Option Diagnostic :=
  let line := trim text
  match line.takeWhile (· != ':'), line.dropWhile (· != ':') with
  | c :: file, _ :: rest =>
    (placements rest).findSome? fun p =>
      (messageFrom? p.rest).map fun message => ⟨c :: file, p, trim message⟩
  | _, _ => none

/-- The marker for a diagnostic. A missing line is line 0. -/
def Diagnostic.toMarker (d : Diagnostic) : Except NumberTooLong Marker := do
  let (severity, message) := splitSeverity d.message
  let line ← (d.placement.line.map numberFrom).getD (.ok 0)
  let column ← d.placement.column.mapM numberFrom
  return ⟨String.ofList d.file, line, column, severity, String.ofList message⟩

/-- The marker on a line of the compiler's output, if there is one. -/
def readMarker (text : String) : Except NumberTooLong (Option Marker) :=
  (diagnostic? text.toList).mapM Diagnostic.toMarker

end ProtoNames.Compiler
