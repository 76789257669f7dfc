import ProtoNames.Compiler.Marker

/-!
Diagnostics as a compiler prints them.

A diagnostic is printed on one line: the file, the place in it, and the message. A warning has
its mark in front of the message. Nothing else tells the parts from each other, so there are
limits to what can stand in them.
-/

namespace ProtoNames.Compiler

open Text

/-- What a diagnostic is about: a file as a whole, a line of it, or a column of a line. -/
inductive Place
  | file
  | line (line : Nat)
  | column (line column : Nat)
  deriving DecidableEq, Repr

namespace Place

/-- A number of a place, and the colon behind it. -/
def printedNumber (n : Nat) : List Char := Nat.toDigits 10 n ++ [':']

/-- The numbers of a place. -/
def printed : Place → List Char
  | file => []
  | line n => printedNumber n
  | column n m => printedNumber n ++ printedNumber m

/-- The line. The file as a whole is line 0. -/
def lineNumber : Place → Int
  | file => 0
  | line n => n
  | column n _ => n

/-- The column, if there is one. -/
def columnNumber? : Place → Option Int
  | column _ m => some m
  | _ => none

end Place

/-- Whether a message begins like a warning, in letters of either case. -/
def BeginsLikeWarning (message : List Char) : Prop :=
  (message.take warningMark.length).map Char.toLower = warningMark

instance (message : List Char) : Decidable (BeginsLikeWarning message) :=
  inferInstanceAs (Decidable (_ = _))

/-- A diagnostic that can be printed. The file neither has a colon nor begins in a blank. The
message is on one line, without blanks around it, and that of an error does not begin like a
warning. -/
structure Printout where
  file : String
  place : Place
  isWarning : Bool
  message : String
  file_nonempty : file ≠ ""
  file_uncut : ':' ∉ file.toList
  file_front : ∀ c ∈ file.toList.head?, isBlank c = false
  message_nonempty : message ≠ ""
  message_uncut : '\n' ∉ message.toList
  message_front : ∀ c ∈ message.toList.head?, isBlank c = false
  message_back : ∀ c ∈ message.toList.getLast?, isBlank c = false
  unmarked : isWarning = false → ¬ BeginsLikeWarning message.toList

namespace Printout

/-- The message behind the mark of its severity. -/
def markedMessage (p : Printout) : List Char :=
  if p.isWarning then warningMark ++ ' ' :: p.message.toList else p.message.toList

/-- The line that is printed. -/
def text (p : Printout) : List Char :=
  p.file.toList ++ ':' :: (p.place.printed ++ ' ' :: p.markedMessage)

/-- The marker for the diagnostic. -/
def marker (p : Printout) : Marker where
  file := p.file
  line := p.place.lineNumber
  column := p.place.columnNumber?
  severity := if p.isWarning then .warning else .error
  message := p.message

end Printout

end ProtoNames.Compiler
