import ProtoNames.Compiler.Marker

/-!
The markers of one compilation, in order of arrival.

A marker with the same message on the same line as one that is there is left out, whatever
its file, column and severity.
-/

namespace ProtoNames.Compiler

/-- Markers. -/
structure MarkerSet where
  markers : List Marker
  deriving DecidableEq, Repr

namespace MarkerSet

/-- No markers. -/
def empty : MarkerSet := ⟨[]⟩

/-- How many markers there are. -/
def size (s : MarkerSet) : Nat := s.markers.length

/-- Whether there is a marker with a message on a line. -/
def contains (s : MarkerSet) (message : String) (line : Int) : Bool :=
  s.markers.any fun m => m.message == message && m.line == line

/-- Whether a marker would be new. -/
def accepts (s : MarkerSet) (m : Marker) : Bool := !s.contains m.message m.line

/-- Adds a marker if it is new. -/
def insert (s : MarkerSet) (m : Marker) : MarkerSet :=
  if s.accepts m then ⟨s.markers ++ [m]⟩ else s

/-- Adds the marker on a line of output, if there is one. -/
def addLine (s : MarkerSet) (text : String) : Except NumberTooLong (MarkerSet × Option Marker) :=
  (readMarker text).map fun
    | some m => (s.insert m, some m)
    | none => (s, none)

/-- The errors among the markers. -/
def errors (s : MarkerSet) : List Marker := s.markers.filter fun m => m.severity == .error

end MarkerSet

end ProtoNames.Compiler
