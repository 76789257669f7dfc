import ProtoNames.Text.Pieces

/-!
Dotted names and packages.

A dotted name is read as its non-empty *segments*, so dots at the ends or doubled change
nothing. A package is a dotted name too; a missing package has no segments and so comes
before every other in the order of extension.
-/

namespace ProtoNames

open Text

/-! ### Segments -/

/-- The non-empty segments of a dotted name. -/
def segments (name : String) : List String :=
  ((pieces '.' name.toList).filter (!·.isEmpty)).map String.ofList

/-- Segments joined by dots. -/
def joinDots (names : List String) : String := joined "." names

/-! ### Packages -/

/-- The segments of a package statement's name, or of no package. -/
def packageSegments (package : Option String) : List String :=
  segments (package.getD "")

/-- One package is the other or lies inside it. -/
def areRelated (p q : List String) : Bool :=
  p.isPrefixOf q || q.isPrefixOf p

/-- The leading segments that two packages share. -/
def sharedSegments : List String → List String → List String
  | a :: p, b :: q => if a == b then a :: sharedSegments p q else []
  | _, _ => []

end ProtoNames
