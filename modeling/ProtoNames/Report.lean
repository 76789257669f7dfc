import ProtoNames.Compiler.Compilation
import ProtoNames.Scope.Scope

/-!
The report on a scope: its candidates as lines of text, and what the compiler said.

There is a row for each pair of a name and a declaration, sorted by name, file, kind and
full name. When a name was asked for, only its rows are listed, and the report says whether
there are any.
-/

namespace ProtoNames

open Compiler

/-- A candidate as it is listed. -/
structure Row where
  name : String
  uri : String
  kind : String
  fullName : String
  deriving DecidableEq, Repr

/-- The word for a kind of element. -/
def Kind.word (k : Kind) : String := String.ofList (k.title.toList.map Char.toLower)

/-- Whether keys stand in order: the first texts that differ decide. -/
def keysInOrder : List String → List String → Bool
  | [], _ => true
  | _ :: _, [] => false
  | a :: as, b :: bs => if a = b then keysInOrder as bs else decide (a < b)

namespace Row

/-- The row of a match. -/
def ofMatch (m : Match) : Row := ⟨m.name, m.uri, m.element.kind.word, m.element.fullName⟩

/-- What rows are sorted by, in order. -/
def sortKey (r : Row) : List String := [r.name, r.uri, r.kind, r.fullName]

/-- Whether a row may stand before another. -/
def before (a b : Row) : Bool := keysInOrder a.sortKey b.sortKey

/-- The line for a row. -/
def line (r : Row) : String :=
  "  " ++ r.name ++ "  [" ++ r.kind ++ " " ++ r.fullName ++ "]  " ++ r.uri ++ "\n"

end Row

/-- A name without the dots in front. -/
def withoutLeadingDots (name : String) : String :=
  String.ofList (name.toList.dropWhile (· == '.'))

/-- The matches to list for a name: those of its declarations that are under that very
name, without the dots in front. -/
def Scope.requested (s : Scope) (name : String) : List Match :=
  let wanted := s.lookup name
  s.entries.filter fun m =>
    m.name == withoutLeadingDots name && wanted.any m.element.isSame

/-- The matches to list. -/
def Scope.listed (s : Scope) : Option String → List Match
  | some name => s.requested name
  | none => s.entries

/-- The rows of a report. -/
def Scope.rows (s : Scope) (name? : Option String) : List Row :=
  ((s.listed name?).map Row.ofMatch).mergeSort Row.before

/-- What a report is about. -/
structure ReportHeader where
  path : String
  site : String
  kind : String
  name? : Option String
  deriving DecidableEq, Repr

namespace Report

/-- The site in words: without a name it is the file. -/
def siteText (site : String) : String := if site.isEmpty then "<file>" else site

/-- The first line. -/
def title (h : ReportHeader) : String :=
  h.kind ++ " scope of " ++ siteText h.site ++ " in " ++ h.path ++ "\n"

/-- Whether the name that was asked for means anything. -/
def verdict (h : ReportHeader) (rows : List Row) : String :=
  match h.name? with
  | none => ""
  | some name =>
    if rows.isEmpty then name ++ " does not resolve to any " ++ h.kind ++ ".\n"
    else name ++ " resolves to:\n"

/-- The line for a marker. -/
def markerLine (m : Marker) : String :=
  let column := (m.column.map fun c => ":" ++ toString c).getD ""
  "  " ++ m.file ++ ":" ++ toString m.line ++ column ++ ": " ++ m.severity.text ++ ": " ++
    m.message ++ "\n"

/-- The part on the compiler. -/
def compilerPart : Option Compilation → String
  | none => ""
  | some c =>
    let outcome := if c.ok then "ok" else "failed (exit " ++ toString c.status ++ ")"
    "\nprotoc: " ++ outcome ++ "\n" ++ String.join (c.markers.markers.map markerLine)

end Report

/-- The report on a scope. -/
def report (h : ReportHeader) (s : Scope) (compilation : Option Compilation) : String :=
  let rows := s.rows h.name?
  Report.title h ++ Report.verdict h rows ++ String.join (rows.map Row.line) ++
    Report.compilerPart compilation

end ProtoNames
