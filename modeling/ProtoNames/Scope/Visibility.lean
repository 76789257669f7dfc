import ProtoNames.Reference.Match
import ProtoNames.Scope.Import

/-!
Which files a document sees through its imports, and what a reference can mean.

Imports are taken from a queue. A file is seen when an import leads to it. Its public imports
join the queue when its *re-exports are followed*: when the import that led to it is public,
or always if the look-up is not strict. A file may be reached first without and then again
with re-exports; its declarations count once. Other imports of imported files are never
followed.

The expansion of the queue ends because each document takes from a budget when it is seen
first and when its re-exports are first followed. The budget allows that twice for every
document and file there is, which is as often as it can happen.
-/

namespace ProtoNames

/-- A file that a document sees. -/
inductive Visit
  | builtIn (s : Source)
  | imported (s : Source)
  deriving Repr

/-- The documents that have been seen, with whether their re-exports are followed. A later
entry stands before an earlier one. -/
abbrev Visited := List (SourceId × Bool)

namespace Visited

/-- Whether an import that leads to a document adds nothing, if it says to `follow`
re-exports or not. -/
def covers (v : Visited) (id : SourceId) (follow : Bool) : Bool :=
  match v.lookup id with
  | some followed => followed || !follow
  | none => false

/-- What a document brings that may have been seen before. -/
def firstSight (v : Visited) (s : Source) : Option Visit :=
  if (v.lookup s.id).isNone then some (.imported s) else none

end Visited

/-- Whether the re-exports of a file are followed that this import leads to. -/
def ImportRef.isFollowed (i : ImportRef) (strict : Bool) : Bool := i.isPublic || !strict

/-- The imports that join the queue with a document. -/
def reexports (follow : Bool) (s : Source) : List ImportRef :=
  if follow then (ImportRef.ofDocument s.document).filter ImportRef.isPublic else []

/-- The matches that a file brings, as seen from the importer's package. -/
def Wanted.inVisit (w : Wanted) (importer : List String) : Visit → List Match
  | .builtIn s => w.inBuiltIn s
  | .imported s => w.inImported importer s

namespace Query

/-- The file that an import leads to, if there is one and its declarations count. -/
def destination (i : ImportRef) : Query (Option Visit) := do
  let s ← read
  if i.isBuiltIn s.config then
    let found ← builtIn i.path
    return found.map Visit.builtIn
  else
    let found ← supported i
    return found.map Visit.imported

/-- The files that the imports in a queue lead to. The queue is taken up to the first import
that leads to something new; from there `onwards` takes what is left, and what has joined. -/
def expandWith (onwards : Visited → List ImportRef → Query (List Visit)) (visited : Visited) :
    List ImportRef → Query (List Visit)
  | [] => return []
  | i :: rest => do
    check
    match ← destination i with
    | none => expandWith onwards visited rest
    | some (.builtIn source) =>
      let others ← expandWith onwards visited rest
      return .builtIn source :: others
    | some (.imported source) =>
      let s ← read
      let follow := i.isFollowed s.config.strict
      if visited.covers source.id follow then
        log (.importRepeated i.path)
        expandWith onwards visited rest
      else
        let others ← onwards ((source.id, follow) :: visited) (rest ++ reexports follow source)
        return (visited.firstSight source).toList ++ others

/-- The files that the imports in a queue lead to, where something new may be seen as often
as the budget says. -/
def expand : Nat → Visited → List ImportRef → Query (List Visit)
  | 0 => expandWith fun _ _ => return []
  | budget + 1 => expandWith (expand budget)

/-- How often documents may be seen, or seen again with their re-exports. -/
def expansionBudget (s : Setup) (p : Progress) : Nat :=
  2 * (s.files.entries.length + p.sources.overlays.length + p.sources.loaded.length)

/-- The files that a document sees. The document itself counts as seen. -/
def visits (start : Source) : Query (List Visit) := do
  let s ← read
  let p ← get
  expand (expansionBudget s p) [(start.id, true)] (ImportRef.ofDocument start.document)

/-- What a reference at a site can mean: first what its scopes hold, then what imports
bring. -/
def find (site : Element) (r : ReferenceKind) (c : Criteria) : Query (List Match) := do
  let wanted ← ofCriteria (Wanted.ofCriteria r c)
  site.scopes.forM fun _ => check
  let visits ← visits site.source
  return wanted.inOwn site ++ visits.flatMap (wanted.inVisit site.source.document.packagePath)

end Query

end ProtoNames
