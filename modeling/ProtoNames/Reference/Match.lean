import ProtoNames.Reference.Target

/-!
Matches: declarations under the names by which a reference can mean them.

Where the candidates stand decides both which of them are looked at and which names they
get. In the containers of a reference, and in imported files of a related package, what
messages and groups contain is looked at level by level. In other imported files everything
is looked at.
-/

namespace ProtoNames

/-- A declaration and a name that means it. -/
structure Match where
  name : String
  element : Element
  deriving Repr

namespace Match

/-- The file in which the declaration stands. -/
def uri (m : Match) : String := m.element.source.document.uri

/-- Whether two matches are one: the same name for the same declaration. -/
def isSame (a b : Match) : Bool := a.name == b.name && a.element.isSame b.element

/-- An element under each of several names. -/
def under (names : List String) (e : Element) : List Match := names.map (⟨·, e⟩)

end Match

namespace Wanted

/-- The matches that can be seen in a scope. -/
def inScope (w : Wanted) (top : Element) : List Match :=
  top.scopedContents.flatMap fun (candidate, level) =>
    (w.targets candidate).flatMap fun e => Match.under (e.qualifiedName.localNames level) e

/-- The matches in the document of a reference: what can be seen in each of the site's
scopes. -/
def inOwn (w : Wanted) (site : Element) : List Match := site.scopes.flatMap w.inScope

/-- The matches in a built-in file. -/
def inBuiltIn (w : Wanted) (s : Source) : List Match :=
  (Element.ofSource s).scopedContents.flatMap fun (candidate, level) =>
    (w.targets candidate).flatMap fun e => Match.under (e.qualifiedName.descriptorNames level) e

/-- The matches in a file of another package. -/
def inForeign (w : Wanted) (importer : List String) (s : Source) : List Match :=
  (Element.ofSource s).contents.flatMap fun candidate =>
    (w.targets candidate).flatMap fun e =>
      Match.under (e.qualifiedName.importedNames importer e.qualifiedName.package) e

/-- The matches in an imported file, as seen from the importer's package. -/
def inImported (w : Wanted) (importer : List String) (s : Source) : List Match :=
  if areRelated importer s.document.packagePath then
    w.inScope (.ofSource s)
  else w.inForeign importer s

end Wanted

end ProtoNames
