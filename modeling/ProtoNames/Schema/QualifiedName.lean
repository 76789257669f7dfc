import ProtoNames.DottedName
import ProtoNames.Schema.Element

/-!
The names of elements.

An element is named by the segments of its package followed by the names of its containers
and its own. Enum values are siblings of their enum: an enum gives no segment to what is
declared inside it. Extend blocks, options, imports and packages give none at all.

Who refers to an element may leave out segments in front of the name. How many depends on
where the reference stands: `localNames`, `descriptorNames` and `importedNames`.
-/

namespace ProtoNames

/-- The name of an element in two parts: its package, and its place in the file. -/
structure QualifiedName where
  package : List String
  relative : List String
  deriving DecidableEq, Repr

/-- The segment that a container gives to the names of what it contains. -/
def Node.containerName? (n : Node) : Option String :=
  if n.kind = .enum then none else n.name?

/-- The segments that name the last of a list of nodes, each of which contains the next. -/
def relativeSegments (nodes : List Node) : List String :=
  nodes.dropLast.filterMap Node.containerName? ++ (nodes.getLast?.bind Node.name?).toList

/-- The dotted names of the last `n` segments, for all `n` from `least` on, shortest first. -/
def suffixNames (least : Nat) (segments : List String) : List String :=
  (List.range' least (segments.length + 1 - least)).map fun n =>
    joinDots (segments.drop (segments.length - n))

/-- The segments of a document's package. -/
def Document.packagePath (d : Document) : List String := packageSegments d.package?

namespace QualifiedName

/-- All segments. -/
def segments (q : QualifiedName) : List String := q.package ++ q.relative

/-- The full name. -/
def full (q : QualifiedName) : String := joinDots q.segments

/-- The names that can be used in a scope from which the element is seen through `level`
messages or groups: no segment that lies in between may be left out. -/
def localNames (q : QualifiedName) (level : Nat) : List String :=
  suffixNames (level + 1) q.segments

/-- The names of an element of a built-in file: within the file as for `localNames`, and
the full name. -/
def descriptorNames (q : QualifiedName) (level : Nat) : List String :=
  suffixNames (level + 1) q.relative ++ [q.full]

/-- The names that can be used from a package that is not related to the element's: the
full name, and those that leave out segments which both packages share. -/
def importedNames (q : QualifiedName) (importer imported : List String) : List String :=
  (List.range ((sharedSegments importer imported).length + 1)).reverse.map fun k =>
    joinDots (q.segments.drop k)

end QualifiedName

namespace Element

/-- The nodes from the document down to the element. -/
def nodes (e : Element) : List Node := e.trail.map (·.2)

/-- The name of the element. -/
def qualifiedName (e : Element) : QualifiedName :=
  ⟨e.source.document.packagePath, relativeSegments e.nodes⟩

/-- The full name of the element. -/
def fullName (e : Element) : String := e.qualifiedName.full

/-- The name of an element in the part of the tree below `top`, when that part is taken
out of its document. -/
def nameBelow (top e : Element) : QualifiedName :=
  ⟨[], relativeSegments (e.nodes.drop (top.trail.length - 1))⟩

/-- Whether the element has a name of its own. -/
def isNamed (e : Element) : Bool := (e.node?.bind Node.name?).isSome

/-- The first element of a document that has the given name within the file; the empty
name is the document. -/
def named? (s : Source) (name : String) : Option Element :=
  if name.isEmpty then some (.ofSource s)
  else
    (Element.ofSource s).contents.find? fun e =>
      e.isNamed && e.qualifiedName.relative == ProtoNames.segments name

end Element

end ProtoNames
