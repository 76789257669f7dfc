import ProtoNames.Schema.Basic

/-!
Elements: places in a document tree.

An element is a document itself or a node in it, given by the *trail* of steps and nodes
from a statement of the document down to it, outermost first. So an element knows its
containers, and two equal messages in different places are different elements.

`contents` lists an element and everything below it, containers first. `scopedContents` lists
what can be seen below an element through messages and groups, with the number of these in
between.
-/

namespace ProtoNames

/-! ### Sources -/

/-- Who a document is. Reading a file again gives another document. -/
inductive SourceId
  | reading (serial : Nat)
  | builtIn (module : String)
  deriving DecidableEq, Repr

/-- A document that has been read. -/
structure Source where
  id : SourceId
  document : Document
  deriving Repr

/-! ### Places -/

/-- A step from an element to one below it. -/
inductive Step
  /-- To the declaration at an index of the body. -/
  | child (index : Nat)
  /-- To the option at an index of a field's brackets. -/
  | option (index : Nat)
  /-- To where a reference directly inside the element would stand. -/
  | inside
  deriving DecidableEq, Repr

/-- The steps from a document down to an element, each with the node that it leads to. -/
abbrev Trail := List (Step × Node)

/-- A place in a document. The empty trail is the document itself. -/
structure Element where
  source : Source
  trail : Trail
  deriving Repr

/-- The elements that stand directly below a trail, where `body` is there. -/
def childrenFrom (source : Source) (trail : Trail) (i : Nat) : List Node → List Element
  | [] => []
  | n :: rest => ⟨source, trail ++ [(.child i, n)]⟩ :: childrenFrom source trail (i + 1) rest

namespace Element

/-- A document as an element. -/
def ofSource (s : Source) : Element := ⟨s, []⟩

/-- The node at this place; a document is no node. -/
def node? (e : Element) : Option Node := e.trail.getLast?.map (·.2)

/-- The kind of the element. -/
def kind (e : Element) : Kind :=
  match e.node? with
  | some n => n.kind
  | none => .document

/-- What is declared directly inside the element. -/
def body (e : Element) : List Node :=
  match e.node? with
  | some n => n.body
  | none => e.source.document.statements

/-- The elements directly inside this one. -/
def children (e : Element) : List Element := childrenFrom e.source e.trail 0 e.body

/-- The element that directly contains this one. A document has none. -/
def parent? (e : Element) : Option Element :=
  if e.trail.isEmpty then none else some ⟨e.source, e.trail.dropLast⟩

/-- The elements that contain this one, innermost first; the last is the document. -/
def containers (e : Element) : List Element :=
  (List.range e.trail.length).reverse.map fun n => ⟨e.source, e.trail.take n⟩

/-- The elements in which a reference at this place stands, innermost first: its containers.
A reference in a document itself stands in the document. -/
def scopes (e : Element) : List Element := if e.kind = .document then [e] else e.containers

/-- The steps alone. -/
def steps (e : Element) : List Step := e.trail.map (·.1)

/-- Whether two elements are the same place in the same document. -/
def isSame (a b : Element) : Bool := a.source.id == b.source.id && a.steps == b.steps

/-- The child at an index. -/
def child? (e : Element) (i : Nat) : Option Element :=
  e.body[i]?.map fun n => ⟨e.source, e.trail ++ [(.child i, n)]⟩

/-- The element at a path of child indexes. -/
def descend? (e : Element) (path : List Nat) : Option Element :=
  path.foldlM child? e

/-- The option at an index of a field's brackets. -/
def option? (e : Element) (i : Nat) : Option Element := do
  let n ← e.node?
  let s ← n.settings[i]?
  return ⟨e.source, e.trail ++ [(.option i, .leaf (.option s))]⟩

/-- A field that is declared nowhere. -/
def undeclaredField : Field where
  type := ""
  name := ""
  number := 0
  label := none
  mapKey := none
  oneof := none
  options := []

/-- The place where a reference directly inside the element stands: a field that is not
among the element's children. -/
def inside (e : Element) : Element :=
  ⟨e.source, e.trail ++ [(.inside, .leaf (.field undeclaredField))]⟩

end Element

/-! ### Walks -/

mutual

/-- Everything below a node, which is the last of `trail`. -/
def belowNode (source : Source) (trail : Trail) : Node → List Element
  | .leaf _ => []
  | .block _ body => belowBody source trail 0 body

/-- The nodes of a body from index `i` on, each followed by everything below it. -/
def belowBody (source : Source) (trail : Trail) (i : Nat) : List Node → List Element
  | [] => []
  | n :: rest =>
    ⟨source, trail ++ [(.child i, n)]⟩ ::
      (belowNode source (trail ++ [(.child i, n)]) n ++ belowBody source trail (i + 1) rest)

end

mutual

/-- What can be seen inside a node, if it opens a scope: its children at `level`, then
what lies deeper. -/
def scopedNode (source : Source) (trail : Trail) (level : Nat) : Node → List (Element × Nat)
  | .leaf _ => []
  | .block header body =>
    if (Node.block header []).opensScope then
      (childrenFrom source trail 0 body).map (·, level) ++ scopedBody source trail level 0 body
    else []

/-- What can be seen inside the nodes of a body, the last node first. The body's own nodes
are at `level`. -/
def scopedBody (source : Source) (trail : Trail) (level i : Nat) :
    List Node → List (Element × Nat)
  | [] => []
  | n :: rest =>
    scopedBody source trail level (i + 1) rest ++
      scopedNode source (trail ++ [(.child i, n)]) (level + 1) n

end

namespace Element

/-- The element and everything below it, containers before what they contain and siblings
in order. -/
def contents (e : Element) : List Element :=
  e :: belowBody e.source e.trail 0 e.body

/-- Everything that can be seen below the element by entering messages and groups only,
with the number of these that were entered. -/
def scopedContents (e : Element) : List (Element × Nat) :=
  e.children.map (·, 0) ++ scopedBody e.source e.trail 0 0 e.body

end Element

end ProtoNames
