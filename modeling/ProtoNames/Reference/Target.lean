import ProtoNames.Reference.Criteria

/-!
The declarations that an element contributes for a reference.

A type contributes itself, an extend block its fields and groups, an enum its values. Two
names of an extended message match if one is the end of the other, so a short and a full
spelling go together.
-/

namespace ProtoNames

/-- Whether `short` is not empty and ends `long`. -/
def isEndOf (short long : List String) : Bool := !short.isEmpty && short.isSuffixOf long

/-- Whether two names can mean the same message: one is the end of the other. -/
def namesMatch (a b : List String) : Bool := isEndOf a b || isEndOf b a

/-- The segments of the message that an extend block extends. -/
def Node.extended? : Node → Option (List String)
  | .block (.extend target) _ => some (segments target)
  | _ => none

/-- The declarations that a candidate contributes to what is wanted. -/
def Wanted.targets (w : Wanted) (candidate : Element) : List Element :=
  match w with
  | .types kinds => if candidate.kind ∈ kinds then [candidate] else []
  | .extensions extended =>
    match candidate.node?.bind Node.extended? with
    | some target =>
      if namesMatch target extended then
        candidate.children.filter fun e => e.kind = .field ∨ e.kind = .group
      else []
    | none => []
  | .values enum =>
    if candidate.kind = .enum ∧ enum.all candidate.isSame then
      candidate.children.filter fun e => e.kind = .enumValue
    else []

end ProtoNames
