import ProtoNames.Builtin.Descriptor
import ProtoNames.Scope.Scope

/-!
The one declaration that a type name means.

Of several candidates for a relative name, the one in the innermost scope around the site
is meant: the name is put behind ever shorter beginnings of the enclosing scope's name, and
the first full name among the candidates decides.
-/

namespace ProtoNames

/-- The type name that stands in an element. -/
def Element.typeName? (e : Element) : Option String :=
  match e.node? with
  | some (.leaf (.field f)) => some f.type
  | some (.leaf (.rpc r)) => some r.input
  | _ => none

/-- The name of the innermost scope around an element. -/
def Element.enclosingScope (e : Element) : List String :=
  match e.containers.find? Element.opensScope with
  | some scope => scope.qualifiedName.segments
  | none => []

/-- The candidate whose full name is a type name put behind the longest possible beginning
of the enclosing scope. -/
def nearest? (enclosing : List String) (typeName : String) (candidates : List Element) :
    Option Element :=
  (List.range (enclosing.length + 1)).reverse.findSome? fun k =>
    candidates.reverse.find? fun c =>
      c.fullName == joinDots (enclosing.take k ++ segments typeName)

/-- Whether a type name is absolute: it begins with a dot. -/
def isAbsolute (typeName : String) : Bool := typeName.toList.head? == some '.'

/-- The candidate that a type name means at a site, if they leave no doubt. -/
def chooseType? (site : Element) (typeName : String) : List Element → Option Element
  | [] => none
  | [c] => some c
  | candidates =>
    if isAbsolute typeName then none
    else nearest? site.enclosingScope typeName candidates

namespace Query

/-- The declaration that a type name means at a site. Scalar types are not declared. -/
def resolveType (site : Element) (typeName : String) : Query (Option Element) := do
  if (Scalar.ofName? typeName).isSome then return none
  else
    let scope ← scopeOf site .type .anyType
    let candidates := scope.lookup typeName
    match chooseType? site typeName candidates with
    | some c => return some c
    | none =>
      if candidates.length > 1 then
        log (.typeAmbiguous typeName
          ((candidates.map Element.fullName).mergeSort fun a b => decide (a ≤ b)))
      return none

/-- The declaration that the type name in an element means. -/
def resolveOwnType (site : Element) : Query (Option Element) :=
  match site.typeName? with
  | some typeName => resolveType site typeName
  | none => throw (.noTypeName site.kind)

end Query

end ProtoNames
