import ProtoNames.Scope.Visibility

/-!
Scopes: the candidates for one reference, looked up by name.

A scope holds each pair of a name and a declaration once. One declaration can stand under
several names, and one name can stand for several declarations.
-/

namespace ProtoNames

/-- A list without what is the same as something before it. -/
def distinct {α : Type} (same : α → α → Bool) : List α → List α
  | [] => []
  | a :: rest => a :: (distinct same rest).filter fun b => !same a b

/-- Texts in the order of their characters, each once. -/
def sortedNames (names : List String) : List String :=
  (distinct (· == ·) names).mergeSort fun a b => decide (a ≤ b)

/-- The candidates for a reference. -/
structure Scope where
  entries : List Match
  deriving Repr

/-- Whether a match is meant by a name. A dot in front asks for the full name. -/
def Match.answersTo (m : Match) (name : String) : Bool :=
  match name.toList with
  | '.' :: full => m.name == String.ofList full && m.element.fullName == String.ofList full
  | _ => m.name == name

namespace Scope

/-- The scope of some matches. -/
def ofMatches (found : List Match) : Scope := ⟨distinct Match.isSame found⟩

/-- How many pairs of a name and a declaration there are. -/
def size (s : Scope) : Nat := s.entries.length

/-- The names in use, sorted. -/
def names (s : Scope) : List String := sortedNames (s.entries.map (·.name))

/-- The declarations. -/
def elements (s : Scope) : List Element := distinct Element.isSame (s.entries.map (·.element))

/-- The matches that a name means. -/
def answers (s : Scope) (name : String) : List Match := s.entries.filter (·.answersTo name)

/-- The declarations that a name means. -/
def lookup (s : Scope) (name : String) : List Element :=
  distinct Element.isSame ((s.answers name).map (·.element))

/-- Whether a name means anything. -/
def contains (s : Scope) (name : String) : Bool := !(s.lookup name).isEmpty

end Scope

/-! ### Usual criteria -/

/-- Types of any kind. -/
def Criteria.anyType : Criteria := .sortals (typeKinds.map Sortal.element)

/-- What an option belongs to: the site's container if the site is an option, or else the
site. -/
def Element.optionOwner (site : Element) : Element :=
  if site.kind = .option then site.parent?.getD site else site

/-- Whether the element opens a naming scope: documents, messages and groups do. -/
def Element.opensScope (e : Element) : Bool :=
  match e.node? with
  | some n => n.opensScope
  | none => true

/-- The site of a reference at an element: inside the element if it opens a scope, or else
the element itself. -/
def Element.referenceSite (e : Element) : Element := if e.opensScope then e.inside else e

namespace Query

/-- The scope of a reference at a site. -/
def scopeOf (site : Element) (r : ReferenceKind) (c : Criteria) : Query Scope := do
  return .ofMatches (← find site r c)

/-- The criteria for options at a site. -/
def optionsAt (site : Element) : Query Criteria := do
  return .option (← ofCriteria (OptionType.inside site.optionOwner.kind))

/-- The criteria of a reference at a site where none are given. Extensions are always of
something, so there are none for them. -/
def usualCriteria (site : Element) : ReferenceKind → Query Criteria
  | .type => return .anyType
  | .extension => throw .noExtended
  | .option => optionsAt site
  | .literal => return .anyEnum

end Query

end ProtoNames
