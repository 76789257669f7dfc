import ProtoNames.Proofs.Attachment
import ProtoNames.Reference.Match

/-!
What a reference can mean in its own document.

`mem_inOwn_iff` says it without walks and levels: a declaration is seen from the innermost
scope of the reference that reaches it, and its names leave out a beginning of what that scope
is called. So they leave out segments of scopes around the reference only, and never one of
what lies between the scope and the declaration.
-/

namespace ProtoNames

variable {site top candidate e c : Element} {level : Nat} {w : Wanted} {name : String}

/-! ### Scopes -/

theorem Match.mem_under {names : List String} {m : Match} :
    m ∈ Match.under names e ↔ m.name ∈ names ∧ m.element = e := by
  rcases m with ⟨name, element⟩
  simp only [under, List.mem_map, Match.mk.injEq]
  constructor
  · rintro ⟨_, inside, rfl, rfl⟩
    exact ⟨inside, rfl⟩
  · rintro ⟨inside, rfl⟩
    exact ⟨name, inside, rfl, rfl⟩

theorem Wanted.mem_inScope : ⟨name, e⟩ ∈ w.inScope top ↔
    ∃ candidate level, top.Reaches candidate level ∧ e ∈ w.targets candidate ∧
      name ∈ e.qualifiedName.localNames level := by
  simp only [inScope, List.mem_flatMap, Prod.exists, Match.mem_under]
  constructor
  · rintro ⟨candidate, level, met, _, target, named, rfl⟩
    exact ⟨candidate, level, Element.mem_scopedContents.mp met, target, named⟩
  · rintro ⟨candidate, level, reaches, target, named⟩
    exact ⟨candidate, level, Element.mem_scopedContents.mpr reaches, e, target, named, rfl⟩

section Names

variable (reaches : top.Reaches candidate level) (sensible : w.Sensible)
  (target : e ∈ w.targets candidate) (notEnum : top.kind ≠ .enum)

include reaches sensible target notEnum

/-- The names of a target that is seen from an element leave out some of the segments that the
element is called. -/
theorem Element.Reaches.mem_localNames_iff_drop :
    name ∈ e.qualifiedName.localNames level ↔
      ∃ k ≤ top.qualifiedName.segments.length,
        name = joinDots (e.qualifiedName.segments.drop k) := by
  obtain ⟨way, nonempty, rfl, length⟩ := reaches.exists_way_of_mem_targets sensible target
  rw [QualifiedName.localNames, segments_down notEnum nonempty, ← length]
  exact mem_suffixNames

/-- So they leave out a beginning of what the element is called. -/
theorem Element.Reaches.mem_localNames_iff :
    name ∈ e.qualifiedName.localNames level ↔
      ∃ left rest, rest ≠ [] ∧ left <+: top.qualifiedName.segments ∧
        e.qualifiedName.segments = left ++ rest ∧ name = joinDots rest := by
  rw [reaches.mem_localNames_iff_drop sensible target notEnum]
  obtain ⟨way, nonempty, rfl, length⟩ := reaches.exists_way_of_mem_targets sensible target
  rw [segments_down notEnum nonempty, ← exists_split_iff]
  constructor
  · rintro ⟨left, rest, beginning, split, named⟩
    refine ⟨left, rest, ?_, beginning, split, named⟩
    rintro rfl
    -- nothing would be left of the segments below the element
    have longer := congrArg List.length split
    have shorter := beginning.length_le
    simp only [List.length_append, List.length_nil] at longer
    omega
  · rintro ⟨left, rest, -, beginning, split, named⟩
    exact ⟨left, rest, beginning, split, named⟩

end Names

/-! ### The innermost scope -/

/-- The innermost of a site's scopes that reach a candidate. -/
structure IsInnermost (site candidate scope : Element) : Prop where
  isScope : scope ∈ site.scopes
  reaches : ∃ level, scope.Reaches candidate level
  inmost : ∀ other ∈ site.scopes, (∃ level, other.Reaches candidate level) →
    other.trail <+: scope.trail

theorem exists_isInnermost (scope : c ∈ site.scopes) (reaches : c.Reaches candidate level) :
    ∃ scope, IsInnermost site candidate scope := by
  obtain ⟨innermost, isScope, reaches, inmost⟩ :=
    Element.exists_inmost (P := fun c => ∃ level, c.Reaches candidate level)
      (fun _ scope => (Element.prefix_of_mem_scopes scope).2) scope ⟨level, reaches⟩
  exact ⟨innermost, isScope, reaches, inmost⟩

/-- Containers are called what begins the names of what they contain. -/
theorem segments_beginning (source : c.source = top.source) (beginning : c.trail <+: top.trail)
    (notEnum : c.kind ≠ .enum) :
    c.qualifiedName.segments <+: top.qualifiedName.segments := by
  obtain ⟨way, split⟩ := beginning
  obtain rfl : top = c.down way := by
    rcases top with ⟨source', trail'⟩
    cases source
    cases split
    rfl
  by_cases empty : way = []
  · subst empty
    exact Element.down_nil.symm ▸ List.prefix_rfl
  · rw [segments_down notEnum empty]
    exact List.prefix_append _ _

/-- The matches in a reference's own document: what the innermost scope that reaches a
declaration is called says how much its names can leave out. -/
theorem mem_inOwn_iff {frames : Nat} {uri text : String} {r : ReferenceKind} {criteria : Criteria}
    (parsed : Document.parse frames uri text = .ok site.source.document) (attached : site.Attached)
    (valid : Wanted.ofCriteria r criteria = .ok w) :
    ⟨name, e⟩ ∈ w.inOwn site ↔
      ∃ candidate scope, e ∈ w.targets candidate ∧ IsInnermost site candidate scope ∧
        ∃ left rest, rest ≠ [] ∧ left <+: scope.qualifiedName.segments ∧
          e.qualifiedName.segments = left ++ rest ∧ name = joinDots rest := by
  have sensible := Wanted.sensible_of_ofCriteria valid
  have nested := Document.wellNested_of_parse parsed
  have notEnum : ∀ {c candidate level}, c ∈ site.scopes → c.Reaches candidate level →
      e ∈ w.targets candidate → c.kind ≠ .enum := fun scope reaches target =>
    reaches.kind_ne_enum (attached.wellNested_scope nested scope) sensible target
  simp only [Wanted.inOwn, List.mem_flatMap, Wanted.mem_inScope]
  constructor
  · rintro ⟨c, scope, candidate, level, reaches, target, named⟩
    obtain ⟨innermost, isInnermost⟩ := exists_isInnermost scope reaches
    have outer := notEnum scope reaches target
    obtain ⟨left, rest, nonempty, beginning, split, named⟩ :=
      (reaches.mem_localNames_iff sensible target outer).mp named
    have source := (Element.prefix_of_mem_scopes scope).1.trans
      (Element.prefix_of_mem_scopes isInnermost.isScope).1.symm
    have around := isInnermost.inmost c scope ⟨level, reaches⟩
    exact ⟨candidate, innermost, target, isInnermost, left, rest, nonempty,
      beginning.trans (segments_beginning source around outer), split, named⟩
  · rintro ⟨candidate, scope, target, isInnermost, names⟩
    obtain ⟨level, reaches⟩ := isInnermost.reaches
    refine ⟨scope, isInnermost.isScope, candidate, level, reaches, target, ?_⟩
    have inner := notEnum isInnermost.isScope reaches target
    exact (reaches.mem_localNames_iff sensible target inner).mpr names

/-- An enum in two messages. -/
def nestedText : String := "package p; message A { message B { enum E { X = 0; } } }"

/-- A place inside the inner message of a file. -/
def nestedSite? (d : Document) : Option Element :=
  ((Element.ofSource ⟨.reading 0, d⟩).descend? [1, 0]).map Element.inside

/-- From inside both messages the enum may be called after the inner one alone. -/
theorem mem_inOwn_nested : ∃ d site e, Document.parse 1000 "/a.proto" nestedText = .ok d ∧
    nestedSite? d = some site ∧ ⟨"B.E", e⟩ ∈ (Wanted.types [.enum]).inOwn site ∧
    ∃ candidate scope, e ∈ (Wanted.types [.enum]).targets candidate ∧
      IsInnermost site candidate scope ∧
      ∃ left rest, rest ≠ [] ∧ left <+: scope.qualifiedName.segments ∧
        e.qualifiedName.segments = left ++ rest ∧ "B.E" = joinDots rest := by
  have second : (Document.parse 1000 "/a.proto" nestedText).toOption.bind (fun d =>
      (nestedSite? d).bind fun site =>
        (((Wanted.types [.enum]).inOwn site)[1]?).map Match.name) = some "B.E" := by
    decide +kernel
  cases parsed : Document.parse 1000 "/a.proto" nestedText with
  | error _ => simp [parsed, Except.toOption] at second
  | ok d =>
    simp only [parsed, Except.toOption, Option.bind_some] at second
    obtain ⟨site, place, second⟩ := Option.bind_eq_some_iff.mp second
    obtain ⟨⟨name, e⟩, stands, rfl⟩ := Option.map_eq_some_iff.mp second
    obtain ⟨inner, found, rfl⟩ := Option.map_eq_some_iff.mp place
    have source : inner.inside.source.document = d :=
      congrArg Source.document (Element.source_of_descend? found)
    have attached : inner.inside.Attached := ((Element.Attached.document _).descend found).inside
    have inOwn := List.mem_of_getElem? stands
    refine ⟨d, inner.inside, e, rfl, place, inOwn, ?_⟩
    exact (mem_inOwn_iff (source ▸ parsed) attached
      (show Wanted.ofCriteria .type (.sortal (.element .enum)) = _ from rfl)).mp inOwn

end ProtoNames
