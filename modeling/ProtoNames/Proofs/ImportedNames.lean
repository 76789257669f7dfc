import ProtoNames.Proofs.OwnScope
import ProtoNames.Proofs.Visibility

/-!
The names of imported declarations.

From a related package a declaration has its full name and the names that leave out segments
of its package. From an unrelated one it has the names that someone would find who looks
outwards from the importer's package: `prefix_sharedSegments_iff` and
`length_lt_of_unrelated` are why the segments that both packages share suffice for that.
-/

namespace ProtoNames

variable {s : Setup} {p p' : Progress} {given : List Source} {site top candidate e : Element}
  {d : Source} {w : Wanted} {name : String} {importer : List String} {level : Nat}

/-! ### Packages -/

theorem prefix_sharedSegments_iff {left p q : List String} :
    left <+: sharedSegments p q ↔ left <+: p ∧ left <+: q := by
  induction p generalizing left q with
  | nil =>
    simp only [sharedSegments, List.prefix_nil, iff_self_and]
    rintro rfl
    exact List.nil_prefix
  | cons a p ih =>
    cases q with
    | nil =>
      simp only [sharedSegments, List.prefix_nil, iff_and_self]
      rintro rfl
      exact List.nil_prefix
    | cons b q =>
      cases left with
      | nil => simp
      | cons c left =>
        by_cases same : a = b
        · subst same
          simp only [sharedSegments, beq_self_eq_true, if_true, List.cons_prefix_cons, ih]
          tauto
        · simp only [sharedSegments, beq_iff_eq, same, if_false, List.prefix_nil, reduceCtorEq,
            List.cons_prefix_cons, false_iff]
          rintro ⟨⟨rfl, -⟩, rfl, -⟩
          exact same rfl

theorem areRelated_iff {p q : List String} : areRelated p q = true ↔ p <+: q ∨ q <+: p := by
  simp [areRelated]

/-- From an unrelated package a whole package is never left out. -/
theorem length_lt_of_unrelated {package relative left rest : List String}
    (unrelated : areRelated importer package = false) (beginning : left <+: importer)
    (split : package ++ relative = left ++ rest) : left.length < package.length := by
  apply Nat.lt_of_not_le
  intro longer
  have inside : package <+: left :=
    List.prefix_of_prefix_length_le (List.prefix_append _ _)
      (split ▸ List.prefix_append left rest) longer
  have related := areRelated_iff.mpr (.inr (inside.trans beginning))
  exact absurd (unrelated.symm.trans related) (by simp)

/-- The segments that two unrelated packages share are what a name can leave out of one that
begins like the other. -/
theorem QualifiedName.mem_importedNames_iff {q : QualifiedName}
    (unrelated : areRelated importer q.package = false) :
    name ∈ q.importedNames importer q.package ↔
      ∃ left rest, left <+: importer ∧ q.segments = left ++ rest ∧ name = joinDots rest := by
  have shared : sharedSegments importer q.package <+: q.package :=
    (prefix_sharedSegments_iff.mp List.prefix_rfl).2
  obtain ⟨back, whole⟩ := shared.trans (List.prefix_append q.package q.relative)
  have names : name ∈ q.importedNames importer q.package ↔
      ∃ k ≤ (sharedSegments importer q.package).length, name = joinDots (q.segments.drop k) := by
    simp only [importedNames, List.mem_map, List.mem_reverse, List.mem_range, Nat.lt_succ_iff,
      eq_comm]
  rw [names, segments, ← whole, ← exists_split_iff]
  constructor
  · rintro ⟨left, rest, beginning, split, named⟩
    exact ⟨left, rest, (prefix_sharedSegments_iff.mp beginning).1, split, named⟩
  · rintro ⟨left, rest, beginning, split, named⟩
    refine ⟨left, rest, prefix_sharedSegments_iff.mpr ⟨beginning, ?_⟩, split, named⟩
    rw [whole] at split
    have shorter := length_lt_of_unrelated unrelated beginning split
    exact List.prefix_of_prefix_length_le (split ▸ List.prefix_append left rest)
      (List.prefix_append _ _) shorter.le

/-! ### Matches and their files -/

theorem Wanted.mem_inForeign : ⟨name, e⟩ ∈ w.inForeign importer d ↔
    ∃ candidate, (Element.ofSource d).Within candidate ∧ e ∈ w.targets candidate ∧
      name ∈ e.qualifiedName.importedNames importer e.qualifiedName.package := by
  simp only [inForeign, List.mem_flatMap, Match.mem_under]
  constructor
  · rintro ⟨candidate, met, _, target, named, rfl⟩
    exact ⟨candidate, Element.mem_contents.mp met, target, named⟩
  · rintro ⟨candidate, met, target, named⟩
    exact ⟨candidate, Element.mem_contents.mpr met, e, target, named, rfl⟩

theorem Wanted.source_of_mem_inScope (h : ⟨name, e⟩ ∈ w.inScope top) : e.source = top.source := by
  obtain ⟨candidate, level, reaches, target, -⟩ := mem_inScope.mp h
  exact (source_of_mem_targets target).trans reaches.source_eq

theorem Wanted.source_of_mem_inOwn (h : ⟨name, e⟩ ∈ w.inOwn site) : e.source = site.source := by
  obtain ⟨scope, isScope, seen⟩ := List.mem_flatMap.mp h
  exact (source_of_mem_inScope seen).trans (Element.prefix_of_mem_scopes isScope).1

theorem Wanted.source_of_mem_inImported (h : ⟨name, e⟩ ∈ w.inImported importer d) :
    e.source = d := by
  unfold inImported at h
  split at h
  · exact source_of_mem_inScope h
  · obtain ⟨candidate, met, target, -⟩ := mem_inForeign.mp h
    exact (source_of_mem_targets target).trans met.source_eq

theorem Wanted.source_of_mem_inBuiltIn (h : ⟨name, e⟩ ∈ w.inBuiltIn d) : e.source = d := by
  simp only [inBuiltIn, List.mem_flatMap, Prod.exists, Match.mem_under] at h
  obtain ⟨candidate, level, met, _, target, -, rfl⟩ := h
  exact (source_of_mem_targets target).trans (Element.mem_scopedContents.mp met).source_eq

section Found

variable {visits : List Visit} (contributing : Contributing s p site.source visits)

include contributing

/-- What is found comes from the document of the reference, from one that it sees, or from a
built-in file. -/
theorem mem_found_cases
    (h : ⟨name, e⟩ ∈ w.inOwn site ++ visits.flatMap (w.inVisit importer)) :
    (e.source = site.source ∧ ⟨name, e⟩ ∈ w.inOwn site) ∨
    (e.source ≠ site.source ∧ site.source.Sees s p e.source ∧
      ⟨name, e⟩ ∈ w.inImported importer e.source) ∨
    ∃ module, e.source.id = .builtIn module := by
  simp only [List.mem_append, List.mem_flatMap] at h
  rcases h with own | ⟨v, visit, seen⟩
  · exact .inl ⟨Wanted.source_of_mem_inOwn own, own⟩
  · cases v with
    | imported d =>
      obtain rfl := Wanted.source_of_mem_inImported seen
      obtain ⟨other, sees⟩ := (contributing.imported e.source).mp visit
      exact .inr (.inl ⟨other, sees, seen⟩)
    | builtIn b =>
      obtain ⟨i, -, leads⟩ := (contributing.builtIn b).mp visit
      rw [Wanted.source_of_mem_inBuiltIn seen]
      exact .inr (.inr leads.id_of_builtIn)

/-- What stands in an imported file is found there. -/
theorem mem_found_of_imported (other : e.source ≠ site.source)
    (sees : site.source.Sees s p e.source) (read : ∃ n, e.source.id = .reading n) :
    ⟨name, e⟩ ∈ w.inOwn site ++ visits.flatMap (w.inVisit importer) ↔
      ⟨name, e⟩ ∈ w.inImported importer e.source := by
  constructor
  · intro found
    rcases mem_found_cases contributing found with ⟨own, -⟩ | ⟨-, -, seen⟩ | ⟨module, builtIn⟩
    · exact absurd own other
    · exact seen
    · obtain ⟨n, read⟩ := read
      exact absurd (read.symm.trans builtIn) (by simp)
  · intro seen
    apply List.mem_append_right
    apply List.mem_flatMap.mpr
    exact ⟨.imported e.source, (contributing.imported _).mpr ⟨other, sees⟩, seen⟩

/-- What stands in the document of the reference is found there. -/
theorem mem_found_of_own (own : e.source = site.source) (read : ∃ n, e.source.id = .reading n) :
    ⟨name, e⟩ ∈ w.inOwn site ++ visits.flatMap (w.inVisit importer) ↔
      ⟨name, e⟩ ∈ w.inOwn site := by
  refine ⟨fun found => ?_, List.mem_append_left _⟩
  rcases mem_found_cases contributing found with ⟨-, seen⟩ | ⟨other, -⟩ | ⟨module, builtIn⟩
  · exact seen
  · exact absurd own other
  · obtain ⟨n, read⟩ := read
    exact absurd (read.symm.trans builtIn) (by simp)

end Found

/-! ### The names -/

theorem segments_ofSource : (Element.ofSource d).qualifiedName.segments =
    d.document.packagePath := by
  simp [QualifiedName.segments, Element.qualifiedName, Element.nodes, Element.ofSource,
    relativeSegments]

/-- The names of what stands in imported files: in one of a related package, those that leave
out segments of the package; in any other, those that would be found by someone who looks
outwards from the importer's package, which are never bare. -/
theorem find_imported_names (name : String) {r : ReferenceKind} {c : Criteria}
    {found : List Match} (history : p.sources.History given)
    (known : ∀ n, site.source.id = .reading n → site.source ∈ given)
    (ran : (Query.find site r c).run s p = (.ok found, p'))
    (other : d ≠ site.source) (sees : site.source.Sees s p' d) (source : e.source = d) :
    ∃ w, Wanted.ofCriteria r c = .ok w ∧
      ((site.source.document.packagePath <+: d.document.packagePath ∨
          d.document.packagePath <+: site.source.document.packagePath) →
        (⟨name, e⟩ ∈ found ↔
          (∃ candidate level, (Element.ofSource d).Reaches candidate level ∧
            e ∈ w.targets candidate) ∧
          ∃ k ≤ d.document.packagePath.length,
            name = joinDots (e.qualifiedName.segments.drop k))) ∧
      (¬ (site.source.document.packagePath <+: d.document.packagePath ∨
          d.document.packagePath <+: site.source.document.packagePath) →
        (⟨name, e⟩ ∈ found ↔
          (∃ candidate, (Element.ofSource d).Within candidate ∧ e ∈ w.targets candidate) ∧
          ∃ left rest, left <+: site.source.document.packagePath ∧
            e.qualifiedName.segments = left ++ rest ∧ name = joinDots rest) ∧
        ∀ candidate left rest, e ∈ w.targets candidate →
          left <+: site.source.document.packagePath →
          e.qualifiedName.segments = left ++ rest → 2 ≤ rest.length) := by
  subst source
  obtain ⟨w, visits, valid, grows, contributing, rfl⟩ := find_ok history known ran
  have sensible := Wanted.sensible_of_ofCriteria valid
  obtain ⟨given', -, accounted⟩ := history.accounted.grows grows.sources
  rw [mem_found_of_imported contributing other sees (sees.read accounted).1, ← areRelated_iff]
  refine ⟨w, valid, ?_, fun unrelated => ⟨?_, ?_⟩⟩
  · intro related
    rw [Wanted.inImported, if_pos related, Wanted.mem_inScope]
    have names : ∀ {candidate level}, (Element.ofSource e.source).Reaches candidate level →
        e ∈ w.targets candidate → (name ∈ e.qualifiedName.localNames level ↔
          ∃ k ≤ e.source.document.packagePath.length,
            name = joinDots (e.qualifiedName.segments.drop k)) := by
      intro candidate level reaches target
      have notEnum : (Element.ofSource e.source).kind ≠ .enum := by
        simp [Element.kind, Element.node?, Element.ofSource]
      rw [reaches.mem_localNames_iff_drop sensible target notEnum, segments_ofSource]
    constructor
    · rintro ⟨candidate, level, reaches, target, named⟩
      exact ⟨⟨candidate, level, reaches, target⟩, (names reaches target).mp named⟩
    · rintro ⟨⟨candidate, level, reaches, target⟩, named⟩
      exact ⟨candidate, level, reaches, target, (names reaches target).mpr named⟩
  · rw [Wanted.inImported, if_neg unrelated, Wanted.mem_inForeign]
    have names : name ∈ e.qualifiedName.importedNames _ e.qualifiedName.package ↔ _ :=
      QualifiedName.mem_importedNames_iff (Bool.not_eq_true _ ▸ unrelated)
    constructor
    · rintro ⟨candidate, within_, target, named⟩
      exact ⟨⟨candidate, within_, target⟩, names.mp named⟩
    · rintro ⟨⟨candidate, within_, target⟩, named⟩
      exact ⟨candidate, within_, target, names.mpr named⟩
  · intro candidate left rest target beginning split
    have shorter := length_lt_of_unrelated (Bool.not_eq_true _ ▸ unrelated) beginning split
    have named := List.length_pos_of_ne_nil (Wanted.relative_ne_nil_of_mem_targets sensible target)
    have whole := congrArg List.length split
    simp only [QualifiedName.segments, List.length_append] at whole
    have package : e.qualifiedName.package.length = e.source.document.packagePath.length := rfl
    omega

/-- A file and two that it imports: one of a package around its own, and one of a package
beside it. -/
def neighbourFiles : FileStore where
  entries := [
    ("/a.proto", "package p.q; import 'b.proto'; import 'c.proto';".toUTF8.toList),
    ("/b.proto", "package p; message B { message N { } }".toUTF8.toList),
    ("/c.proto", "package p.x; message C { message N { } }".toUTF8.toList)]

/-- Reading the first of the three files. -/
def neighbourStart : Fetch :=
  SourceSet.empty.fetch Surroundings.plain.frames neighbourFiles schemaExtension "/a.proto"

/-- Types are looked up in the first file. -/
def neighbourLookup (start : Source) : Except QueryError (List Match) × Progress :=
  (Query.find (.ofSource start) .type .anyType).run (.plain neighbourFiles)
    ⟨neighbourStart.sources, [], [], none⟩

/-- From the package beside it, a nested message is not found without its container. -/
theorem find_imported_names_neighbours : ∃ start found p' e,
    neighbourStart.found = some start ∧ neighbourLookup start = (.ok found, p') ∧
    start.Sees (.plain neighbourFiles) p' e.source ∧ ⟨"x.C.N", e⟩ ∈ found ∧
    ∃ left rest, left <+: start.document.packagePath ∧
      e.qualifiedName.segments = left ++ rest ∧ "x.C.N" = joinDots rest ∧ 2 ≤ rest.length := by
  have facts : neighbourStart.found.bind (fun start =>
      (neighbourLookup start).1.toOption.bind fun found => found[6]?.map fun m =>
        (m.name, start.id, m.element.source.id, start.document.packagePath,
          m.element.source.document.packagePath)) =
      some ("x.C.N", .reading 0, .reading 2, ["p", "q"], ["p", "x"]) := by decide +kernel
  obtain ⟨start, opened, facts⟩ := Option.bind_eq_some_iff.mp facts
  obtain ⟨found, returned, facts⟩ := Option.bind_eq_some_iff.mp facts
  obtain ⟨⟨name, e⟩, stands, facts⟩ := Option.map_eq_some_iff.mp facts
  simp only [Prod.mk.injEq] at facts
  obtain ⟨rfl, startId, id, package, package'⟩ := facts
  cases ran : neighbourLookup start with
  | mk result p' =>
    rw [ran] at returned
    cases result with
    | error _ => simp [Except.toOption] at returned
    | ok found' =>
      cases returned
      have history : SourceSet.History neighbourStart.sources (neighbourStart.found.toList ++ []) :=
        .fetch _ neighbourFiles schemaExtension "/a.proto" .start
      have known : ∀ n, (Element.ofSource start).source.id = .reading n →
          (Element.ofSource start).source ∈ neighbourStart.found.toList ++ [] := fun _ _ => by
        simp [opened, Element.ofSource]
      have member := List.mem_of_getElem? stands
      obtain ⟨w, visits, -, -, contributing, split⟩ := find_ok history known ran
      rw [split] at member
      rcases mem_found_cases contributing member with ⟨own, -⟩ | ⟨other, sees, -⟩ | ⟨_, builtIn⟩
      · rw [own] at id
        exact absurd (startId.symm.trans id) (by simp)
      · rw [← split] at member
        obtain ⟨w, -, -, unrelated⟩ :=
          find_imported_names "x.C.N" history known ran other sees rfl
        obtain ⟨names, long⟩ := unrelated (by rw [Element.ofSource, package, package']; decide)
        obtain ⟨⟨candidate, -, target⟩, left, rest, beginning, whole, named⟩ := names.mp member
        exact ⟨start, found, p', e, opened, ran, sees, member, left, rest, beginning, whole, named,
          long candidate left rest target beginning whole⟩
      · exact absurd (id.symm.trans builtIn) (by simp)

end ProtoNames
