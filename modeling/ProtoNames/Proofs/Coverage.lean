import ProtoNames.Proofs.ImportedNames

/-!
Which declarations of a file are found under their full name.

The full walk misses nothing. The scoped walk does not go into extend blocks: groups that are
declared there, and all that these contain, are met only from scopes inside the same block.
`exists_reaches_iff` says so, and `find_fullName_iff` what follows for a reference.
-/

namespace ProtoNames

variable {s : Setup} {p p' : Progress} {given : List Source} {site top candidate c e : Element}
  {d : Source} {w : Wanted} {way : Trail} {body : List Node} {n m : Node} {level : Nat}
  {importer : List String}

/-! ### Ways through blocks -/

/-- The kinds of the blocks that contain other blocks. -/
def Kind.containsBlocks (k : Kind) : Prop := k = .message ∨ k = .group ∨ k = .extend

/-- In a document that keeps to the grammar, blocks stand in messages, groups and extend
blocks only. -/
theorem Node.WellNested.containsBlocks (nested : n.WellNested) (inside : m ∈ n.body)
    (block : m.kind ∈ [Kind.message, .group, .enum, .extend]) : n.kind.containsBlocks := by
  cases nested with
  | leaf l => cases inside
  | @block header body admitted _ =>
    have admitted := admitted m inside
    unfold Kind.containsBlocks
    cases header with
    | enum name =>
      simp only [Grammar.regionOf, Grammar.Region.admits, List.contains_eq_mem,
        decide_eq_true_eq] at admitted
      grind
    | service name =>
      simp only [Grammar.regionOf, Grammar.Region.admits, List.contains_eq_mem,
        decide_eq_true_eq] at admitted
      grind
    | _ => simp [Node.kind, Header.kind]

theorem WayDown.containsBlocks (down : WayDown body way) (nested : ∀ n ∈ body, n.WellNested)
    (block : ∀ x, way.getLast? = some x → x.2.kind ∈ [Kind.message, .group, .enum, .extend]) :
    ∀ x ∈ way.dropLast, x.2.kind.containsBlocks := by
  induction way generalizing body with
  | nil => simp
  | cons link rest ih =>
    obtain ⟨step, n⟩ := link
    obtain ⟨⟨i, rfl, stands⟩, down⟩ := down
    have nested' := nested n (List.mem_of_getElem? stands)
    cases rest with
    | nil => simp
    | cons link' rest' =>
      have onwards := ih down nested'.body (by simpa using block)
      rw [List.dropLast_cons_cons, List.forall_mem_cons]
      refine ⟨?_, onwards⟩
      obtain ⟨⟨j, -, inside⟩, -⟩ := down
      refine nested'.containsBlocks (List.mem_of_getElem? inside) ?_
      cases rest' with
      | nil => exact block link' (by simp)
      | cons link'' rest'' =>
        have kind := onwards link' (by simp)
        unfold Kind.containsBlocks at kind
        grind

theorem Element.eq_down_of_prefix {top e : Element} (source : top.source = e.source)
    (beginning : top.trail <+: e.trail) : ∃ way, e = top.down way := by
  obtain ⟨way, split⟩ := beginning
  refine ⟨way, ?_⟩
  rcases e with ⟨source', trail'⟩
  cases source
  cases split
  rfl

/-- The extend blocks around a place are no further in than an element above it if and only if
there is none on the way down from the element. -/
theorem extends_around_iff :
    (∀ c ∈ (top.down way).containers, c.kind = .extend → c.trail <+: top.trail) ↔
      ∀ x ∈ way.dropLast, x.2.kind ≠ .extend := by
  rcases List.eq_nil_or_concat' way with rfl | ⟨init, last, rfl⟩
  · simp only [Element.down_nil, List.dropLast_nil, List.not_mem_nil, false_implies, implies_true,
      iff_true]
    exact fun c inside _ => (Element.mem_containers.mp inside).2.1
  rw [List.dropLast_concat]
  constructor
  · intro around x hx kind
    obtain ⟨before, after, rfl⟩ := List.append_of_mem hx
    have further := around (top.down (before ++ [x])) ?_ (Element.down_kind.trans kind)
    · have longer := further.length_le
      simp at longer
    · refine Element.mem_containers.mpr ⟨rfl, ⟨after ++ [last], by simp⟩, ?_⟩
      intro same
      have length := congrArg List.length same
      simp at length
  · intro between c inside kind
    obtain ⟨source, beginning, proper⟩ := Element.mem_containers.mp inside
    rw [Element.down_trail, ← List.append_assoc] at beginning proper
    have shorter := (List.prefix_concat_iff.mp beginning).resolve_left proper
    rcases List.prefix_or_prefix_of_prefix shorter (List.prefix_append top.trail init) with
      outer | ⟨part, split⟩
    · exact outer
    · rcases List.eq_nil_or_concat' part with rfl | ⟨part, x, rfl⟩
      · have same : c.trail = top.trail := by rw [← split, List.append_nil]
        exact same ▸ List.prefix_rfl
      · -- further in than the element there is no extend block
        rw [← split, List.prefix_append_right_inj] at shorter
        obtain ⟨way, rfl⟩ :=
          Element.eq_down_of_prefix (show top.source = c.source from source.symm) ⟨_, split⟩
        obtain rfl : way = part ++ [x] := by
          rw [Element.down_trail] at split
          exact (List.append_cancel_left split).symm
        rw [Element.down_kind] at kind
        exact absurd kind (between x (shorter.subset (by simp)))

/-- The nodes on the way to what stands in a document. -/
theorem Element.Within.wayDown (h : (Element.ofSource d).Within (top.down way)) :
    WayDown top.body way := by
  obtain ⟨trail, down, whole⟩ := Element.within_iff.mp h
  obtain rfl : top.trail ++ way = trail := by
    have trails := congrArg Element.trail whole
    simpa [Element.ofSource] using trails
  obtain ⟨-, down⟩ := wayDown_append.mp down
  have start : (Element.ofSource d).down top.trail = top := by
    have source := congrArg Element.source whole
    rcases top with ⟨source', trail'⟩
    cases source
    simp [Element.down, Element.ofSource]
  rwa [← Element.down_body, start] at down

section Targets

theorem document_mem_containers (declared : (Element.ofSource d).Within candidate)
    (block : candidate.kind ≠ .document) : .ofSource d ∈ candidate.containers := by
  refine Element.mem_containers.mpr ⟨declared.source_eq.symm, List.nil_prefix, ?_⟩
  intro empty
  exact block (Element.kind_eq_document_iff.mpr empty.symm)

variable (nested : d.document.WellNested) (declared : (Element.ofSource d).Within candidate)
  (sensible : w.Sensible) (target : e ∈ w.targets candidate)

include nested declared

theorem wellNested_of_mem_containers (inside : top ∈ candidate.containers) :
    ∀ x ∈ top.trail, x.2.WellNested := by
  have nested' : candidate.source.document.WellNested := by
    rw [declared.source_eq]
    exact nested
  intro x hx
  have beginning := (Element.mem_containers.mp inside).2.1
  exact declared.attached.wellNested nested' x (beginning.subset hx)

include sensible target

/-- A candidate is met from those of its containers behind which there is no extend block any
more. -/
theorem exists_reaches_iff : (∃ level, top.Reaches candidate level) ↔
    top ∈ candidate.containers ∧
      ∀ c ∈ candidate.containers, c.kind = .extend → c.trail <+: top.trail := by
  constructor
  · rintro ⟨level, reaches⟩
    obtain ⟨way, ⟨nonempty, -, between⟩, -, rfl⟩ := Element.reaches_iff.mp reaches
    refine ⟨Element.mem_containers.mpr ⟨rfl, List.prefix_append _ _, by simpa using nonempty⟩, ?_⟩
    apply extends_around_iff.mpr
    intro x hx kind
    have opens := Node.opensScope_iff.mp (between x hx)
    simp [kind] at opens
  · rintro ⟨inside, around⟩
    have above := wellNested_of_mem_containers nested declared inside
    obtain ⟨source, beginning, proper⟩ := Element.mem_containers.mp inside
    obtain ⟨way, rfl⟩ := Element.eq_down_of_prefix source beginning
    have nonempty : way ≠ [] := by simpa using proper
    have between := extends_around_iff.mp around
    obtain ⟨init, ⟨step, last⟩, rfl⟩ := (List.eq_nil_or_concat' way).resolve_left nonempty
    have down := declared.wayDown
    have bodies : ∀ n ∈ top.body, n.WellNested :=
      Element.wellNested_body (declared.source_eq ▸ nested) above
    have kinds := down.containsBlocks bodies fun x isLast => by
      obtain rfl : (step, last) = x := by simpa using isLast
      have kind := Wanted.kind_of_mem_targets sensible target
      rwa [Element.down_kind] at kind
    refine ⟨init.length, Element.reaches_iff.mpr
      ⟨_, ⟨by simp, down, fun x hx => ?_⟩, by simp, rfl⟩⟩
    rcases kinds x hx with kind | kind | kind
    · exact Node.opensScope_iff.mpr (.inl kind)
    · exact Node.opensScope_iff.mpr (.inr kind)
    · exact absurd kind (between x hx)

/-! ### Full names -/

theorem fullName_mem_inScope_iff :
    ⟨e.fullName, e⟩ ∈ w.inScope top ↔ ∃ level, top.Reaches candidate level := by
  rw [Wanted.mem_inScope]
  constructor
  · rintro ⟨other, level, reaches, target', -⟩
    obtain rfl := Wanted.candidate_unique target target'
    exact ⟨level, reaches⟩
  · rintro ⟨level, reaches⟩
    have inside := ((exists_reaches_iff nested declared sensible target).mp ⟨level, reaches⟩).1
    have notEnum : top.kind ≠ .enum := by
      refine reaches.kind_ne_enum (fun n node => ?_) sensible target
      obtain ⟨link, last, rfl⟩ := Option.map_eq_some_iff.mp node
      exact wellNested_of_mem_containers nested declared inside link (List.mem_of_getLast? last)
    exact ⟨candidate, level, reaches, target,
      (reaches.mem_localNames_iff_drop sensible target notEnum).mpr ⟨0, Nat.zero_le _, rfl⟩⟩

/-- In the reference's own document a declaration is found under its full name if the
reference stands in all extend blocks that the declaration stands in. -/
theorem fullName_mem_inOwn_iff (own : site.source = d) : ⟨e.fullName, e⟩ ∈ w.inOwn site ↔
    ∀ c ∈ candidate.containers, c.kind = .extend → c ∈ site.scopes := by
  simp only [Wanted.inOwn, List.mem_flatMap,
    fullName_mem_inScope_iff nested declared sensible target,
    exists_reaches_iff nested declared sensible target]
  constructor
  · rintro ⟨scope, isScope, inside, around⟩ c inside' kind
    refine Element.mem_scopes_of_prefix isScope ?_ (around c inside' kind)
    exact (Element.mem_containers.mp inside').1.trans (Element.mem_containers.mp inside).1.symm
  · intro around
    have document := document_mem_containers declared
      (Wanted.kind_ne_document_of_mem_targets sensible target)
    have prefixes : ∀ c ∈ candidate.containers, c.trail <+: candidate.trail := by
      intro c inside
      exact (Element.mem_containers.mp inside).2.1
    -- the innermost extend block, or the document if there is none
    by_cases extended : ∃ c ∈ candidate.containers, c.kind = .extend
    · obtain ⟨c, inside, kind⟩ := extended
      obtain ⟨inmost, inside, kind, others⟩ :=
        Element.exists_inmost (P := fun c => c.kind = .extend) prefixes inside kind
      exact ⟨inmost, around inmost inside kind, inside, others⟩
    · refine ⟨.ofSource d, own ▸ site.document_mem_scopes, document, ?_⟩
      intro c inside kind
      exact absurd ⟨c, inside, kind⟩ extended

/-- An imported file of a related package withholds what stands in extend blocks. -/
theorem fullName_mem_inImported_iff : ⟨e.fullName, e⟩ ∈ w.inImported importer d ↔
    (areRelated importer d.document.packagePath = true →
      ∀ c ∈ candidate.containers, c.kind ≠ .extend) := by
  unfold Wanted.inImported
  split
  · next related =>
    rw [fullName_mem_inScope_iff nested declared sensible target,
      exists_reaches_iff nested declared sensible target]
    simp only [related, true_implies]
    constructor
    · rintro ⟨-, around⟩ c inside kind
      have outmost := List.prefix_nil.mp (around c inside kind)
      rw [Element.kind_eq_document_iff.mpr outmost] at kind
      cases kind
    · intro none
      have notDocument := Wanted.kind_ne_document_of_mem_targets sensible target
      refine ⟨document_mem_containers declared notDocument, ?_⟩
      intro c inside kind
      exact absurd kind (none c inside)
  · next unrelated =>
    refine iff_of_true (Wanted.mem_inForeign.mpr ⟨candidate, declared, target, ?_⟩)
      fun related => absurd related unrelated
    refine List.mem_map.mpr ⟨0, ?_, rfl⟩
    simp

end Targets

/-- Which declarations are found under their full name, wherever they stand. In an extend block
in the reference's own document, those are found that the reference stands next to. In one in
an imported file, they are found if the packages are not related. -/
theorem find_fullName_iff {r : ReferenceKind} {c : Criteria} {found : List Match}
    (history : p.sources.History given) (known : site.source ∈ given)
    (ran : (Query.find site r c).run s p = (.ok found, p'))
    (visible : e.source = site.source ∨ site.source.Sees s p' e.source)
    (declared : (Element.ofSource e.source).Within candidate) :
    ∃ w, Wanted.ofCriteria r c = .ok w ∧ (e ∈ w.targets candidate →
      (e.source = site.source → (⟨e.fullName, e⟩ ∈ found ↔
        ∀ c ∈ candidate.containers, c.kind = .extend → c ∈ site.scopes)) ∧
      (e.source ≠ site.source → (⟨e.fullName, e⟩ ∈ found ↔
        (site.source.document.packagePath <+: e.source.document.packagePath ∨
            e.source.document.packagePath <+: site.source.document.packagePath →
          ∀ c ∈ candidate.containers, c.kind ≠ .extend)))) := by
  obtain ⟨w, visits, valid, grows, contributing, rfl⟩ := find_ok history (fun _ _ => known) ran
  have sensible := Wanted.sensible_of_ofCriteria valid
  obtain ⟨given', more, accounted⟩ := history.accounted.grows grows.sources
  refine ⟨w, valid, ?_⟩
  intro target
  constructor
  · intro own
    have member : e.source ∈ given' := own ▸ more known
    obtain ⟨n, -, read⟩ := accounted.numbered _ member
    obtain ⟨frames, uri, text, parsed⟩ := accounted.parsed _ member
    have nested := Document.wellNested_of_parse parsed
    rw [mem_found_of_own contributing own ⟨n, read⟩]
    exact fullName_mem_inOwn_iff nested declared sensible target own.symm
  · intro other
    have sees := visible.resolve_left other
    obtain ⟨read, frames, uri, text, parsed⟩ := sees.read accounted
    have nested := Document.wellNested_of_parse parsed
    rw [mem_found_of_imported contributing other sees read, ← areRelated_iff]
    exact fullName_mem_inImported_iff nested declared sensible target

/-- What stands directly in an element has the scopes of a reference there around it. -/
theorem Element.mem_scopes_inside (inside : e ∈ top.children) (around : c ∈ e.containers) :
    c ∈ top.inside.scopes := by
  obtain ⟨i, n, -, rfl⟩ := Element.mem_children.mp inside
  obtain ⟨source, beginning, proper⟩ := Element.mem_containers.mp around
  have shorter := (List.prefix_concat_iff.mp beginning).resolve_left proper
  have notDocument : top.inside.kind ≠ .document := by
    rw [ne_eq, kind_eq_document_iff]
    simp [Element.inside]
  rw [scopes, if_neg notDocument]
  refine mem_containers.mpr ⟨source, shorter.trans (List.prefix_append _ _), ?_⟩
  intro same
  have bounded := shorter.length_le
  rw [same] at bounded
  simp [Element.inside] at bounded

/-- A file that extends a message of its own by a group. -/
def groupFiles : FileStore where
  entries :=
    [("/a.proto", "message Foo { } extend Foo { optional group G = 1 { } }".toUTF8.toList)]

/-- Reading the file. -/
def groupStart : Fetch :=
  SourceSet.empty.fetch Surroundings.plain.frames groupFiles schemaExtension "/a.proto"

/-- Types are looked up in the file. -/
def groupLookup (site : Element) : Except QueryError (List Match) × Progress :=
  (Query.find site .type .anyType).run (.plain groupFiles)
    ⟨groupStart.sources, [], [], none⟩

/-- From inside the extend block the group is found. -/
theorem find_fullName_of_inside : ∃ start block e found p',
    groupStart.found = some start ∧ (Element.ofSource start).child? 1 = some block ∧
    block.kind = .extend ∧ e ∈ block.children ∧ groupLookup block.inside = (.ok found, p') ∧
    ⟨e.fullName, e⟩ ∈ found := by
  have facts : groupStart.found.bind (fun start =>
      ((Element.ofSource start).child? 1).bind fun block => (block.child? 0).map fun e =>
        (block.kind, e.kind, (groupLookup block.inside).1.isOk)) =
      some (.extend, .group, true) := by decide +kernel
  obtain ⟨start, opened, facts⟩ := Option.bind_eq_some_iff.mp facts
  obtain ⟨block, second, facts⟩ := Option.bind_eq_some_iff.mp facts
  obtain ⟨e, first, facts⟩ := Option.map_eq_some_iff.mp facts
  simp only [Prod.mk.injEq] at facts
  obtain ⟨isExtend, isGroup, returned⟩ := facts
  have inside : e ∈ block.children := Element.mem_children_of_child? first
  have declared : (Element.ofSource start).Within e :=
    .child (.child .itself (Element.mem_children_of_child? second)) inside
  have own : block.source = start :=
    (Element.Within.child .itself (Element.mem_children_of_child? second)).source_eq
  cases ran : groupLookup block.inside with
  | mk result p' =>
    rw [ran] at returned
    cases result with
    | error _ => simp [Except.isOk, Except.toBool] at returned
    | ok found =>
      refine ⟨start, block, e, found, p', opened, second, isExtend, inside, ran, ?_⟩
      have history : SourceSet.History groupStart.sources (groupStart.found.toList ++ []) :=
        .fetch _ groupFiles schemaExtension "/a.proto" .start
      have known : block.inside.source ∈ groupStart.found.toList ++ [] := by
        simp [opened, Element.inside, own]
      have same : e.source = block.inside.source := declared.source_eq.trans own.symm
      have place : (Element.ofSource e.source).Within e := by
        rw [declared.source_eq]
        exact declared
      obtain ⟨w, valid, spec⟩ := find_fullName_iff history known ran (.inl same) place
      cases valid
      have target : e ∈ (Wanted.types [.message, .group, .enum]).targets e := by
        simp [Wanted.targets, isGroup]
      exact ((spec target).1 same).mpr fun c around _ => Element.mem_scopes_inside inside around

/-- From outside it is not, although the group is declared in the document, and has a name. -/
theorem group_not_found : ∃ start e found p',
    groupStart.found = some start ∧ (Element.ofSource start).Within e ∧ e.kind = .group ∧
    groupLookup (.ofSource start) = (.ok found, p') ∧ e.fullName ∉ found.map Match.name := by
  have facts : groupStart.found.bind (fun start =>
      ((Element.ofSource start).contents[3]?).bind fun e =>
        (groupLookup (.ofSource start)).1.toOption.map fun found =>
          (e.kind, e.fullName, found.map Match.name)) =
      some (.group, "G", ["Foo"]) := by decide +kernel
  obtain ⟨start, opened, facts⟩ := Option.bind_eq_some_iff.mp facts
  obtain ⟨e, stands, facts⟩ := Option.bind_eq_some_iff.mp facts
  obtain ⟨found, returned, facts⟩ := Option.map_eq_some_iff.mp facts
  simp only [Prod.mk.injEq] at facts
  obtain ⟨isGroup, name, names⟩ := facts
  have declared := Element.mem_contents.mp (List.mem_of_getElem? stands)
  cases ran : groupLookup (.ofSource start) with
  | mk result p' =>
    rw [ran] at returned
    cases result with
    | error _ => simp [Except.toOption] at returned
    | ok found' =>
      cases returned
      exact ⟨start, e, found, p', opened, declared, isGroup, ran, by rw [name, names]; decide⟩

end ProtoNames
