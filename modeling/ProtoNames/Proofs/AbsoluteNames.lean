import ProtoNames.Proofs.ImportedNames

/-!
Looking up absolute names.

* `Covers`: names of a declaration that leave out leading segments only, never all, and among
  which is the full name. In each of the three ways the names that a walk gives are such names:
  it never counts more messages and groups than there are segments.
* `inFull_of_found`: so it is for all that is found, from whatever file it comes.
* `eq_of_isSame`: no two declarations are found that are the same place in the same document.
* `lookup_absolute`: an absolute name finds the declarations in the scope that are so called.
-/

namespace ProtoNames

variable {s : Setup} {p p' : Progress} {given : List Source} {site top candidate e e' : Element}
  {d d' : Source} {w : Wanted} {name : String} {importer : List String} {level : Nat}
  {q : QualifiedName} {names : List String} {nodes others : List Node}

/-! ### Names -/

namespace QualifiedName

/-- A name that leaves out leading segments, but not all. -/
def IsEnd (q : QualifiedName) (name : String) : Prop :=
  ∃ left rest, rest ≠ [] ∧ q.segments = left ++ rest ∧ name = joinDots rest

/-- Names of which each leaves out leading segments, and one leaves out none. -/
structure Covers (q : QualifiedName) (names : List String) : Prop where
  ends : ∀ name ∈ names, q.IsEnd name
  full : q.full ∈ names

theorem isEnd_full (named : q.segments ≠ []) : q.IsEnd q.full := ⟨[], q.segments, named, rfl, rfl⟩

theorem isEnd_of_mem_suffixNames {least : Nat} {front segments : List String}
    (split : q.segments = front ++ segments) (h : name ∈ suffixNames (least + 1) segments) :
    q.IsEnd name := by
  simp only [suffixNames, List.mem_map, List.mem_range'_1] at h
  obtain ⟨n, ⟨least, most⟩, rfl⟩ := h
  refine ⟨front ++ segments.take (segments.length - n), _, ?_, ?_, rfl⟩
  · apply List.ne_nil_of_length_pos
    rw [List.length_drop]
    omega
  · rw [split, List.append_assoc, List.take_append_drop]

theorem covers_localNames (deep : level < q.segments.length) : q.Covers (q.localNames level) := by
  constructor
  · intro name named
    exact isEnd_of_mem_suffixNames (List.nil_append _).symm named
  · simp only [localNames, suffixNames, List.mem_map, List.mem_range'_1]
    refine ⟨q.segments.length, by omega, ?_⟩
    rw [Nat.sub_self]
    rfl

theorem segments_ne_nil (named : q.relative ≠ []) : q.segments ≠ [] := by
  simp [segments, named]

theorem covers_descriptorNames (named : q.relative ≠ []) :
    q.Covers (q.descriptorNames level) := by
  constructor
  · intro name inside
    rcases List.mem_append.mp inside with inside | isFull
    · exact isEnd_of_mem_suffixNames rfl inside
    · rw [List.mem_singleton.mp isFull]
      exact isEnd_full (segments_ne_nil named)
  · exact List.mem_append_right _ (List.mem_singleton_self _)

theorem covers_importedNames (named : q.relative ≠ []) :
    q.Covers (q.importedNames importer q.package) := by
  have shorter : (sharedSegments importer q.package).length ≤ q.package.length :=
    (prefix_sharedSegments_iff.mp List.prefix_rfl).2.length_le
  have longer := List.length_pos_of_ne_nil named
  constructor
  · intro name inside
    simp only [importedNames, List.mem_map, List.mem_reverse, List.mem_range] at inside
    obtain ⟨k, bound, rfl⟩ := inside
    refine ⟨q.segments.take k, q.segments.drop k, ?_, (List.take_append_drop _ _).symm, rfl⟩
    apply List.ne_nil_of_length_pos
    rw [List.length_drop, segments, List.length_append]
    omega
  · simp only [importedNames, List.mem_map, List.mem_reverse, List.mem_range]
    exact ⟨0, by omega, rfl⟩

end QualifiedName

theorem length_relativeSegments_append (nonempty : others ≠ []) :
    (relativeSegments others).length ≤ (relativeSegments (nodes ++ others)).length := by
  obtain ⟨init, last, rfl⟩ := (List.eq_nil_or_concat' others).resolve_left nonempty
  rw [← List.append_assoc, relativeSegments_append_singleton, relativeSegments_append_singleton,
    List.filterMap_append]
  simp only [List.length_append]
  omega

/-- There are never more messages and groups on the way to a target than it has segments. -/
theorem Element.Reaches.level_lt (sensible : w.Sensible) (reaches : top.Reaches candidate level)
    (target : e ∈ w.targets candidate) : level < e.qualifiedName.segments.length := by
  obtain ⟨way, nonempty, rfl, length⟩ := reaches.exists_way_of_mem_targets sensible target
  have longer : (relativeSegments (way.map (·.2))).length ≤
      (relativeSegments (top.nodes ++ way.map (·.2))).length :=
    length_relativeSegments_append (by simpa using nonempty)
  rw [QualifiedName.segments, List.length_append, Element.qualifiedName, Element.nodes_down]
  simp only
  omega

/-! ### Matches -/

/-- Matches of which each has a name that leaves out leading segments of the full name, and
among which is the full name of each declaration. -/
def InFull (found : List Match) : Prop :=
  ∀ m ∈ found, m.element.qualifiedName.IsEnd m.name ∧ ⟨m.element.fullName, m.element⟩ ∈ found

theorem inFull_under (covers : e.qualifiedName.Covers names) : InFull (Match.under names e) := by
  intro m inside
  obtain ⟨named, rfl⟩ := Match.mem_under.mp inside
  exact ⟨covers.ends _ named, Match.mem_under.mpr ⟨covers.full, rfl⟩⟩

theorem InFull.append {found others : List Match} (h : InFull found) (h' : InFull others) :
    InFull (found ++ others) := by
  intro m inside
  rcases List.mem_append.mp inside with inside | inside
  · exact ⟨(h m inside).1, List.mem_append_left _ (h m inside).2⟩
  · exact ⟨(h' m inside).1, List.mem_append_right _ (h' m inside).2⟩

theorem inFull_flatMap {α : Type} {items : List α} {f : α → List Match}
    (h : ∀ a ∈ items, InFull (f a)) : InFull (items.flatMap f) := by
  intro m inside
  obtain ⟨a, member, inside⟩ := List.mem_flatMap.mp inside
  exact ⟨(h a member m inside).1, List.mem_flatMap.mpr ⟨a, member, (h a member m inside).2⟩⟩

section Sensible

variable (sensible : w.Sensible)

include sensible

theorem Wanted.inFull_inScope (top : Element) : InFull (w.inScope top) := by
  refine inFull_flatMap fun ⟨candidate, level⟩ met => inFull_flatMap fun e target => ?_
  have reaches := Element.mem_scopedContents.mp met
  exact inFull_under (QualifiedName.covers_localNames (reaches.level_lt sensible target))

theorem Wanted.inFull_inVisit (importer : List String) (v : Visit) :
    InFull (w.inVisit importer v) := by
  cases v with
  | builtIn b =>
    refine inFull_flatMap fun ⟨candidate, level⟩ _ => inFull_flatMap fun e target => ?_
    exact inFull_under
      (QualifiedName.covers_descriptorNames (relative_ne_nil_of_mem_targets sensible target))
  | imported d =>
    simp only [inVisit, inImported]
    split
    · exact inFull_inScope sensible _
    · refine inFull_flatMap fun candidate _ => inFull_flatMap fun e target => ?_
      exact inFull_under
        (QualifiedName.covers_importedNames (relative_ne_nil_of_mem_targets sensible target))

/-- Whatever is found is found under its full name as well. -/
theorem Wanted.inFull_found (site : Element) (importer : List String) (visits : List Visit) :
    InFull (w.inOwn site ++ visits.flatMap (w.inVisit importer)) := by
  apply InFull.append
  · exact inFull_flatMap fun scope _ => inFull_inScope sensible scope
  · exact inFull_flatMap fun v _ => inFull_inVisit sensible importer v

end Sensible

/-! ### Declarations that are one -/

/-- A document that a module carries. -/
def Source.IsBuiltIn (d : Source) (modules : Builtin.Modules) : Prop :=
  ∃ module, d.id = .builtIn module ∧ modules.document module = .ok d.document

/-- A document in which references can stand: one that was given out, or a built-in file. -/
def Source.IsAvailable (d : Source) (modules : Builtin.Modules) (given : List Source) : Prop :=
  d ∈ given ∨ d.IsBuiltIn modules

theorem Source.IsAvailable.known {modules : Builtin.Modules} (h : d.IsAvailable modules given) :
    ∀ n, d.id = .reading n → d ∈ given := by
  intro n read
  refine h.resolve_right ?_
  rintro ⟨module, id, -⟩
  exact absurd (read.symm.trans id) (by simp)

/-- Available documents are told apart by their identity. -/
theorem Source.IsAvailable.eq_of_id {modules : Builtin.Modules} {sources : SourceSet}
    (accounted : sources.Accounted given) (h : d.IsAvailable modules given)
    (h' : d'.IsAvailable modules given) (same : d.id = d'.id) : d = d' := by
  rcases h with member | ⟨module, id, loaded⟩ <;> rcases h' with member' | ⟨module', id', loaded'⟩
  · exact accounted.distinct d member d' member' same
  · obtain ⟨n, -, numbered⟩ := accounted.numbered d member
    rw [numbered, id'] at same
    cases same
  · obtain ⟨n, -, numbered⟩ := accounted.numbered d' member'
    rw [id, numbered] at same
    cases same
  · rw [id, id'] at same
    cases same
    rcases d with ⟨_, document⟩
    rcases d' with ⟨_, document'⟩
    cases id
    cases id'
    cases loaded.symm.trans loaded'
    rfl

theorem WayDown.eq_of_steps {body : List Node} {way way' : Trail} (down : WayDown body way)
    (down' : WayDown body way') (same : way.map (·.1) = way'.map (·.1)) : way = way' := by
  induction way generalizing body way' with
  | nil =>
    have empty : way' = [] := by simpa using same.symm
    exact empty.symm
  | cons link rest ih =>
    obtain ⟨step, n⟩ := link
    obtain ⟨⟨i, rfl, stands⟩, down⟩ := down
    cases way' with
    | nil => cases same
    | cons link' rest' =>
      obtain ⟨step', n'⟩ := link'
      obtain ⟨⟨i', rfl, stands'⟩, down'⟩ := down'
      simp only [List.map_cons, List.cons.injEq, Step.child.injEq] at same
      obtain ⟨rfl, same⟩ := same
      cases stands.symm.trans stands'
      rw [ih down down' same]

/-- In one document a declaration is given by the steps down to it. -/
theorem Element.Within.eq_of_steps (h : (Element.ofSource e.source).Within e)
    (h' : (Element.ofSource e'.source).Within e') (source : e.source = e'.source)
    (steps : e.steps = e'.steps) : e = e' := by
  obtain ⟨way, down, whole⟩ := within_iff.mp h
  obtain ⟨way', down', whole'⟩ := within_iff.mp h'
  have same : way = way' := by
    rw [whole, whole'] at steps
    rw [← source] at down'
    exact down.eq_of_steps down' (by simpa [Element.steps, Element.ofSource] using steps)
  rw [whole, whole', source, same]

theorem Element.Reaches.body_ne_nil (reaches : top.Reaches candidate level) : top.body ≠ [] := by
  induction reaches with
  | child inside =>
    obtain ⟨i, n, stands, -⟩ := mem_children.mp inside
    exact List.ne_nil_of_mem (List.mem_of_getElem? stands)
  | deeper _ _ _ ih => exact ih

theorem Element.Reaches.within (reaches : top.Reaches candidate level) : top.Within candidate := by
  induction reaches with
  | child inside => exact .child .itself inside
  | deeper _ _ inside ih => exact .child ih inside

theorem Element.Within.trans {c : Element} (h : c.Within top) (h' : top.Within e) :
    c.Within e := by
  induction h' with
  | itself => exact h
  | child _ inside ih => exact .child ih inside

theorem Wanted.within_of_mem_targets (target : e ∈ w.targets candidate) : candidate.Within e := by
  rcases itself_or_child target with ⟨-, rfl⟩ | ⟨-, inside⟩
  · exact .itself
  · exact .child .itself inside

theorem Element.node?_ne_leaf (body : e.body ≠ []) (l : Leaf) : e.node? ≠ some (.leaf l) := by
  intro node
  exact body (by simp [Element.body, node, Node.body])

/-- Whatever is no leaf, around a place in a document, stands in the document. -/
theorem Element.Attached.within_of_prefix {trail : Trail} (attached : site.Attached)
    (beginning : trail <+: site.trail)
    (block : ∀ l, (⟨site.source, trail⟩ : Element).node? ≠ some (.leaf l)) :
    (Element.ofSource site.source).Within ⟨site.source, trail⟩ := by
  induction attached generalizing trail with
  | document source =>
    rw [List.prefix_nil.mp beginning]
    exact .itself
  | @child e c i _ stands ih =>
    have inside := mem_children_of_child? stands
    obtain ⟨n, there, rfl⟩ := Option.map_eq_some_iff.mp stands
    have body : e.body ≠ [] := List.ne_nil_of_mem (List.mem_of_getElem? there)
    rcases List.prefix_concat_iff.mp beginning with rfl | outer
    · exact .child (ih List.prefix_rfl (node?_ne_leaf body)) inside
    · exact ih outer block
  | @option e o i _ stands ih =>
    simp only [Element.option?, Option.bind_eq_bind, Option.bind_eq_some_iff, Option.pure_def,
      Option.some.injEq] at stands
    obtain ⟨n, -, setting, -, rfl⟩ := stands
    rcases List.prefix_concat_iff.mp beginning with rfl | outer
    · exact absurd (by simp [Element.node?]) (block (.option setting))
    · exact ih outer block
  | inside _ ih =>
    rcases List.prefix_concat_iff.mp beginning with rfl | outer
    · exact absurd (by simp [Element.node?]) (block (.field undeclaredField))
    · exact ih outer block

theorem Wanted.within_of_mem_inOwn (attached : site.Attached) (h : ⟨name, e⟩ ∈ w.inOwn site) :
    (Element.ofSource site.source).Within e := by
  obtain ⟨⟨source, trail⟩, isScope, seen⟩ := List.mem_flatMap.mp h
  obtain ⟨candidate, level, reaches, target, -⟩ := mem_inScope.mp seen
  obtain ⟨rfl, beginning⟩ := Element.prefix_of_mem_scopes isScope
  have inside := attached.within_of_prefix beginning (Element.node?_ne_leaf reaches.body_ne_nil)
  exact (inside.trans reaches.within).trans (within_of_mem_targets target)

theorem Wanted.within_of_mem_inVisit {v : Visit} (h : ⟨name, e⟩ ∈ w.inVisit importer v) :
    (Element.ofSource e.source).Within e ∧ (v = .imported e.source ∨ v = .builtIn e.source) := by
  cases v with
  | builtIn b =>
    obtain rfl := source_of_mem_inBuiltIn h
    simp only [inVisit, inBuiltIn, List.mem_flatMap, Prod.exists, Match.mem_under] at h
    obtain ⟨candidate, level, met, _, target, -, rfl⟩ := h
    have reaches := Element.mem_scopedContents.mp met
    exact ⟨reaches.within.trans (within_of_mem_targets target), .inr rfl⟩
  | imported d =>
    obtain rfl := source_of_mem_inImported h
    refine ⟨?_, .inl rfl⟩
    simp only [inVisit, inImported] at h
    split at h
    · obtain ⟨candidate, level, reaches, target, -⟩ := mem_inScope.mp h
      exact reaches.within.trans (within_of_mem_targets target)
    · obtain ⟨candidate, met, target, -⟩ := mem_inForeign.mp h
      exact met.trans (within_of_mem_targets target)

/-! ### Distinct items -/

section Distinct

variable {α : Type} {same : α → α → Bool} {items : List α} {a : α}

theorem mem_distinct (unique : ∀ a ∈ items, ∀ b ∈ items, same a b = true → a = b) :
    a ∈ distinct same items ↔ a ∈ items := by
  induction items with
  | nil => simp [distinct]
  | cons first rest ih =>
    have unique' : ∀ a ∈ rest, ∀ b ∈ rest, same a b = true → a = b := fun a ha b hb =>
      unique a (List.mem_cons_of_mem _ ha) b (List.mem_cons_of_mem _ hb)
    simp only [distinct, List.mem_cons, List.mem_filter, ih unique', Bool.not_eq_true']
    constructor
    · rintro (isFirst | ⟨later, -⟩)
      · exact .inl isFirst
      · exact .inr later
    · rintro (isFirst | later)
      · exact .inl isFirst
      · cases again : same first a with
        | false => exact .inr ⟨later, rfl⟩
        | true =>
          have equal := unique first List.mem_cons_self a (List.mem_cons_of_mem _ later) again
          exact .inl equal.symm

theorem pairwise_distinct : (distinct same items).Pairwise fun a b => same a b = false := by
  induction items with
  | nil => exact .nil
  | cons first rest ih =>
    refine .cons ?_ (ih.filter _)
    intro b later
    simpa using (List.mem_filter.mp later).2

theorem nodup_distinct (refl : ∀ a, same a a = true) : (distinct same items).Nodup := by
  refine pairwise_distinct.imp ?_
  rintro a b different rfl
  exact absurd (different.symm.trans (refl a)) (by simp)

theorem distinct_of_pairwise (apart : items.Pairwise fun a b => same a b = false) :
    distinct same items = items := by
  induction apart with
  | nil => rfl
  | @cons first rest later _ ih =>
    rw [distinct, ih, List.filter_eq_self.mpr]
    intro b member
    simp [later b member]

end Distinct

theorem Element.isSame_refl (e : Element) : e.isSame e = true := by simp [isSame]

theorem Element.isSame_iff : e.isSame e' = true ↔
    e.source.id = e'.source.id ∧ e.steps = e'.steps := by
  simp [isSame]

theorem Element.isSame_comm : e.isSame e' = e'.isSame e := by
  rw [isSame, isSame, BEq.comm (a := e.source.id), BEq.comm (a := e.steps)]

/-! ### Looking up -/

section Found

variable {r : ReferenceKind} {c : Criteria} {found : List Match}
  (history : p.sources.History given) (available : site.source.IsAvailable s.modules given)
  (ran : (Query.find site r c).run s p = (.ok found, p'))

include history available ran

/-- Whatever is found is found under its full name as well. -/
theorem inFull_of_found : InFull found := by
  obtain ⟨w, visits, valid, -, -, rfl⟩ := find_ok history available.known ran
  exact Wanted.inFull_found (Wanted.sensible_of_ofCriteria valid) site _ visits

variable (attached : site.Attached)

include attached

/-- All that is found has its place in a document, and these documents can be told apart. -/
theorem place_of_mem_found : ∃ given', p'.sources.Accounted given' ∧
    ∀ m ∈ found, m.element.source.IsAvailable s.modules given' ∧
      (Element.ofSource m.element.source).Within m.element := by
  have known := available.known
  obtain ⟨w, visits, -, grows, contributing, split⟩ := find_ok history known ran
  obtain ⟨given', more, accounted⟩ := history.accounted.grows grows.sources
  refine ⟨given', accounted, ?_⟩
  rintro ⟨name, e⟩ member
  rw [split] at member
  rcases List.mem_append.mp member with own | visited
  · have within_ := Wanted.within_of_mem_inOwn attached own
    rw [Wanted.source_of_mem_inOwn own]
    exact ⟨available.imp_left fun member => more member, within_⟩
  · obtain ⟨v, visit, seen⟩ := List.mem_flatMap.mp visited
    obtain ⟨within_, rfl | rfl⟩ := Wanted.within_of_mem_inVisit seen
    · obtain ⟨-, sees⟩ := (contributing.imported _).mp visit
      obtain ⟨u, kept⟩ := find_stored history known ran sees
      exact ⟨.inl (accounted.kept kept), within_⟩
    · obtain ⟨i, -, leads⟩ := (contributing.builtIn _).mp visit
      exact ⟨.inr leads.loaded, within_⟩

theorem eq_of_isSame : ∀ m ∈ found, ∀ m' ∈ found, m.element.isSame m'.element = true →
    m.element = m'.element := by
  obtain ⟨given', accounted, place⟩ := place_of_mem_found history available ran attached
  intro m member m' member' same
  obtain ⟨id, steps⟩ := Element.isSame_iff.mp same
  obtain ⟨available, within_⟩ := place m member
  obtain ⟨available', within'⟩ := place m' member'
  exact within_.eq_of_steps within' (available.eq_of_id accounted available' id) steps

/-- No two matches are one, so all that is found is in the scope. -/
theorem mem_entries {m : Match} : m ∈ (Scope.ofMatches found).entries ↔ m ∈ found := by
  apply mem_distinct
  rintro ⟨name, e⟩ member ⟨name', e'⟩ member' same
  simp only [Match.isSame, Bool.and_eq_true, beq_iff_eq] at same
  obtain ⟨rfl, same⟩ := same
  obtain rfl : e = e' := eq_of_isSame history available ran attached _ member _ member' same
  rfl

end Found

/-- In every scope an absolute name finds the declarations in the scope that have it as their
full name, each of them once. All other names in the scope are ends of full names. -/
theorem lookup_absolute {r : ReferenceKind} {c : Criteria} {scope : Scope}
    (history : p.sources.History given) (available : site.source.IsAvailable s.modules given)
    (attached : site.Attached) (ran : (Query.scopeOf site r c).run s p = (.ok scope, p')) :
    (∀ x, (scope.lookup ("." ++ x)).Nodup ∧ ∀ e, e ∈ scope.lookup ("." ++ x) ↔
      (∃ m ∈ scope.entries, m.element = e) ∧ e.fullName = x) ∧
    ∀ m ∈ scope.entries, m.element.qualifiedName.IsEnd m.name := by
  obtain ⟨found, mid, ran, built⟩ := Query.run_bind_eq_ok ran
  cases built
  have inFull := inFull_of_found history available ran
  have unique := eq_of_isSame history available ran attached
  have entries : ∀ m, m ∈ (Scope.ofMatches found).entries ↔ m ∈ found := fun _ =>
    mem_entries history available ran attached
  refine ⟨fun x => ⟨nodup_distinct Element.isSame_refl, fun e => ?_⟩, fun m member => ?_⟩
  · have answers : ∀ m, m ∈ (Scope.ofMatches found).answers ("." ++ x) ↔
        m ∈ found ∧ m.name = x ∧ m.element.fullName = x := by
      intro m
      simp [Scope.answers, entries, Match.answersTo]
    have unique' : ∀ a ∈ ((Scope.ofMatches found).answers ("." ++ x)).map Match.element,
        ∀ b ∈ ((Scope.ofMatches found).answers ("." ++ x)).map Match.element,
        a.isSame b = true → a = b := by
      simp only [List.forall_mem_map]
      intro m answer m' answer'
      exact unique m ((answers m).mp answer).1 m' ((answers m').mp answer').1
    simp only [Scope.lookup, mem_distinct unique', List.mem_map, answers, entries]
    constructor
    · rintro ⟨m, ⟨member, -, full⟩, rfl⟩
      exact ⟨⟨m, member, rfl⟩, full⟩
    · rintro ⟨⟨m, member, rfl⟩, full⟩
      -- the full name is among the names, whichever the match has
      exact ⟨_, ⟨(inFull m member).2, full, full⟩, rfl⟩
  · exact (inFull m ((entries m).mp member)).1

/-- A file of two messages, one of which is called like the message inside the other. -/
def namesakeFiles : FileStore where
  entries := [("/a.proto", "package p; message A { message B { } } message B { }".toUTF8.toList)]

/-- Reading the file. -/
def namesakeStart : Fetch :=
  SourceSet.empty.fetch Surroundings.plain.frames namesakeFiles schemaExtension "/a.proto"

/-- A place inside the message that contains the other. -/
def namesakeSite? (start : Source) : Option Element :=
  ((Element.ofSource start).descend? [1]).map Element.inside

/-- The scope for types at a place. -/
def namesakeScope (site : Element) : Except QueryError Scope × Progress :=
  (Query.scopeOf site .type .anyType).run (.plain namesakeFiles)
    ⟨namesakeStart.sources, [], [], none⟩

/-- The name of both is found twice, and the full name of one is found once. -/
theorem lookup_absolute_namesake : ∃ start site scope p',
    namesakeStart.found = some start ∧ namesakeSite? start = some site ∧
    namesakeScope site = (.ok scope, p') ∧ (scope.lookup "B").length = 2 ∧
    (scope.lookup ("." ++ "p.B")).length = 1 ∧
    ∀ e, e ∈ scope.lookup ("." ++ "p.B") ↔
      (∃ m ∈ scope.entries, m.element = e) ∧ e.fullName = "p.B" := by
  have facts : namesakeStart.found.bind (fun start => (namesakeSite? start).bind fun site =>
      (namesakeScope site).1.toOption.map fun scope =>
        ((scope.lookup "B").length, (scope.lookup ("." ++ "p.B")).length)) = some (2, 1) := by
    decide +kernel
  obtain ⟨start, opened, facts⟩ := Option.bind_eq_some_iff.mp facts
  obtain ⟨site, place, facts⟩ := Option.bind_eq_some_iff.mp facts
  obtain ⟨scope, returned, facts⟩ := Option.map_eq_some_iff.mp facts
  obtain ⟨twice, once⟩ := Prod.mk.inj facts
  obtain ⟨message, found, rfl⟩ := Option.map_eq_some_iff.mp place
  have history : SourceSet.History namesakeStart.sources (namesakeStart.found.toList ++ []) :=
    .fetch _ namesakeFiles schemaExtension "/a.proto" .start
  have source : message.inside.source = start := Element.source_of_descend? found
  have available : message.inside.source.IsAvailable Builtin.wellKnown
      (namesakeStart.found.toList ++ []) :=
    .inl (by simp [opened, source])
  have attached : message.inside.Attached := ((Element.Attached.document _).descend found).inside
  cases ran : namesakeScope message.inside with
  | mk result p' =>
    rw [ran] at returned
    cases result with
    | error e => simp [Except.toOption] at returned
    | ok scope' =>
      cases returned
      obtain ⟨absolute, -⟩ := lookup_absolute history available attached ran
      exact ⟨start, message.inside, scope, p', opened, place, ran, twice, once,
        (absolute "p.B").2⟩

end ProtoNames
