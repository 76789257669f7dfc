import ProtoNames.Proofs.TypeScopes
import ProtoNames.Scope.Resolve

/-!
The innermost-scope rule.

A relative name is looked for behind the beginnings of what the innermost scope around the site
is called, the longest first. `IsNearest` says what is found so, for any idea of what stands
behind a beginning.

* `mayMean_of_chooseType?`, `chooseType?_eq_some_iff`: the choice between candidates is by this
  rule, and it is made by the rule alone if their full names tell them apart.
* `foundBehind_iff`: in a document without groups in extend blocks, the types that are seen
  under a name are all those that have it behind some beginning. A type that the document
  declares further out is seen from there, and what is called like a scope of the site is that
  scope.
* `resolveType_innermost`: so a relative name means what the rule says. Of a document without
  imports the rule can be read off its text.
-/

namespace ProtoNames

variable {s : Setup} {p p' : Progress} {given : List Source} {site top c e : Element}
  {d : Source} {enclosing outer : List String} {t : String} {candidates : List Element}

/-! ### The rule -/

/-- What stands behind the longest beginning of the enclosing segments behind which anything
stands. -/
def IsNearest (enclosing : List String) (stands : List String → Element → Prop)
    (e : Element) : Prop :=
  ∃ outer, outer <+: enclosing ∧ stands outer e ∧
    ∀ longer c, longer <+: enclosing → stands longer c → longer <+: outer

theorem IsNearest.congr {stands stands' : List String → Element → Prop}
    (h : IsNearest enclosing stands e)
    (same : ∀ outer c, outer <+: enclosing → (stands outer c ↔ stands' outer c)) :
    IsNearest enclosing stands' e := by
  obtain ⟨outer, beginning, here, longest⟩ := h
  refine ⟨outer, beginning, (same outer e beginning).mp here, ?_⟩
  intro longer c beginning' there
  exact longest longer c beginning' ((same longer c beginning').mpr there)

/-- The innermost message, group or document around a site. -/
structure Element.IsEnclosedBy (site top : Element) : Prop where
  around : top ∈ site.containers
  opens : top.opensScope = true
  innermost : ∀ other ∈ site.containers, other.opensScope = true → other.trail <+: top.trail

/-- The segments behind whose beginnings the names at a site are looked for. Around a document
there is nothing. -/
def Element.IsEnclosing (site : Element) (enclosing : List String) : Prop :=
  (site.kind = .document ∧ enclosing = []) ∨
    ∃ top, site.IsEnclosedBy top ∧ enclosing = top.qualifiedName.segments

/-! ### Enclosing scopes -/

/-- Containers come innermost first. -/
theorem Element.pairwise_containers (e : Element) :
    e.containers.Pairwise fun inner outer => outer.trail <+: inner.trail := by
  unfold containers
  rw [List.pairwise_map, List.pairwise_reverse]
  refine List.pairwise_lt_range.imp fun less => ?_
  exact List.take_prefix_take_left less.le

theorem Element.isEnclosing (site : Element) : site.IsEnclosing site.enclosingScope := by
  unfold enclosingScope
  cases found : site.containers.find? opensScope with
  | none =>
    refine .inl ⟨?_, rfl⟩
    by_contra notDocument
    -- the document is around all other sites
    have around : .ofSource site.source ∈ site.containers := by
      refine mem_containers.mpr ⟨rfl, List.nil_prefix, fun empty => ?_⟩
      exact notDocument (kind_eq_document_iff.mpr empty.symm)
    exact List.find?_eq_none.mp found _ around rfl
  | some top =>
    refine .inr ⟨top, ⟨List.mem_of_find?_eq_some found, List.find?_some found, ?_⟩, rfl⟩
    obtain ⟨-, before, after, split, closed⟩ := List.find?_eq_some_iff_append.mp found
    have sorted := site.pairwise_containers
    rw [split] at sorted ⊢
    intro other inside opens
    rcases List.mem_append.mp inside with inner | inside
    · have closed := closed other inner
      simp [opens] at closed
    rcases List.mem_cons.mp inside with rfl | further
    · exact List.prefix_rfl
    · exact List.rel_of_pairwise_cons (List.pairwise_append.mp sorted).2.1 further

/-! ### The choice -/

theorem findSome?_reverse_range {α : Type} {f : Nat → Option α} {n : Nat} {a : α} :
    (List.range n).reverse.findSome? f = some a ↔
      ∃ k < n, f k = some a ∧ ∀ j < n, k < j → f j = none := by
  induction n with
  | zero => simp
  | succ n ih =>
    rw [List.range_succ, List.reverse_append, List.reverse_singleton, List.singleton_append,
      List.findSome?_cons]
    cases last : f n with
    | some b =>
      simp only [Option.some.injEq]
      constructor
      · rintro rfl
        exact ⟨n, n.lt_succ_self, last, fun j less more => absurd less (by omega)⟩
      · rintro ⟨k, less, found, further⟩
        rcases Nat.lt_succ_iff_lt_or_eq.mp less with less | rfl
        · rw [further n n.lt_succ_self less] at last
          cases last
        · exact Option.some.inj (last.symm.trans found)
    | none =>
      simp only [ih]
      constructor
      · rintro ⟨k, less, found, further⟩
        refine ⟨k, by omega, found, fun j bound more => ?_⟩
        rcases Nat.lt_succ_iff_lt_or_eq.mp bound with bound | rfl
        · exact further j bound more
        · exact last
      · rintro ⟨k, less, found, further⟩
        rcases Nat.lt_succ_iff_lt_or_eq.mp less with less | rfl
        · exact ⟨k, less, found, fun j bound => further j (by omega)⟩
        · rw [last] at found
          cases found

/-- Candidates whose full names tell them apart. -/
def NamedApart (candidates : List Element) : Prop :=
  ∀ a ∈ candidates, ∀ b ∈ candidates, a.fullName = b.fullName → a = b

/-- A candidate that stands behind some segments. -/
def StandsBehind (candidates : List Element) (t : String) (outer : List String) (c : Element) :
    Prop :=
  c ∈ candidates ∧ c.fullName = joinDots (outer ++ segments t)

theorem standsBehind_of_find?
    (found : candidates.reverse.find? (fun c => c.fullName == joinDots (outer ++ segments t)) =
      some e) :
    StandsBehind candidates t outer e := by
  have spelled := List.find?_some found
  exact ⟨List.mem_reverse.mp (List.mem_of_find?_eq_some found), beq_iff_eq.mp spelled⟩

theorem find?_eq_none_iff_standsBehind :
    candidates.reverse.find? (fun c => c.fullName == joinDots (outer ++ segments t)) = none ↔
      ∀ c, ¬ StandsBehind candidates t outer c := by
  simp [List.find?_eq_none, StandsBehind]

/-- What is chosen is nearest. -/
theorem isNearest_of_nearest? (chosen : nearest? enclosing t candidates = some e) :
    IsNearest enclosing (StandsBehind candidates t) e := by
  obtain ⟨k, bound, found, further⟩ := findSome?_reverse_range.mp chosen
  refine ⟨enclosing.take k, List.take_prefix _ _, standsBehind_of_find? found, ?_⟩
  intro longer c beginning stands
  have length := beginning.length_le
  rw [List.prefix_iff_eq_take.mp beginning] at stands ⊢
  refine List.take_prefix_take_left (Nat.le_of_not_lt fun more => ?_)
  exact find?_eq_none_iff_standsBehind.mp (further longer.length (by omega) more) c stands

/-- Something is chosen if anything stands behind a beginning. -/
theorem nearest?_eq_none_iff : nearest? enclosing t candidates = none ↔
    ∀ outer c, outer <+: enclosing → ¬ StandsBehind candidates t outer c := by
  simp only [nearest?, List.findSome?_eq_none_iff, List.mem_reverse, List.mem_range,
    find?_eq_none_iff_standsBehind]
  constructor
  · intro nothing outer c beginning
    have length := beginning.length_le
    have nothing := nothing outer.length (by omega) c
    rwa [← List.prefix_iff_eq_take.mp beginning] at nothing
  · intro nowhere k _ c
    exact nowhere _ c (List.take_prefix k _)

theorem IsNearest.mem (h : IsNearest enclosing (StandsBehind candidates t) e) :
    e ∈ candidates := by
  obtain ⟨_, -, stands, -⟩ := h
  exact stands.1

/-- All that is nearest has one full name. -/
theorem IsNearest.fullName_eq (h : IsNearest enclosing (StandsBehind candidates t) e)
    (h' : IsNearest enclosing (StandsBehind candidates t) c) : e.fullName = c.fullName := by
  obtain ⟨outer, beginning, stands, longest⟩ := h
  obtain ⟨outer', beginning', stands', longest'⟩ := h'
  have same : outer = outer' :=
    (longest' outer e beginning stands).eq_of_length_le
      (longest outer' c beginning' stands').length_le
  rw [stands.2, stands'.2, same]

/-- What a type name may mean, by what its candidates are and what stands behind a beginning: the
nearest, or else the only candidate. An absolute name is not put behind anything. -/
def MayMean (enclosing : List String) (t : String) (candidate : Element → Prop)
    (stands : List String → Element → Prop) (e : Element) : Prop :=
  isAbsolute t = false ∧ IsNearest enclosing stands e ∨
    (isAbsolute t = false → ∀ outer c, outer <+: enclosing → ¬ stands outer c) ∧
      ∀ c, candidate c ↔ c = e

theorem MayMean.congr {candidate candidate' : Element → Prop}
    {stands stands' : List String → Element → Prop} (h : MayMean enclosing t candidate stands e)
    (members : ∀ c, candidate c ↔ candidate' c)
    (same : isAbsolute t = false → ∀ outer c, outer <+: enclosing →
      (stands outer c ↔ stands' outer c)) :
    MayMean enclosing t candidate' stands' e := by
  rcases h with ⟨relative, nearest⟩ | ⟨nowhere, only⟩
  · exact .inl ⟨relative, nearest.congr (same relative)⟩
  · refine .inr ⟨fun relative outer c beginning there => ?_, fun c => ?_⟩
    · exact nowhere relative outer c beginning ((same relative outer c beginning).mpr there)
    · exact (members c).symm.trans (only c)

theorem MayMean.mem
    (h : MayMean enclosing t (· ∈ candidates) (StandsBehind candidates t) e) : e ∈ candidates := by
  rcases h with ⟨-, nearest⟩ | ⟨-, only⟩
  · exact nearest.mem
  · exact (only e).mpr rfl

/-- A choice is left to relative names only, between candidates of one full name. -/
theorem MayMean.eq_or_fullName_eq
    (h : MayMean enclosing t (· ∈ candidates) (StandsBehind candidates t) e)
    (h' : MayMean enclosing t (· ∈ candidates) (StandsBehind candidates t) c) :
    e = c ∨ isAbsolute t = false ∧ e.fullName = c.fullName := by
  rcases h with ⟨relative, nearest⟩ | ⟨nowhere, only⟩
  · rcases h' with ⟨-, nearest'⟩ | ⟨nowhere', -⟩
    · exact .inr ⟨relative, nearest.fullName_eq nearest'⟩
    · obtain ⟨outer, beginning, stands, -⟩ := nearest
      exact absurd stands (nowhere' relative outer e beginning)
  · exact .inl ((only c).mp h'.mem).symm

/-- The choice is among what a name may mean. -/
theorem mayMean_of_chooseType? (chosen : chooseType? site t candidates = some e) :
    MayMean site.enclosingScope t (· ∈ candidates) (StandsBehind candidates t) e := by
  match candidates with
  | [] => cases chosen
  | [c] =>
    obtain rfl := Option.some.inj chosen
    by_cases nowhere : isAbsolute t = false → ∀ outer c', outer <+: site.enclosingScope →
        ¬ StandsBehind [c] t outer c'
    · exact .inr ⟨nowhere, fun c' => List.mem_singleton⟩
    · cases nearest : nearest? site.enclosingScope t [c] with
      | none => exact absurd (fun _ => nearest?_eq_none_iff.mp nearest) nowhere
      | some e =>
        have nearest := isNearest_of_nearest? nearest
        obtain rfl := List.mem_singleton.mp nearest.mem
        exact .inl ⟨(not_forall.mp nowhere).1, nearest⟩
  | c :: c' :: rest =>
    simp only [chooseType?] at chosen
    split at chosen
    · cases chosen
    · next relative => exact .inl ⟨by simpa using relative, isNearest_of_nearest? chosen⟩

/-- A choice is made if a name may mean anything. -/
theorem exists_chooseType? (distinct : candidates.Nodup)
    (h : MayMean site.enclosingScope t (· ∈ candidates) (StandsBehind candidates t) e) :
    ∃ c, chooseType? site t candidates = some c := by
  match candidates with
  | [] => exact absurd h.mem List.not_mem_nil
  | [c] => exact ⟨c, rfl⟩
  | c :: c' :: rest =>
    rcases h with ⟨relative, outer, beginning, stands, -⟩ | ⟨-, only⟩
    · simp only [chooseType?, relative, Bool.false_eq_true, if_false]
      refine Option.ne_none_iff_exists'.mp fun nothing => ?_
      exact nearest?_eq_none_iff.mp nothing outer e beginning stands
    · -- two candidates are no only one
      have same : c = c' := ((only c).mp (by simp)).trans ((only c').mp (by simp)).symm
      simp [same] at distinct

/-- Of candidates that are told apart a name means what it may mean. -/
theorem chooseType?_eq_some_iff (distinct : candidates.Nodup) (apart : NamedApart candidates) :
    chooseType? site t candidates = some e ↔
      MayMean site.enclosingScope t (· ∈ candidates) (StandsBehind candidates t) e := by
  refine ⟨mayMean_of_chooseType?, fun may => ?_⟩
  obtain ⟨c, chosen⟩ := exists_chooseType? distinct may
  have may' := mayMean_of_chooseType? chosen
  rcases may'.eq_or_fullName_eq may with rfl | ⟨-, called⟩
  · exact chosen
  · rw [chosen, apart c may'.mem e may.mem called]

/-! ### Candidates -/

theorem Match.answersTo_iff {m : Match} (relative : isAbsolute t = false) :
    m.answersTo t = true ↔ m.name = t := by
  unfold answersTo
  split
  · next absolute => simp [isAbsolute, absolute] at relative
  · exact beq_iff_eq

/-- A candidate for a name: an element that is found in a match that the name means. -/
def IsCandidate (found : List Match) (t : String) (e : Element) : Prop :=
  ∃ m ∈ found, m.answersTo t = true ∧ m.element = e

theorem isCandidate_iff {found : List Match} (relative : isAbsolute t = false) :
    IsCandidate found t e ↔ ⟨t, e⟩ ∈ found := by
  simp only [IsCandidate, Match.answersTo_iff relative]
  constructor
  · rintro ⟨⟨_, _⟩, member, rfl, rfl⟩
    exact member
  · intro member
    exact ⟨_, member, rfl, rfl⟩

/-- A scope that holds what is found, in whatever order. -/
def Scope.Lists (scope : Scope) (found : List Match) : Prop :=
  scope.entries.Perm (ofMatches found).entries

/-- What is looked up are the candidates, each of them once. -/
theorem lookup_of_lists {found : List Match} {scope : Scope} {r : ReferenceKind}
    {criteria : Criteria} (history : p.sources.History given)
    (available : site.source.IsAvailable s.modules given) (attached : site.Attached)
    (ran : (Query.find site r criteria).run s p = (.ok found, p')) (listed : scope.Lists found) :
    (scope.lookup t).Nodup ∧ ∀ e, e ∈ scope.lookup t ↔ IsCandidate found t e := by
  refine ⟨nodup_distinct Element.isSame_refl, fun e => ?_⟩
  have answers : ∀ m, m ∈ scope.answers t ↔ m ∈ found ∧ m.answersTo t = true := by
    intro m
    simp only [Scope.answers, List.mem_filter, listed.mem_iff,
      mem_entries history available ran attached]
  have unique : ∀ a ∈ (scope.answers t).map Match.element,
      ∀ b ∈ (scope.answers t).map Match.element, a.isSame b = true → a = b := by
    simp only [List.forall_mem_map]
    intro m answer m' answer'
    exact eq_of_isSame history available ran attached m ((answers m).mp answer).1 m'
      ((answers m').mp answer').1
  simp only [Scope.lookup, mem_distinct unique, List.mem_map, answers, IsCandidate, and_assoc]

namespace Query

theorem resolveType_of_error {e : QueryError} (unreserved : Scalar.ofName? t = none)
    (failed : (find site .type .anyType).run s p = (.error e, p')) :
    ((resolveType site t).run s p).1 = .error e := by
  simp only [resolveType, unreserved, Option.isSome_none, Bool.false_eq_true, if_false, run_bind,
    scopeOf, failed]

/-- The answer is chosen among the candidates. -/
theorem resolveType_of_ok {found : List Match} (unreserved : Scalar.ofName? t = none)
    (ran : (find site .type .anyType).run s p = (.ok found, p')) :
    ((resolveType site t).run s p).1 =
      .ok (chooseType? site t ((Scope.ofMatches found).lookup t)) := by
  simp only [resolveType, unreserved, Option.isSome_none, Bool.false_eq_true, if_false, run_bind,
    scopeOf, ran, run_pure]
  split
  · next chosen =>
    rw [chosen]
    rfl
  · next chosen =>
    rw [chosen]
    split <;> rfl

/-- Without imports only the document itself is looked at. -/
theorem find_of_no_imports {r : ReferenceKind} {criteria : Criteria} {w : Wanted}
    (alone : site.source.document.imports = []) (patient : p.patience = none)
    (valid : Wanted.ofCriteria r criteria = .ok w) :
    ∃ p', (find site r criteria).run s p = (.ok (w.inOwn site), p') := by
  obtain ⟨p', -, passed | ⟨impatient, -⟩⟩ := checks_cases s p site.scopes
  · have nothing : (visits site.source).run s p' = (.ok [], p') := by
      simp only [visits, ImportRef.ofDocument, alone, List.map_nil, run_bind, run_read, run_get]
      cases expansionBudget s p' <;> rfl
    refine ⟨p', ?_⟩
    simp only [find, run_bind, valid, ofCriteria, run_pure, passed, nothing, List.flatMap_nil,
      List.append_nil]
  · exact absurd patient impatient

end Query

/-! ### Types of the document -/

/-- What is found under a name, where it stands behind some segments. -/
def FoundBehind (found : List Match) (t : String) (outer : List String) (c : Element) : Prop :=
  ⟨t, c⟩ ∈ found ∧ c.qualifiedName.segments = outer ++ segments t

theorem Wanted.sensible_types : (Wanted.types typeKinds).Sensible := by
  rintro _ ⟨⟩ k inside
  exact inside

theorem Element.ne_enum_of_opensScope (opens : top.opensScope = true) : top.kind ≠ .enum := by
  rcases opensScope_iff.mp opens with kind | kind | kind <;> simp [kind]

theorem Element.segments_of_document (kind : e.kind = .document) :
    e.qualifiedName.segments = e.source.document.packagePath := by
  obtain ⟨source, trail⟩ := e
  cases kind_eq_document_iff.mp kind
  exact segments_ofSource

theorem Element.IsEnclosedBy.scopes_eq (enclosed : site.IsEnclosedBy top) :
    site.scopes = site.containers := by
  refine if_neg fun document => ?_
  obtain ⟨-, beginning, proper⟩ := mem_containers.mp enclosed.around
  rw [kind_eq_document_iff.mp document] at beginning proper
  exact proper (List.prefix_nil.mp beginning)

/-- What contains a site and opens a scope stands in the document. -/
theorem Element.Attached.within_of_opensScope (attached : site.Attached)
    (around : top ∈ site.containers) (opens : top.opensScope = true) :
    (Element.ofSource site.source).Within top := by
  obtain ⟨source, beginning, -⟩ := mem_containers.mp around
  obtain ⟨_, trail⟩ := top
  cases source
  refine attached.within_of_prefix beginning fun l leaf => ?_
  rw [opensScope, leaf] at opens
  cases opens

section OwnTypes

variable (nested : d.document.WellNested) (plain : d.ExtendsByFields) (own : site.source = d)
  (attached : site.Attached) (enclosed : site.IsEnclosedBy top)

include nested plain own attached enclosed

/-- What is seen of the document's types leaves out a beginning of the enclosing segments. -/
theorem names_of_mem_inOwn (h : ⟨t, c⟩ ∈ (Wanted.types typeKinds).inOwn site) :
    d.Declares c ∧ ∃ outer rest, rest ≠ [] ∧ outer <+: top.qualifiedName.segments ∧
      c.qualifiedName.segments = outer ++ rest ∧ t = joinDots rest := by
  have within_ : (Element.ofSource d).Within c := own ▸ Wanted.within_of_mem_inOwn attached h
  obtain ⟨scope, isScope, seen⟩ := List.mem_flatMap.mp h
  obtain ⟨candidate, level, reaches, target, named⟩ := Wanted.mem_inScope.mp seen
  obtain ⟨rfl, kind⟩ := Wanted.mem_targets_types.mp target
  have declared : d.Declares c := ⟨within_, kind⟩
  have inside := ((exists_reaches_iff nested within_ Wanted.sensible_types target).mp
    ⟨level, reaches⟩).1
  have opens := declared.opensScope nested plain inside
  have notEnum := Element.ne_enum_of_opensScope opens
  obtain ⟨outer, rest, some_, beginning, split, named⟩ :=
    (reaches.mem_localNames_iff Wanted.sensible_types target notEnum).mp named
  have further := enclosed.innermost scope (enclosed.scopes_eq ▸ isScope) opens
  have source : scope.source = top.source := by
    rw [(Element.prefix_of_mem_scopes isScope).1, (Element.mem_containers.mp enclosed.around).1]
  have inner := segments_beginning source further notEnum
  exact ⟨declared, outer, rest, some_, beginning.trans inner, split, named⟩

omit nested plain in
/-- What encloses a site is a type, unless it is called like the package. -/
theorem declares_of_isEnclosedBy
    (beyond : d.document.packagePath.length < top.qualifiedName.segments.length) :
    d.Declares top := by
  refine ⟨own ▸ attached.within_of_opensScope enclosed.around enclosed.opens, ?_⟩
  rcases Element.opensScope_iff.mp enclosed.opens with kind | kind | kind
  · obtain ⟨source, -⟩ := Element.mem_containers.mp enclosed.around
    rw [Element.segments_of_document kind, source, own] at beyond
    exact absurd beyond (lt_irrefl _)
  · simp [kind, typeKinds]
  · simp [kind, typeKinds]

/-- Around a site there is a scope for each beginning of the enclosing segments, and it is
around the types that are called after this beginning. -/
theorem exists_scope_of_beginning
    (apart : ∀ a b, d.Declares a → d.Declares b → a.fullName = b.fullName → a = b)
    (declared : d.Declares c) (beginning : outer <+: top.qualifiedName.segments)
    (beginning' : outer <+: c.qualifiedName.segments) (more : outer ≠ c.qualifiedName.segments) :
    ∃ b ∈ site.scopes, b ∈ c.containers ∧ outer <+: b.qualifiedName.segments := by
  by_cases inPackage : outer.length ≤ d.document.packagePath.length
  · refine ⟨.ofSource d, own ▸ site.document_mem_scopes, ?_, ?_⟩
    · refine document_mem_containers declared.1 fun isDocument => ?_
      have kind := declared.2
      simp [isDocument, typeKinds] at kind
    · have package : d.document.packagePath <+: c.qualifiedName.segments := by
        rw [QualifiedName.segments, declared.1.package_eq]
        exact List.prefix_append _ _
      rw [segments_ofSource]
      exact List.prefix_of_prefix_length_le beginning' package inPackage
  · have beyond := Nat.lt_of_not_le inPackage
    have topDeclared : d.Declares top :=
      declares_of_isEnclosedBy own attached enclosed (beyond.trans_le beginning.length_le)
    obtain ⟨b, bDeclared, bSource, bTrail, bCalled⟩ :=
      topDeclared.exists_of_beginning nested plain beginning beyond
    obtain ⟨b', bDeclared', bSource', bTrail', bCalled'⟩ :=
      declared.exists_of_beginning nested plain beginning' beyond
    -- types that are called the same are the same
    obtain rfl : b = b' := by
      refine apart b b' bDeclared bDeclared' ?_
      rw [Element.fullName, Element.fullName, QualifiedName.full, QualifiedName.full, bCalled,
        bCalled']
    refine ⟨b, ?_, ?_, bCalled ▸ List.prefix_rfl⟩
    · have isScope : top ∈ site.scopes := enclosed.scopes_eq ▸ enclosed.around
      exact Element.mem_scopes_of_prefix isScope bSource bTrail
    · refine Element.mem_containers.mpr ⟨bSource', bTrail', fun same => more ?_⟩
      obtain rfl : b = c := by
        rcases b with ⟨_, _⟩
        rcases c with ⟨_, _⟩
        cases bSource'
        cases same
        rfl
      exact bCalled.symm

/-- A type that is called after a beginning of the enclosing segments is seen. -/
theorem mem_inOwn_of_declares
    (apart : ∀ a b, d.Declares a → d.Declares b → a.fullName = b.fullName → a = b)
    (declared : d.Declares c) {rest : List String} (some_ : rest ≠ [])
    (beginning : outer <+: top.qualifiedName.segments)
    (split : c.qualifiedName.segments = outer ++ rest) (named : t = joinDots rest) :
    ⟨t, c⟩ ∈ (Wanted.types typeKinds).inOwn site := by
  have beginning' : outer <+: c.qualifiedName.segments := split ▸ List.prefix_append _ _
  have more : outer ≠ c.qualifiedName.segments := by
    rw [split]
    simpa using some_
  obtain ⟨scope, isScope, inside, front⟩ :=
    exists_scope_of_beginning nested plain own attached enclosed apart declared beginning
      beginning' more
  have target := Wanted.mem_targets_types.mpr ⟨rfl, declared.2⟩
  have notExtend : ∀ b ∈ c.containers, b.kind = .extend → b.trail <+: scope.trail := by
    intro b around isExtend
    have opens := Element.opensScope_iff.mp (declared.opensScope nested plain around)
    simp [isExtend] at opens
  obtain ⟨level, reaches⟩ :=
    (exists_reaches_iff nested declared.1 Wanted.sensible_types target).mpr ⟨inside, notExtend⟩
  have notEnum := Element.ne_enum_of_opensScope (declared.opensScope nested plain inside)
  refine List.mem_flatMap.mpr ⟨scope, isScope, Wanted.mem_inScope.mpr
    ⟨c, level, reaches, target, ?_⟩⟩
  exact (reaches.mem_localNames_iff Wanted.sensible_types target notEnum).mpr
    ⟨outer, rest, some_, front, split, named⟩

/-- So each type that is seen under a name stands behind a beginning. -/
theorem exists_foundBehind (names : d.NamesAreSegments)
    (h : ⟨t, c⟩ ∈ (Wanted.types typeKinds).inOwn site) :
    ∃ outer, outer <+: top.qualifiedName.segments ∧
      FoundBehind ((Wanted.types typeKinds).inOwn site) t outer c := by
  obtain ⟨declared, outer, rest, -, beginning, split, rfl⟩ :=
    names_of_mem_inOwn nested plain own attached enclosed h
  have clean := declared.1.areSegments names
  rw [split] at clean
  exact ⟨outer, beginning, h, by rw [segments_joinDots clean.of_append.2, split]⟩

/-- The types that are seen under a name are those that have it behind a beginning. -/
theorem foundBehind_iff (names : d.NamesAreSegments)
    (apart : ∀ a b, d.Declares a → d.Declares b → a.fullName = b.fullName → a = b)
    (beginning : outer <+: top.qualifiedName.segments) :
    FoundBehind ((Wanted.types typeKinds).inOwn site) t outer c ↔
      d.Declares c ∧ c.fullName = joinDots (outer ++ [t]) := by
  have enclosing : AreSegments outer := by
    have within_ := attached.within_of_opensScope enclosed.around enclosed.opens
    exact (within_.areSegments (own ▸ names)).of_beginning beginning
  have split_iff : d.Declares c → (c.fullName = joinDots (outer ++ [t]) ↔
      ∃ rest, rest ≠ [] ∧ c.qualifiedName.segments = outer ++ rest ∧ t = joinDots rest) := by
    intro declared
    have clean := declared.1.areSegments names
    refine joinDots_eq_append_iff clean ?_ enclosing
    have target := Wanted.mem_targets_types.mpr ⟨rfl, declared.2⟩
    exact QualifiedName.segments_ne_nil
      (Wanted.relative_ne_nil_of_mem_targets Wanted.sensible_types target)
  constructor
  · rintro ⟨member, called⟩
    obtain ⟨declared, outer', rest, some_, -, split, rfl⟩ :=
      names_of_mem_inOwn nested plain own attached enclosed member
    have clean := declared.1.areSegments names
    rw [split] at clean
    rw [segments_joinDots clean.of_append.2] at called
    exact ⟨declared, (split_iff declared).mpr ⟨rest, some_, called, rfl⟩⟩
  · rintro ⟨declared, called⟩
    obtain ⟨rest, some_, split, rfl⟩ := (split_iff declared).mp called
    have clean := declared.1.areSegments names
    rw [split] at clean
    refine ⟨mem_inOwn_of_declares nested plain own attached enclosed apart declared some_
      beginning split rfl, ?_⟩
    rw [segments_joinDots clean.of_append.2, split]

end OwnTypes

/-! ### Resolving -/

/-- The enclosing segments are names. -/
theorem Element.IsEnclosing.areSegments (h : site.IsEnclosing enclosing)
    (names : site.source.NamesAreSegments) (attached : site.Attached) :
    AreSegments enclosing := by
  rcases h with ⟨-, rfl⟩ | ⟨top, ⟨around, opens, -⟩, rfl⟩
  · exact fun name inside => absurd inside List.not_mem_nil
  · exact (attached.within_of_opensScope around opens).areSegments names

section Resolve

variable (segmented : s.modules.NamesAreSegments) (history : p.sources.History given)
  (available : site.source.IsAvailable s.modules given) (attached : site.Attached)
  {found : List Match}

include segmented history available attached

/-- What a name may mean of what is looked up, it may mean of what is found: full names that are
joined are told apart by their texts. -/
theorem mayMean_lookup_iff {scope : Scope}
    (ran : (Query.find site .type .anyType).run s p = (.ok found, p'))
    (listed : scope.Lists found) :
    MayMean site.enclosingScope t (· ∈ scope.lookup t) (StandsBehind (scope.lookup t) t) e ↔
      MayMean site.enclosingScope t (IsCandidate found t) (FoundBehind found t) e := by
  obtain ⟨-, members⟩ := lookup_of_lists (t := t) history available attached ran listed
  obtain ⟨given', accounted, place⟩ := place_of_mem_found history available ran attached
  have enclosing : AreSegments site.enclosingScope :=
    site.isEnclosing.areSegments (available.namesAreSegments segmented history.accounted) attached
  have same : isAbsolute t = false → ∀ outer c, outer <+: site.enclosingScope →
      (StandsBehind (scope.lookup t) t outer c ↔ FoundBehind found t outer c) := by
    intro relative outer c beginning
    have found_iff := (members c).trans (isCandidate_iff relative)
    refine (and_congr_left' found_iff).trans (and_congr_right fun member => ?_)
    obtain ⟨available', within_⟩ := place _ member
    have clean := within_.areSegments (available'.namesAreSegments segmented accounted)
    have clean' : AreSegments (outer ++ segments t) :=
      List.forall_mem_append.mpr ⟨enclosing.of_beginning beginning, areSegments_segments t⟩
    exact ⟨joinDots_injective clean clean', fun called => congrArg joinDots called⟩
  constructor
  · intro may
    exact may.congr members same
  · intro may
    exact may.congr (fun c => (members c).symm)
      fun relative outer c beginning => (same relative outer c beginning).symm

variable (relative : isAbsolute t = false) (unreserved : Scalar.ofName? t = none)

include relative unreserved

/-- What is found decides what a name means. -/
theorem resolveType_of_found
    (ran : (Query.find site .type .anyType).run s p = (.ok found, p'))
    (apart : ∀ a b, ⟨t, a⟩ ∈ found → ⟨t, b⟩ ∈ found → a.fullName = b.fullName → a = b) :
    ∃ answer, ((Query.resolveType site t).run s p).1 = .ok answer ∧
      ∀ e, answer = some e ↔ IsNearest site.enclosingScope (FoundBehind found t) e ∨
        (∀ outer c, outer <+: site.enclosingScope → ¬ FoundBehind found t outer c) ∧
          ∀ c, ⟨t, c⟩ ∈ found ↔ c = e := by
  have listed : (Scope.ofMatches found).Lists found := .refl _
  obtain ⟨once, members⟩ := lookup_of_lists (t := t) history available attached ran listed
  refine ⟨_, Query.resolveType_of_ok unreserved ran, fun e => ?_⟩
  have apart' : NamedApart ((Scope.ofMatches found).lookup t) := by
    intro a member b member'
    refine apart a b ?_ ?_
    · exact (isCandidate_iff relative).mp ((members a).mp member)
    · exact (isCandidate_iff relative).mp ((members b).mp member')
  rw [chooseType?_eq_some_iff once apart',
    mayMean_lookup_iff segmented history available attached ran listed]
  simp only [MayMean, relative, true_and, forall_const, isCandidate_iff relative]

/-- Looking outwards from a site in a document that stands alone. -/
theorem resolveType_of_alone (inside : site.kind ≠ .document)
    (alone : site.source.document.imports = []) (plain : site.source.ExtendsByFields)
    (patient : p.patience = none)
    (apart : ∀ a b, site.source.Declares a → site.source.Declares b → a.fullName = b.fullName →
      a = b) :
    ∃ answer, ((Query.resolveType site t).run s p).1 = .ok answer ∧
      ∀ e, answer = some e ↔ IsNearest site.enclosingScope (fun outer c =>
        site.source.Declares c ∧ c.fullName = joinDots (outer ++ [t])) e := by
  have nested := available.wellNested history.accounted
  have names := available.namesAreSegments segmented history.accounted
  obtain ⟨top, enclosed, called⟩ := site.isEnclosing.resolve_left fun document => inside document.1
  obtain ⟨_, ran⟩ := Query.find_of_no_imports (s := s) alone patient
    (show Wanted.ofCriteria .type .anyType = .ok (.types typeKinds) from rfl)
  have declares : ∀ c, ⟨t, c⟩ ∈ (Wanted.types typeKinds).inOwn site → site.source.Declares c :=
    fun c member => (names_of_mem_inOwn nested plain rfl attached enclosed member).1
  obtain ⟨answer, answered, means⟩ :=
    resolveType_of_found segmented history available attached relative unreserved ran
      fun a b member member' => apart a b (declares a member) (declares b member')
  refine ⟨answer, answered, fun e => (means e).trans ?_⟩
  rw [called]
  have same : ∀ outer c, outer <+: top.qualifiedName.segments →
      (FoundBehind ((Wanted.types typeKinds).inOwn site) t outer c ↔
        site.source.Declares c ∧ c.fullName = joinDots (outer ++ [t])) :=
    fun outer c => foundBehind_iff nested plain rfl attached enclosed names apart
  constructor
  · rintro (nearest | ⟨nowhere, only⟩)
    · exact nearest.congr same
    · -- the only type that is found stands behind a beginning as well
      obtain ⟨outer, beginning, behind⟩ :=
        exists_foundBehind nested plain rfl attached enclosed names ((only e).mpr rfl)
      exact absurd behind (nowhere outer e beginning)
  · intro nearest
    exact .inl (nearest.congr fun outer c beginning => (same outer c beginning).symm)

end Resolve

/-- A relative name means the type in the innermost scope: the one that is found under the name
and whose segments are those of the name behind the longest possible beginning of the enclosing
segments. If there is none, it means the only type that is found. In a document without imports,
and without groups in extend blocks, it means what is found by looking outwards from the site
for a type that the document declares, unless the site is the document itself. -/
theorem resolveType_innermost (segmented : s.modules.NamesAreSegments)
    (history : p.sources.History given) (available : site.source.IsAvailable s.modules given)
    (attached : site.Attached)
    (relative : isAbsolute t = false) (unreserved : Scalar.ofName? t = none) :
    ∃ enclosing, site.IsEnclosing enclosing ∧
      (match (Query.find site .type .anyType).run s p with
        | (.error e, _) => ((Query.resolveType site t).run s p).1 = .error e
        | (.ok found, _) =>
          (∀ a b, ⟨t, a⟩ ∈ found → ⟨t, b⟩ ∈ found → a.fullName = b.fullName → a = b) →
          ∃ answer, ((Query.resolveType site t).run s p).1 = .ok answer ∧
            ∀ e, answer = some e ↔ IsNearest enclosing (FoundBehind found t) e ∨
              (∀ outer c, outer <+: enclosing → ¬ FoundBehind found t outer c) ∧
                ∀ c, ⟨t, c⟩ ∈ found ↔ c = e) ∧
      (site.kind ≠ .document → site.source.document.imports = [] →
        site.source.ExtendsByFields → p.patience = none →
        (∀ a b, site.source.Declares a → site.source.Declares b → a.fullName = b.fullName →
          a = b) →
        ∃ answer, ((Query.resolveType site t).run s p).1 = .ok answer ∧
          ∀ e, answer = some e ↔ IsNearest enclosing (fun outer c => site.source.Declares c ∧
            c.fullName = joinDots (outer ++ [t])) e) := by
  refine ⟨site.enclosingScope, site.isEnclosing, ?_, fun inside alone plain patient apart =>
    resolveType_of_alone segmented history available attached relative unreserved inside alone
      plain patient apart⟩
  cases ran : (Query.find site .type .anyType).run s p with
  | mk result q =>
    cases result with
    | error e => exact Query.resolveType_of_error unreserved ran
    | ok found =>
      intro apart
      exact resolveType_of_found segmented history available attached relative unreserved ran apart

/-- The full names of the types that a document declares. -/
def typeNames (d : Source) : List String :=
  ((Element.ofSource d).contents.filter fun e => e.kind ∈ typeKinds).map Element.fullName

theorem apart_of_nodup (once : (typeNames d).Nodup) :
    ∀ a b, d.Declares a → d.Declares b → a.fullName = b.fullName → a = b := by
  intro a b declared declared' same
  refine List.inj_on_of_nodup_map once ?_ ?_ same
  · exact List.mem_filter.mpr ⟨Element.mem_contents.mpr declared.1, by simp [declared.2]⟩
  · exact List.mem_filter.mpr ⟨Element.mem_contents.mpr declared'.1, by simp [declared'.2]⟩

/-- A file with two messages of one name, one of them inside another message. -/
def shadowFiles : FileStore where
  entries := [("/a.proto", ("package p; message A { message B { } message C { optional B b = 1; } } " ++
    "message B { }").toUTF8.toList)]

/-- Reading the file. -/
def shadowStart : Fetch :=
  SourceSet.empty.fetch Surroundings.plain.frames shadowFiles schemaExtension "/a.proto"

/-- The field whose type has the name of both. -/
def shadowSite? (start : Source) : Option Element := (Element.ofSource start).descend? [1, 1, 0]

/-- What the field's type means. -/
def shadowAnswer (site : Element) : Except QueryError (Option Element) × Progress :=
  (Query.resolveType site "B").run (.plain shadowFiles)
    ⟨shadowStart.sources, [], [], none⟩

/-- The field's type is the message inside the other one. -/
theorem resolveType_innermost_shadowed : ∃ start site e,
    shadowStart.found = some start ∧ shadowSite? start = some site ∧
    (shadowAnswer site).1 = .ok (some e) ∧ e.fullName = "p.A.B" ∧
    ∃ enclosing, site.IsEnclosing enclosing ∧ IsNearest enclosing (fun outer c =>
      site.source.Declares c ∧ c.fullName = joinDots (outer ++ ["B"])) e := by
  have facts : shadowStart.found.bind (fun start => (shadowSite? start).bind fun site =>
      (shadowAnswer site).1.toOption.bind fun found => found.map fun e =>
        (e.fullName, site.kind, start.document.imports, decide (typeNames start).Nodup,
          (Element.ofSource start).contents.all fun b => b.kind ≠ .extend)) =
      some ("p.A.B", .field, [], true, true) := by decide +kernel
  obtain ⟨start, opened, facts⟩ := Option.bind_eq_some_iff.mp facts
  obtain ⟨site, place, facts⟩ := Option.bind_eq_some_iff.mp facts
  obtain ⟨found, returned, facts⟩ := Option.bind_eq_some_iff.mp facts
  obtain ⟨e, rfl, parts⟩ := Option.map_eq_some_iff.mp facts
  simp only [Prod.mk.injEq, decide_eq_true_eq, List.all_eq_true] at parts
  obtain ⟨name, kind, alone, once, noExtend⟩ := parts
  have answered := Query.eq_ok_of_toOption returned
  have history : SourceSet.History shadowStart.sources (shadowStart.found.toList ++ []) :=
    .fetch _ shadowFiles schemaExtension "/a.proto" .start
  have source : site.source = start := Element.source_of_descend? place
  have available : site.source.IsAvailable Builtin.wellKnown (shadowStart.found.toList ++ []) :=
    .inl (by simp [opened, source])
  have attached : site.Attached := (Element.Attached.document _).descend place
  obtain ⟨enclosing, isEnclosing, -, outwards⟩ :=
    resolveType_innermost (s := (.plain shadowFiles))
      (p := ⟨shadowStart.sources, [], [], none⟩) Builtin.namesAreSegments_wellKnown history
      available attached
      (show isAbsolute "B" = false by decide) (show Scalar.ofName? "B" = none by decide)
  have plain : start.ExtendsByFields := fun b within_ isExtend =>
    absurd isExtend (noExtend b (Element.mem_contents.mpr within_))
  obtain ⟨answer, answered', means⟩ := outwards (by simp [kind]) (by rw [source, alone])
    (source ▸ plain) rfl (source ▸ apart_of_nodup once)
  obtain rfl : some e = answer := Except.ok.inj (answered.symm.trans answered')
  exact ⟨start, site, e, opened, place, answered, name, enclosing, isEnclosing, (means e).mp rfl⟩

/-- A file with a message that is called like its package, and messages of one name inside both. -/
def packageFiles : FileStore where
  entries := [("/a.proto", "package p; message X { } message p { message X { } }".toUTF8.toList)]

/-- Reading the file. -/
def packageStart : Fetch :=
  SourceSet.empty.fetch Surroundings.plain.frames packageFiles schemaExtension "/a.proto"

/-- A query in the file. -/
def packageRun {α : Type} (q : Query α) : Except QueryError α :=
  (q.run (.plain packageFiles) ⟨packageStart.sources, [], [], none⟩).1

/-- In the document itself a name is not looked for behind the document's own segments: the type
that it has there is found, and another one is meant. -/
theorem document_site_not_innermost : ∃ start found e other,
    packageStart.found = some start ∧
    (∀ a b, start.Declares a → start.Declares b → a.fullName = b.fullName → a = b) ∧
    packageRun (Query.find (.ofSource start) .type .anyType) = .ok found ∧ ⟨"p.X", e⟩ ∈ found ∧
    e.qualifiedName.segments =
      (Element.ofSource start).qualifiedName.segments ++ segments "p.X" ∧
    packageRun (Query.resolveType (.ofSource start) "p.X") = .ok (some other) ∧ other ≠ e := by
  have facts : packageStart.found.bind (fun start =>
      (packageRun (Query.find (.ofSource start) .type .anyType)).toOption.bind fun found =>
        found[4]?.bind fun m =>
          (packageRun (Query.resolveType (.ofSource start) "p.X")).toOption.bind fun answer =>
            answer.map fun other =>
              (m.name, m.element.qualifiedName.segments,
                (Element.ofSource start).qualifiedName.segments ++ segments "p.X",
                other.fullName, decide (typeNames start).Nodup)) =
      some ("p.X", ["p", "p", "X"], ["p", "p", "X"], "p.X", true) := by decide +kernel
  obtain ⟨start, opened, facts⟩ := Option.bind_eq_some_iff.mp facts
  obtain ⟨found, returned, facts⟩ := Option.bind_eq_some_iff.mp facts
  obtain ⟨⟨name, e⟩, stands, facts⟩ := Option.bind_eq_some_iff.mp facts
  obtain ⟨answer, answered, facts⟩ := Option.bind_eq_some_iff.mp facts
  obtain ⟨other, rfl, parts⟩ := Option.map_eq_some_iff.mp facts
  simp only [Prod.mk.injEq, decide_eq_true_eq] at parts
  obtain ⟨rfl, called, behind, full, once⟩ := parts
  refine ⟨start, found, e, other, opened, apart_of_nodup once, Query.eq_ok_of_toOption returned,
    List.mem_of_getElem? stands, called.trans behind.symm, Query.eq_ok_of_toOption answered, ?_⟩
  rintro rfl
  rw [Element.fullName, QualifiedName.full, called] at full
  exact absurd full (by decide)

end ProtoNames
