import ProtoNames.Proofs.ImportedNames

/-!
Documents that have been read twice.

When a file is read in two states, its document is the same but its identity is not. A
`Pairing` relates sources of the same document so that two of them have one identity on one
side if and only if they have on the other. Whatever is looked at below sees documents and
compares identities only, so paired sites, criteria and files give paired matches:
`Wanted.mem_inOwn_paired` and `Wanted.mem_inVisit_paired`.
-/

namespace ProtoNames

/-- Sources on two sides, paired by their document. Identities are the same on one side if and
only if they are on the other. -/
structure Pairing (paired : Source → Source → Prop) : Prop where
  document : ∀ ⦃d d'⦄, paired d d' → d.document = d'.document
  id_iff : ∀ ⦃d d' b b'⦄, paired d d' → paired b b' → (d.id = b.id ↔ d'.id = b'.id)

variable {paired : Source → Source → Prop}

/-- One place in two sources that are paired. -/
structure Element.Paired (paired : Source → Source → Prop) (e e' : Element) : Prop where
  source : paired e.source e'.source
  trail : e.trail = e'.trail

/-- Criteria that mean the same on both sides. -/
inductive Criteria.Paired (paired : Source → Source → Prop) : Criteria → Criteria → Prop
  | fixed {c : Criteria} : (∀ e, c ≠ .element e) → Paired paired c c
  | element {e e' : Element} : e.Paired paired e' → Paired paired (.element e) (.element e')

/-- What is wanted is the same on both sides. -/
inductive Wanted.Paired (paired : Source → Source → Prop) : Wanted → Wanted → Prop
  | types (kinds : List Kind) : Paired paired (.types kinds) (.types kinds)
  | extensions (extended : List String) : Paired paired (.extensions extended) (.extensions extended)
  | anyValue : Paired paired (.values none) (.values none)
  | value {e e' : Element} : e.Paired paired e' →
      Paired paired (.values (some e)) (.values (some e'))

/-- A file that is seen on both sides. -/
inductive Visit.Paired (paired : Source → Source → Prop) : Visit → Visit → Prop
  | builtIn {b b' : Source} : paired b b' → Paired paired (.builtIn b) (.builtIn b')
  | imported {d d' : Source} : paired d d' → Paired paired (.imported d) (.imported d')

variable {e e' top top' site site' candidate candidate' : Element} {level : Nat}
  {w w' : Wanted} {name : String} {importer : List String}

namespace Element.Paired

theorem down (h : e.Paired paired e') (way : Trail) : (e.down way).Paired paired (e'.down way) :=
  ⟨h.source, by rw [down_trail, down_trail, h.trail]⟩

theorem node?_eq (h : e.Paired paired e') : e.node? = e'.node? := by
  simp only [Element.node?, h.trail]

theorem kind_eq (h : e.Paired paired e') : e.kind = e'.kind := by
  simp only [Element.kind, h.node?_eq]

theorem steps_eq (h : e.Paired paired e') : e.steps = e'.steps := by
  simp only [Element.steps, h.trail]

/-- The scopes of a place are the same on both sides. -/
theorem scope (h : site.Paired paired site') (inside : top ∈ site.scopes) :
    ∃ top' ∈ site'.scopes, top.Paired paired top' := by
  unfold Element.scopes at inside ⊢
  rw [← h.kind_eq]
  split at inside
  · next isDocument =>
    rw [if_pos isDocument, List.mem_singleton.mp inside]
    exact ⟨site', List.mem_singleton_self _, h⟩
  · next notDocument =>
    obtain ⟨source, beginning, proper⟩ := Element.mem_containers.mp inside
    rw [if_neg notDocument]
    rw [h.trail] at beginning proper
    exact ⟨⟨site'.source, top.trail⟩, Element.mem_containers.mpr ⟨rfl, beginning, proper⟩,
      ⟨source ▸ h.source, rfl⟩⟩

end Element.Paired

/-- Only an element asks for the values of one enum. -/
theorem Wanted.eq_element_of_values {r : ReferenceKind} {c : Criteria}
    (meant : Wanted.ofCriteria? r c = some (.values (some e))) : c = .element e := by
  have notOfSortals : ∀ s, ofSortals? s ≠ some (.values (some e)) := by
    intro s
    unfold ofSortals?
    split <;> simp
  unfold ofCriteria? ofExtendedName? at meant
  split at meant
  · exact absurd meant (notOfSortals _)
  · exact absurd meant (notOfSortals _)
  all_goals grind

section Pairing

variable (pairing : Pairing paired)

include pairing

namespace Element.Paired

theorem isSame_eq (h : e.Paired paired e') (h' : top.Paired paired top') :
    e.isSame top = e'.isSame top' := by
  rw [Bool.eq_iff_iff]
  simp only [Element.isSame, Bool.and_eq_true, beq_iff_eq, pairing.id_iff h.source h'.source,
    h.steps_eq, h'.steps_eq]

theorem body_eq (h : e.Paired paired e') : e.body = e'.body := by
  simp only [Element.body, h.node?_eq, pairing.document h.source]

theorem qualifiedName_eq (h : e.Paired paired e') : e.qualifiedName = e'.qualifiedName := by
  simp only [Element.qualifiedName, Element.nodes, pairing.document h.source, h.trail]

theorem child (h : top.Paired paired top') (inside : e ∈ top.children) :
    ∃ e' ∈ top'.children, e.Paired paired e' := by
  obtain ⟨i, n, stands, rfl⟩ := Element.mem_children.mp inside
  rw [h.body_eq pairing] at stands
  exact ⟨_, Element.mem_children.mpr ⟨i, n, stands, rfl⟩, h.down _⟩

theorem childOfKind (kinds : Kind → Prop) [DecidablePred kinds] (h : top.Paired paired top')
    (inside : e ∈ top.children.filter fun c => kinds c.kind) :
    ∃ e' ∈ top'.children.filter (fun c => kinds c.kind), e.Paired paired e' := by
  obtain ⟨inside, kind⟩ := List.mem_filter.mp inside
  obtain ⟨e', inside', same⟩ := h.child pairing inside
  rw [same.kind_eq] at kind
  exact ⟨e', List.mem_filter.mpr ⟨inside', kind⟩, same⟩

theorem reaches (h : top.Paired paired top') (reaches : top.Reaches e level) :
    ∃ e', top'.Reaches e' level ∧ e.Paired paired e' := by
  obtain ⟨way, down, length, rfl⟩ := Element.reaches_iff.mp reaches
  rw [h.body_eq pairing] at down
  exact ⟨_, Element.reaches_iff.mpr ⟨way, down, length, rfl⟩, h.down way⟩

theorem within (h : top.Paired paired top') (within_ : top.Within e) :
    ∃ e', top'.Within e' ∧ e.Paired paired e' := by
  obtain ⟨way, down, rfl⟩ := Element.within_iff.mp within_
  rw [h.body_eq pairing] at down
  exact ⟨_, Element.within_iff.mpr ⟨way, down, rfl⟩, h.down way⟩

end Element.Paired

/-! ### Criteria -/

/-- Criteria that mean the same are accepted on both sides, and ask for the same. -/
theorem Wanted.ofCriteria_paired {r : ReferenceKind} {c c' : Criteria}
    (h : c.Paired paired c') (accepted : Wanted.ofCriteria r c = .ok w) :
    ∃ w', Wanted.ofCriteria r c' = .ok w' ∧ w.Paired paired w' := by
  have meant : Wanted.ofCriteria? r c = some w := by
    unfold Wanted.ofCriteria at accepted
    cases meant : Wanted.ofCriteria? r c with
    | none => simp [meant] at accepted
    | some w' => simpa [meant] using accepted
  cases h with
  | fixed noElement =>
    refine ⟨w, accepted, ?_⟩
    cases w with
    | types kinds => exact .types kinds
    | extensions extended => exact .extensions extended
    | values enum =>
      cases enum with
      | none => exact .anyValue
      | some e =>
        exact absurd (Wanted.eq_element_of_values meant) (noElement e)
  | @element e e' h =>
    unfold Wanted.ofCriteria? at meant
    cases r with
    | type => cases meant
    | option => cases meant
    | extension =>
      simp only [Option.ite_none_right_eq_some, Option.some.injEq] at meant
      obtain ⟨kind, rfl⟩ := meant
      rw [h.kind_eq] at kind
      refine ⟨_, ?_, .extensions _⟩
      simp only [Wanted.ofCriteria, Wanted.ofCriteria?, kind, if_true, Element.fullName,
        h.qualifiedName_eq pairing]
    | literal =>
      simp only [Option.ite_none_right_eq_some, Option.some.injEq] at meant
      obtain ⟨kind, rfl⟩ := meant
      rw [h.kind_eq] at kind
      refine ⟨_, ?_, .value h⟩
      simp only [Wanted.ofCriteria, Wanted.ofCriteria?, kind, if_true]

/-! ### Matches -/

namespace Wanted

variable (wanted : w.Paired paired w')

include wanted

theorem mem_targets_paired (h : candidate.Paired paired candidate')
    (target : e ∈ w.targets candidate) : ∃ e' ∈ w'.targets candidate', e.Paired paired e' := by
  cases wanted with
  | types kinds =>
    simp only [targets] at target ⊢
    rw [← h.kind_eq]
    split at target
    · next asked =>
      rw [if_pos asked, List.mem_singleton.mp target]
      exact ⟨candidate', List.mem_singleton_self _, h⟩
    · cases target
  | extensions extended =>
    simp only [targets] at target ⊢
    rw [← h.node?_eq]
    cases asked : candidate.node?.bind Node.extended? with
    | none => simp [asked] at target
    | some extends_ =>
      simp only [asked] at target ⊢
      split at target
      · next matching =>
        rw [if_pos matching]
        exact h.childOfKind pairing (fun k => k = .field ∨ k = .group) target
      · cases target
  | anyValue =>
    simp only [targets] at target ⊢
    rw [← h.kind_eq]
    split at target
    · next asked =>
      rw [if_pos (by simpa using asked)]
      exact h.childOfKind pairing (fun k => k = .enumValue) target
    · cases target
  | value enum =>
    simp only [targets] at target ⊢
    rw [← h.kind_eq]
    split at target
    · next asked =>
      rw [if_pos (by simpa [h.isSame_eq pairing enum] using asked)]
      exact h.childOfKind pairing (fun k => k = .enumValue) target
    · cases target

theorem mem_inScope_paired (h : top.Paired paired top') (found : ⟨name, e⟩ ∈ w.inScope top) :
    ∃ e', ⟨name, e'⟩ ∈ w'.inScope top' ∧ e.Paired paired e' := by
  obtain ⟨candidate, level, reaches, target, named⟩ := mem_inScope.mp found
  obtain ⟨candidate', reaches', same⟩ := h.reaches pairing reaches
  obtain ⟨e', target', same'⟩ := mem_targets_paired pairing wanted same target
  rw [same'.qualifiedName_eq pairing] at named
  exact ⟨e', mem_inScope.mpr ⟨candidate', level, reaches', target', named⟩, same'⟩

/-- What is seen from the scopes of a site is seen on both sides, under the same names. -/
theorem mem_inOwn_paired (h : site.Paired paired site') (found : ⟨name, e⟩ ∈ w.inOwn site) :
    ∃ e', ⟨name, e'⟩ ∈ w'.inOwn site' ∧ e.Paired paired e' := by
  obtain ⟨scope, inside, seen⟩ := List.mem_flatMap.mp found
  obtain ⟨scope', inside', same⟩ := h.scope inside
  obtain ⟨e', seen', same'⟩ := mem_inScope_paired pairing wanted same seen
  exact ⟨e', List.mem_flatMap.mpr ⟨scope', inside', seen'⟩, same'⟩

/-- What a file brings it brings on both sides, under the same names. -/
theorem mem_inVisit_paired {v v' : Visit} (h : v.Paired paired v')
    (found : ⟨name, e⟩ ∈ w.inVisit importer v) :
    ∃ e', ⟨name, e'⟩ ∈ w'.inVisit importer v' ∧ e.Paired paired e' := by
  cases h with
  | @builtIn b b' same =>
    simp only [inVisit, inBuiltIn, List.mem_flatMap, Prod.exists, Match.mem_under] at found ⊢
    obtain ⟨candidate, level, met, _, target, named, rfl⟩ := found
    have top : (Element.ofSource b).Paired paired (.ofSource b') := ⟨same, rfl⟩
    obtain ⟨candidate', reaches', same⟩ := top.reaches pairing (Element.mem_scopedContents.mp met)
    obtain ⟨e', target', same'⟩ := mem_targets_paired pairing wanted same target
    rw [same'.qualifiedName_eq pairing] at named
    exact ⟨e', ⟨candidate', level, Element.mem_scopedContents.mpr reaches', e', target', named, rfl⟩,
      same'⟩
  | @imported d d' same =>
    have top : (Element.ofSource d).Paired paired (.ofSource d') := ⟨same, rfl⟩
    simp only [inVisit, inImported, ← pairing.document same] at found ⊢
    split at found
    · next related =>
      rw [if_pos related]
      exact mem_inScope_paired pairing wanted top found
    · next unrelated =>
      rw [if_neg unrelated]
      obtain ⟨candidate, met, target, named⟩ := mem_inForeign.mp found
      obtain ⟨candidate', met', same⟩ := top.within pairing met
      obtain ⟨e', target', same'⟩ := mem_targets_paired pairing wanted same target
      rw [same'.qualifiedName_eq pairing] at named
      exact ⟨e', mem_inForeign.mpr ⟨candidate', met', target', named⟩, same'⟩

end Wanted

end Pairing

end ProtoNames
