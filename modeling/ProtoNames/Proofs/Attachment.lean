import ProtoNames.Proofs.Names
import ProtoNames.Proofs.Nesting

/-!
Where references stand.

* `Attached` says which elements have a place in their document: those that child, option and
  `inside` steps lead to.
* `mem_containers`: containers are beginnings of the trail.
* `Attached.kind_ne_enum`: in a document that keeps to the grammar, no target is seen from an
  enum, so that no scope that matters withholds its name from what it contains.
-/

namespace ProtoNames

/-- An element has a place in its document. -/
inductive Element.Attached : Element → Prop
  | document (s : Source) : Attached (.ofSource s)
  | child {e c : Element} {i : Nat} : Attached e → e.child? i = some c → Attached c
  | option {e o : Element} {i : Nat} : Attached e → e.option? i = some o → Attached o
  | inside {e : Element} : Attached e → Attached e.inside

variable {c e site top candidate : Element} {level : Nat} {w : Wanted} {n : Node}

/-! ### Containers and scopes -/

theorem Node.kind_ne_document (n : Node) : n.kind ≠ .document := by
  rcases n with l | ⟨header, body⟩
  · cases l <;> simp [kind, Leaf.kind]
  · cases header <;> simp [kind, Header.kind]

theorem Element.kind_eq_document_iff : e.kind = .document ↔ e.trail = [] := by
  unfold kind node?
  rcases List.eq_nil_or_concat' e.trail with empty | ⟨init, link, split⟩
  · simp [empty]
  · simp [split, Node.kind_ne_document]

theorem Element.mem_containers : c ∈ e.containers ↔
    c.source = e.source ∧ c.trail <+: e.trail ∧ c.trail ≠ e.trail := by
  simp only [containers, List.mem_map, List.mem_reverse, List.mem_range]
  constructor
  · rintro ⟨n, less, rfl⟩
    refine ⟨rfl, List.take_prefix _ _, ?_⟩
    intro same
    have length := congrArg List.length same
    simp only [List.length_take] at length
    omega
  · rintro ⟨source, beginning, proper⟩
    refine ⟨c.trail.length, ?_, ?_⟩
    · apply Nat.lt_of_le_of_ne beginning.length_le
      intro same
      exact proper (beginning.eq_of_length same)
    · rw [← List.prefix_iff_eq_take.mp beginning, ← source]

theorem Element.prefix_of_mem_scopes (h : c ∈ site.scopes) :
    c.source = site.source ∧ c.trail <+: site.trail := by
  unfold scopes at h
  split at h
  · cases List.mem_singleton.mp h
    exact ⟨rfl, List.prefix_rfl⟩
  · obtain ⟨source, beginning, -⟩ := mem_containers.mp h
    exact ⟨source, beginning⟩

/-- The containers of a scope are scopes. -/
theorem Element.mem_scopes_of_prefix (h : c ∈ site.scopes) (source : top.source = c.source)
    (beginning : top.trail <+: c.trail) : top ∈ site.scopes := by
  have eq_of_trail : top.trail = c.trail → top = c := by
    intro same
    rcases top with ⟨source', trail'⟩
    cases source
    cases same
    rfl
  unfold scopes at h ⊢
  split at h
  · next isDocument =>
    rw [if_pos isDocument]
    cases List.mem_singleton.mp h
    have empty := kind_eq_document_iff.mp isDocument
    rw [empty, List.prefix_nil] at beginning
    exact List.mem_singleton.mpr (eq_of_trail (beginning.trans empty.symm))
  · next notDocument =>
    rw [if_neg notDocument]
    obtain ⟨source', beginning', proper⟩ := mem_containers.mp h
    refine mem_containers.mpr ⟨source.trans source', beginning.trans beginning', ?_⟩
    intro same
    exact proper (beginning'.eq_of_length_le (same ▸ beginning.length_le))

/-- Of elements around a place, one is the innermost. -/
theorem Element.exists_inmost {around : List Element} {trail : Trail} {P : Element → Prop}
    (prefixes : ∀ c ∈ around, c.trail <+: trail) (inside : c ∈ around) (holds : P c) :
    ∃ c ∈ around, P c ∧ ∀ other ∈ around, P other → other.trail <+: c.trail := by
  -- one step further in after the other, as long as there is one
  induction gap : trail.length - c.trail.length using Nat.strongRecOn generalizing c with
  | ind gap ih =>
    by_cases further : ∃ other ∈ around, P other ∧ c.trail.length < other.trail.length
    · obtain ⟨other, inside', holds', longer⟩ := further
      have bounded := (prefixes other inside').length_le
      exact ih _ (by omega) inside' holds' rfl
    · refine ⟨c, inside, holds, ?_⟩
      intro other inside' holds'
      apply List.prefix_of_prefix_length_le (prefixes other inside') (prefixes c inside)
      apply Nat.le_of_not_lt
      intro longer
      exact further ⟨other, inside', holds', longer⟩

/-- The document is a scope of all that stands in it. -/
theorem Element.document_mem_scopes (site : Element) : .ofSource site.source ∈ site.scopes := by
  unfold scopes
  split
  · next isDocument =>
    have empty := kind_eq_document_iff.mp isDocument
    rw [List.mem_singleton]
    rcases site with ⟨source, trail⟩
    cases empty
    rfl
  · next notDocument =>
    refine mem_containers.mpr ⟨rfl, List.nil_prefix, ?_⟩
    intro empty
    exact notDocument (kind_eq_document_iff.mpr empty.symm)

theorem Element.Attached.descend {path : List Nat} (h : e.Attached)
    (found : e.descend? path = some c) : c.Attached := by
  induction path generalizing e with
  | nil =>
    cases found
    exact h
  | cons i rest ih =>
    obtain ⟨m, child, found⟩ := Option.bind_eq_some_iff.mp found
    exact ih (h.child child) found

theorem Element.source_of_descend? {path : List Nat} (found : e.descend? path = some c) :
    c.source = e.source := by
  induction path generalizing e with
  | nil =>
    cases found
    rfl
  | cons i rest ih =>
    obtain ⟨m, child, found⟩ := Option.bind_eq_some_iff.mp found
    obtain ⟨n, -, rfl⟩ := Option.map_eq_some_iff.mp child
    have onwards := ih found
    exact onwards

/-! ### Nesting -/

theorem Node.WellNested.body (h : n.WellNested) : ∀ m ∈ n.body, m.WellNested := by
  cases h with
  | leaf l => simp [Node.body]
  | block _ nested => exact nested

theorem Element.wellNested_body (nested : e.source.document.WellNested)
    (above : ∀ x ∈ e.trail, x.2.WellNested) : ∀ m ∈ e.body, m.WellNested := by
  unfold Element.body
  cases node : e.node? with
  | none =>
    intro m hm
    exact (nested m hm).2
  | some n =>
    obtain ⟨link, last, rfl⟩ := Option.map_eq_some_iff.mp node
    exact (above link (List.mem_of_getLast? last)).body

theorem Element.Within.attached {s : Source} (h : (Element.ofSource s).Within e) : e.Attached := by
  induction h with
  | itself => exact .document s
  | child _ inside ih =>
    obtain ⟨i, n, stands, rfl⟩ := Element.mem_children.mp inside
    apply ih.child
    rw [Element.child?, stands]
    rfl

/-- All nodes down to a place in a document are nested as in the document. -/
theorem Element.Attached.wellNested (h : e.Attached) (nested : e.source.document.WellNested) :
    ∀ x ∈ e.trail, x.2.WellNested := by
  induction h with
  | document s => simp [Element.ofSource]
  | @child e c i _ stands ih =>
    obtain ⟨n, there, rfl⟩ := Option.map_eq_some_iff.mp stands
    have inside := Element.wellNested_body (e := e) nested (ih nested) n
      (List.mem_of_getElem? there)
    exact List.forall_mem_append.mpr ⟨ih nested, List.forall_mem_singleton.mpr inside⟩
  | @option e o i _ stands ih =>
    simp only [Element.option?, Option.bind_eq_bind, Option.bind_eq_some_iff, Option.pure_def,
      Option.some.injEq] at stands
    obtain ⟨n, -, setting, -, rfl⟩ := stands
    exact List.forall_mem_append.mpr ⟨ih nested, List.forall_mem_singleton.mpr (.leaf _)⟩
  | inside _ ih =>
    exact List.forall_mem_append.mpr ⟨ih nested, List.forall_mem_singleton.mpr (.leaf _)⟩

/-- An enum contains nothing but its values and options. -/
theorem Node.WellNested.kind_of_enum (h : n.WellNested) (isEnum : n.kind = .enum) :
    ∀ m ∈ n.body, m.kind = .enumValue ∨ m.kind = .option := by
  cases h with
  | leaf l => simp [Node.body]
  | @block header body admitted _ =>
    cases header with
    | enum name =>
      intro m hm
      have admitted := admitted m hm
      simpa [Grammar.regionOf, Grammar.Region.admits] using admitted
    | _ => simp [Node.kind, Header.kind] at isEnum

/-- From an enum nothing is reached but its values and options. -/
theorem Element.Reaches.kind_of_enum (h : top.Reaches candidate level)
    (nested : ∀ n, top.node? = some n → n.WellNested) (isEnum : top.kind = .enum) :
    candidate.kind = .enumValue ∨ candidate.kind = .option := by
  induction h with
  | child inside =>
    obtain ⟨i, m, stands, rfl⟩ := Element.mem_children.mp inside
    rw [Element.down_singleton_kind]
    unfold Element.kind at isEnum
    unfold Element.body at stands
    cases node : top.node? with
    | none => simp [node] at isEnum
    | some n =>
      rw [node] at isEnum stands
      exact (nested n node).kind_of_enum isEnum m (List.mem_of_getElem? stands)
  | deeper _ opens _ ih => rcases ih with kind | kind <;> simp [kind] at opens

/-- No target is seen from an enum. -/
theorem Element.Reaches.kind_ne_enum (h : top.Reaches candidate level)
    (nested : ∀ n, top.node? = some n → n.WellNested) (sensible : w.Sensible)
    (target : e ∈ w.targets candidate) : top.kind ≠ .enum := by
  intro isEnum
  have kind := h.kind_of_enum nested isEnum
  rcases Wanted.mem_targets_cases sensible target with ⟨-, kind'⟩ | ⟨kind', -⟩
  · rcases kind with kind | kind <;> simp [kind, typeKinds] at kind'
  · rcases kind with kind | kind <;> simp [kind] at kind'

/-- All scopes of a place in a document are nested as in the document. -/
theorem Element.Attached.wellNested_scope (h : site.Attached)
    (nested : site.source.document.WellNested) (scope : c ∈ site.scopes) :
    ∀ n, c.node? = some n → n.WellNested := by
  intro n node
  obtain ⟨link, last, rfl⟩ := Option.map_eq_some_iff.mp node
  obtain ⟨-, beginning⟩ := Element.prefix_of_mem_scopes scope
  exact h.wellNested nested link (beginning.subset (List.mem_of_getLast? last))

end ProtoNames
