import ProtoNames.Proofs.Walk
import ProtoNames.Reference.Target

/-!
The names of targets, seen from where a reference stands.

* `segments_down`: what an element is called is what its container is called, followed by
  what the containers and the element in between add.
* `exists_way_of_mem_targets`: a target adds one segment more than there are messages and
  groups in between.
* `mem_suffixNames`: so a name that leaves out no segment of these leaves out a beginning of
  what the container is called.
-/

namespace ProtoNames

variable {top e candidate : Element} {way : Trail} {nodes others : List Node} {n : Node}
  {level : Nat} {w : Wanted}

/-! ### Segments -/

theorem relativeSegments_append_singleton :
    relativeSegments (nodes ++ [n]) = nodes.filterMap Node.containerName? ++ n.name?.toList := by
  simp [relativeSegments]

/-- Names are made up piece by piece, but an enum gives none to what is inside it. -/
theorem relativeSegments_append (notEnum : ∀ n, nodes.getLast? = some n → n.kind ≠ .enum)
    (nonempty : others ≠ []) :
    relativeSegments (nodes ++ others) = relativeSegments nodes ++ relativeSegments others := by
  obtain ⟨init, last, rfl⟩ := (List.eq_nil_or_concat' others).resolve_left nonempty
  rw [← List.append_assoc, relativeSegments_append_singleton,
    relativeSegments_append_singleton, List.filterMap_append, List.append_assoc]
  congr 1
  rcases List.eq_nil_or_concat' nodes with rfl | ⟨init', last', rfl⟩
  · rfl
  · rw [relativeSegments_append_singleton, List.filterMap_append]
    have gives : last'.containerName? = last'.name? := by
      unfold Node.containerName?
      exact if_neg (notEnum last' (by simp))
    cases named : last'.name? <;> simp [gives, named]

@[simp] theorem Element.nodes_down : (top.down way).nodes = top.nodes ++ way.map (·.2) := by
  simp [nodes]

/-- What is below an element is called what the element is called, and then what the nodes on
the way add. -/
theorem segments_down (notEnum : top.kind ≠ .enum) (nonempty : way ≠ []) :
    (top.down way).qualifiedName.segments =
      top.qualifiedName.segments ++ relativeSegments (way.map (·.2)) := by
  have notEnum' : ∀ n, top.nodes.getLast? = some n → n.kind ≠ .enum := by
    intro n last
    have node : top.node? = some n := by simpa [Element.node?, Element.nodes] using last
    simpa [Element.kind, node] using notEnum
  unfold QualifiedName.segments Element.qualifiedName
  rw [Element.nodes_down, relativeSegments_append notEnum' (by simpa using nonempty),
    ← List.append_assoc]
  rfl

theorem Node.containerName?_of_opensScope (opens : n.opensScope = true) :
    ∃ name, n.containerName? = some name := by
  rcases n with l | ⟨header, body⟩
  · simp [opensScope] at opens
  · cases header with
    | message name => exact ⟨name, rfl⟩
    | group name _ _ => exact ⟨name, rfl⟩
    | _ => simp [opensScope] at opens

/-- Messages and groups give a segment each. -/
theorem length_filterMap_containerName? (opens : ∀ n ∈ nodes, n.opensScope = true) :
    (nodes.filterMap Node.containerName?).length = nodes.length := by
  induction nodes with
  | nil => rfl
  | cons n rest ih =>
    obtain ⟨name, gives⟩ := Node.containerName?_of_opensScope (opens n List.mem_cons_self)
    simp [gives, ih fun m hm => opens m (List.mem_cons_of_mem _ hm)]

theorem Node.containerName?_of_kind (h : n.kind = .extend ∨ n.kind = .enum) :
    n.containerName? = none := by
  unfold containerName?
  split
  · rfl
  · next notEnum =>
    rcases n with l | ⟨header, body⟩
    · cases l <;> simp [kind, Leaf.kind] at h
    · cases header with
      | extend target => rfl
      | _ => simp [kind, Header.kind] at h notEnum

/-! ### Targets -/

/-- The kinds of targets are kinds of declarations with a name. -/
theorem Node.name?_of_kind
    (h : n.kind ∈ [Kind.message, .group, .enum, .field, .enumValue]) :
    ∃ name, n.name? = some name := by
  rcases n with l | ⟨header, body⟩
  · cases l <;> first | exact ⟨_, rfl⟩ | simp [kind, Leaf.kind] at h
  · cases header <;> first | exact ⟨_, rfl⟩ | simp [kind, Header.kind] at h

/-- Types are wanted of some of the three kinds only. -/
def Wanted.Sensible (w : Wanted) : Prop := ∀ kinds, w = .types kinds → ∀ k ∈ kinds, k ∈ typeKinds

theorem Sortal.typeKind?_eq_some {s : Sortal} {k : Kind} (h : s.typeKind? = some k) :
    k ∈ typeKinds := by
  cases s with
  | element k' =>
    simp only [typeKind?, Option.ite_none_right_eq_some, Option.some.injEq] at h
    exact h.2 ▸ h.1
  | integer => cases h

theorem typeKinds_of_mapM {s : List Sortal} {kinds : List Kind}
    (h : s.mapM Sortal.typeKind? = some kinds) : ∀ k ∈ kinds, k ∈ typeKinds := by
  induction s generalizing kinds with
  | nil =>
    cases h
    simp
  | cons first rest ih =>
    simp only [List.mapM_cons, Option.bind_eq_bind, Option.bind_eq_some_iff, Option.pure_def] at h
    obtain ⟨k, isKind, others, areKinds, joined⟩ := h
    cases joined
    rintro k' (_ | ⟨_, inside⟩)
    · exact Sortal.typeKind?_eq_some isKind
    · exact ih areKinds k' inside

theorem Wanted.sensible_of_ofSortals? {s : List Sortal} (h : Wanted.ofSortals? s = some w) :
    w.Sensible := by
  unfold ofSortals? at h
  split at h
  · cases h
  · obtain ⟨kinds, areKinds, rfl⟩ := Option.map_eq_some_iff.mp h
    rintro _ ⟨⟩
    exact typeKinds_of_mapM areKinds

/-- Criteria that are accepted ask for types of the three kinds, or for other things. -/
theorem Wanted.sensible_of_ofCriteria {r : ReferenceKind} {c : Criteria}
    (h : Wanted.ofCriteria r c = .ok w) : w.Sensible := by
  unfold ofCriteria at h
  cases meant : ofCriteria? r c with
  | none => simp [meant] at h
  | some w' =>
    simp only [meant, Except.ok.injEq] at h
    subst h
    unfold ofCriteria? ofExtendedName? at meant
    split at meant
    · exact sensible_of_ofSortals? meant
    · exact sensible_of_ofSortals? meant
    all_goals
      rintro kinds rfl
      grind

theorem Element.kind_of_extended? {target : List String}
    (h : candidate.node?.bind Node.extended? = some target) : candidate.kind = .extend := by
  obtain ⟨n, node, extends_⟩ := Option.bind_eq_some_iff.mp h
  rw [Element.kind, node]
  rcases n with l | ⟨header, body⟩
  · cases extends_
  · cases header with
    | extend target => rfl
    | _ => cases extends_

theorem Wanted.mem_targets_types {kinds : List Kind} :
    e ∈ (Wanted.types kinds).targets candidate ↔ e = candidate ∧ candidate.kind ∈ kinds := by
  simp [targets, and_comm]

/-- A target is the candidate itself, or stands directly in an extend block or enum. -/
theorem Wanted.mem_targets_cases (sensible : w.Sensible) (h : e ∈ w.targets candidate) :
    (e = candidate ∧ candidate.kind ∈ typeKinds) ∨
    ((candidate.kind = .extend ∨ candidate.kind = .enum) ∧ e ∈ candidate.children ∧
      e.kind ∈ [Kind.field, .group, .enumValue]) := by
  unfold targets at h
  cases w with
  | types kinds =>
    simp only at h
    split at h
    · next wanted =>
      exact .inl ⟨List.mem_singleton.mp h, sensible kinds rfl _ wanted⟩
    · cases h
  | extensions extended =>
    simp only at h
    split at h
    · next target extends_ =>
      split at h
      · obtain ⟨inside, kind⟩ := List.mem_filter.mp h
        refine .inr ⟨.inl (Element.kind_of_extended? extends_), inside, ?_⟩
        simp only [decide_eq_true_eq] at kind
        rcases kind with kind | kind <;> simp [kind]
      · cases h
    · cases h
  | values enum =>
    simp only at h
    split at h
    · next isEnum =>
      obtain ⟨inside, kind⟩ := List.mem_filter.mp h
      refine .inr ⟨.inr isEnum.1, inside, ?_⟩
      simp only [decide_eq_true_eq] at kind
      simp [kind]
    · cases h

theorem Wanted.kind_of_mem_targets (sensible : w.Sensible) (h : e ∈ w.targets candidate) :
    candidate.kind ∈ [Kind.message, .group, .enum, .extend] := by
  rcases mem_targets_cases sensible h with ⟨-, kind⟩ | ⟨kind | kind, -⟩
  · revert kind
    simp [typeKinds]
    tauto
  · simp [kind]
  · simp [kind]

theorem Wanted.kind_ne_document_of_mem_targets (sensible : w.Sensible)
    (h : e ∈ w.targets candidate) : candidate.kind ≠ .document := by
  intro document
  have kind := kind_of_mem_targets sensible h
  simp [document] at kind

/-- Types are candidates themselves, and other targets stand in theirs. -/
theorem Wanted.itself_or_child (h : e ∈ w.targets candidate) :
    ((∃ kinds, w = .types kinds) ∧ candidate = e) ∨
    ((∀ kinds, w ≠ .types kinds) ∧ e ∈ candidate.children) := by
  unfold targets at h
  cases w with
  | types kinds =>
    simp only [List.mem_ite_nil_right, List.mem_singleton] at h
    exact .inl ⟨⟨kinds, rfl⟩, h.2.symm⟩
  | extensions extended =>
    simp only at h
    split at h
    · simp only [List.mem_ite_nil_right, List.mem_filter] at h
      exact .inr ⟨by simp, h.2.1⟩
    · cases h
  | values enum =>
    simp only [List.mem_ite_nil_right, List.mem_filter] at h
    exact .inr ⟨by simp, h.2.1⟩

theorem Element.eq_of_mem_children (h : e ∈ candidate.children) :
    candidate = ⟨e.source, e.trail.dropLast⟩ := by
  obtain ⟨i, n, -, rfl⟩ := Element.mem_children.mp h
  simp

theorem Wanted.source_of_mem_targets (h : e ∈ w.targets candidate) :
    e.source = candidate.source := by
  rcases itself_or_child h with ⟨-, rfl⟩ | ⟨-, inside⟩
  · rfl
  · rw [Element.eq_of_mem_children inside]

/-- A target is one of its candidate only. -/
theorem Wanted.candidate_unique {other : Element} (h : e ∈ w.targets candidate)
    (h' : e ∈ w.targets other) : candidate = other := by
  rcases itself_or_child h with ⟨⟨kinds, rfl⟩, same⟩ | ⟨noTypes, inside⟩
  · rcases itself_or_child h' with ⟨-, same'⟩ | ⟨noTypes, -⟩
    · exact same.trans same'.symm
    · exact absurd rfl (noTypes kinds)
  · rcases itself_or_child h' with ⟨⟨kinds, types⟩, -⟩ | ⟨-, inside'⟩
    · exact absurd types (noTypes kinds)
    · exact (Element.eq_of_mem_children inside).trans (Element.eq_of_mem_children inside').symm

/-- Targets are of kinds that have names. -/
theorem Wanted.kind_of_target (sensible : w.Sensible) (h : e ∈ w.targets candidate) :
    e.kind ∈ [Kind.message, .group, .enum, .field, .enumValue] := by
  rcases mem_targets_cases sensible h with ⟨rfl, kind⟩ | ⟨-, -, kind⟩
  · revert kind
    simp [typeKinds]
    tauto
  · revert kind
    simp
    tauto

/-- Targets have names of their own. -/
theorem Wanted.relative_ne_nil_of_mem_targets (sensible : w.Sensible)
    (h : e ∈ w.targets candidate) : e.qualifiedName.relative ≠ [] := by
  have kind := kind_of_target sensible h
  unfold Element.kind Element.node? at kind
  unfold Element.qualifiedName Element.nodes
  rcases List.eq_nil_or_concat' e.trail with empty | ⟨init, ⟨step, last⟩, split⟩
  · simp [empty] at kind
  · rw [split] at kind ⊢
    obtain ⟨name, named⟩ : ∃ name, last.name? = some name :=
      Node.name?_of_kind (by simpa using kind)
    rw [List.map_append, List.map_singleton, relativeSegments_append_singleton, named]
    simp

/-- A target lies below whatever reaches its candidate. On the way there every message and
group, and nothing else, gives it a segment, besides the one of its own. -/
theorem Element.Reaches.exists_way_of_mem_targets (sensible : w.Sensible)
    (reaches : top.Reaches candidate level) (target : e ∈ w.targets candidate) :
    ∃ way, way ≠ [] ∧ e = top.down way ∧
      (relativeSegments (way.map (·.2))).length = level + 1 := by
  obtain ⟨way, ⟨nonempty, -, between⟩, length, rfl⟩ := Element.reaches_iff.mp reaches
  obtain ⟨init, ⟨step, last⟩, rfl⟩ := (List.eq_nil_or_concat' way).resolve_left nonempty
  rw [List.dropLast_concat] at between
  have named : ((init.map (·.2)).filterMap Node.containerName?).length = level := by
    rw [length_filterMap_containerName?, List.length_map]
    · simpa using length
    · intro n hn
      obtain ⟨link, inside, rfl⟩ := List.mem_map.mp hn
      exact between link inside
  have kind' := Wanted.kind_of_target sensible target
  rcases Wanted.mem_targets_cases sensible target with ⟨rfl, -⟩ | ⟨kind, inside, -⟩
  · rw [Element.down_kind] at kind'
    obtain ⟨name, hasName⟩ := Node.name?_of_kind kind'
    refine ⟨init ++ [(step, last)], by simp, rfl, ?_⟩
    rw [List.map_append, List.map_singleton, relativeSegments_append_singleton,
      List.length_append, named, hasName]
    rfl
  · -- the extend block or enum itself gives no segment
    rw [Element.down_kind] at kind
    obtain ⟨i, n, -, rfl⟩ := Element.mem_children.mp inside
    rw [Element.down_down] at kind' ⊢
    rw [Element.down_kind] at kind'
    obtain ⟨name, hasName⟩ := Node.name?_of_kind kind'
    refine ⟨init ++ [(step, last)] ++ [(.child i, n)], by simp, rfl, ?_⟩
    rw [List.map_append, List.map_singleton, relativeSegments_append_singleton, List.map_append,
      List.filterMap_append, List.length_append, List.length_append, named, hasName]
    simp [Node.containerName?_of_kind kind]

/-! ### Names -/

/-- Leaving out a beginning means leaving out a number of segments. -/
theorem exists_split_iff {name : String} {front back : List String} :
    (∃ left rest, left <+: front ∧ front ++ back = left ++ rest ∧ name = joinDots rest) ↔
      ∃ k ≤ front.length, name = joinDots ((front ++ back).drop k) := by
  constructor
  · rintro ⟨left, rest, beginning, split, rfl⟩
    refine ⟨left.length, beginning.length_le, ?_⟩
    rw [split, List.drop_left]
  · rintro ⟨k, bound, rfl⟩
    refine ⟨front.take k, _, List.take_prefix _ _, ?_, rfl⟩
    rw [List.drop_append_of_le_length bound, ← List.append_assoc, List.take_append_drop]

/-- The names that keep at least the last segments leave out some of the others. -/
theorem mem_suffixNames {name : String} {kept front : List String} :
    name ∈ suffixNames kept.length (front ++ kept) ↔
      ∃ k ≤ front.length, name = joinDots ((front ++ kept).drop k) := by
  simp only [suffixNames, List.mem_map, List.mem_range'_1, List.length_append]
  constructor
  · rintro ⟨n, ⟨least, most⟩, rfl⟩
    exact ⟨_, by omega, rfl⟩
  · rintro ⟨k, bound, rfl⟩
    refine ⟨front.length + kept.length - k, by omega, ?_⟩
    congr 2
    omega

end ProtoNames
