import ProtoNames.Proofs.Containment
import ProtoNames.Proofs.ScopedWalk

/-!
Looking up an element by its name within the file undoes naming it.

* `relative_eq`: the name is what the containers give, from the outermost inwards.
* `named?_eq_some_iff`, `named?_eq_none_iff`: a name is looked up in the walk through the document;
  the first element that has its segments is found.
* `named?_joinDots`: no declared name has a dot, so the name that is joined from the segments of an
  element leads to the first element with the same segments.
-/

namespace ProtoNames.Element

variable {s : Source} {e f : Element} {name : String}

/-! ### Names of elements -/

theorem isNamed_iff : e.isNamed = true ↔ e.kind ∈ Kind.named := by
  constructor
  · intro named
    obtain ⟨name, hasName⟩ := Option.isSome_iff_exists.mp named
    obtain ⟨n, node, hasName⟩ := Option.bind_eq_some_iff.mp hasName
    rw [kind, node]
    rcases n with l | ⟨header, body⟩
    · cases l <;> simp_all [Kind.named, Node.kind, Leaf.kind, Node.name?]
    · cases header <;> simp_all [Kind.named, Node.kind, Header.kind, Node.name?]
  · intro kind
    obtain ⟨n, node, name, hasName⟩ := exists_name kind
    simp [isNamed, node, hasName]

theorem filterMap_nodes (e : Element) : e.nodes.filterMap Node.containerName? =
    (e :: e.containers).reverse.filterMap fun c => c.node?.bind Node.containerName? := by
  obtain ⟨source, trail⟩ := e
  induction trail using List.reverseRecOn with
  | nil => rfl
  | append_singleton trail link ih =>
    have longer : (⟨source, trail ++ [link]⟩ : Element) = (⟨source, trail⟩ : Element).down [link] :=
      rfl
    rw [longer, containers_down, List.reverse_cons, List.filterMap_append, ← ih, nodes_down,
      List.filterMap_append]
    simp [down, node?, List.filterMap_cons]

/-- The name within the file: what the containers give, from the outermost inwards, and the name of
the element. -/
theorem relative_eq (e : Element) : e.qualifiedName.relative =
    (e.containers.reverse.filterMap fun c => c.node?.bind Node.containerName?) ++
      (e.node?.bind Node.name?).toList := by
  obtain ⟨source, trail⟩ := e
  rcases List.eq_nil_or_concat' trail with rfl | ⟨init, link, rfl⟩
  · rfl
  · have longer : (⟨source, init ++ [link]⟩ : Element) = (⟨source, init⟩ : Element).down [link] := rfl
    rw [longer, qualifiedName, containers_down, ← filterMap_nodes, nodes_down]
    simp [relativeSegments, down, node?]

theorem relative_ne_nil (named : e.isNamed = true) : e.qualifiedName.relative ≠ [] := by
  obtain ⟨own, hasName⟩ := Option.isSome_iff_exists.mp named
  rw [relative_eq, hasName]
  simp

/-! ### Looking up -/

theorem named?_eq (some_ : name ≠ "") : named? s name = (ofSource s).walk.find? fun e =>
    e.isNamed && e.qualifiedName.relative == ProtoNames.segments name := by
  rw [named?, walk_eq_contents, if_neg (by simpa using some_)]

theorem named?_eq_some_iff (some_ : name ≠ "") : named? s name = some f ↔
    (f.isNamed = true ∧ f.qualifiedName.relative = ProtoNames.segments name) ∧
      ∃ before after, (ofSource s).walk = before ++ f :: after ∧
        ∀ b ∈ before, b.isNamed = true → b.qualifiedName.relative ≠ ProtoNames.segments name := by
  rw [named?_eq some_, List.find?_eq_some_iff_append]
  simp only [Bool.and_eq_true, beq_iff_eq, Bool.not_eq_true', Bool.and_eq_false_imp,
    beq_eq_false_iff_ne, exists_and_right]

theorem named?_eq_none_iff (some_ : name ≠ "") : named? s name = none ↔
    ∀ e, (ofSource s).Within e → e.isNamed = true →
      e.qualifiedName.relative ≠ ProtoNames.segments name := by
  rw [named?_eq some_, walk_eq_contents, List.find?_eq_none]
  simp [mem_contents]

/-- Names that are joined are cut again. -/
theorem Within.segments_relative (names : s.NamesAreSegments) (within : (ofSource s).Within e) :
    ProtoNames.segments (joinDots e.qualifiedName.relative) = e.qualifiedName.relative :=
  segments_joinDots (within.areSegments names).of_append.2

/-- In a document that was parsed, the name of an element within the file, joined by dots, leads to
the first element in preorder that has the same segments: to the element itself if no other has
them. Any name but the empty one leads nowhere if and only if nothing has its segments. The segments
of an element are what its containers give, from the outermost inwards, and its own name. -/
theorem named?_joinDots {frames : Nat} {uri text : String}
    (parsed : Document.parse frames uri text = .ok s.document) :
    (∀ e, (ofSource s).Within e → e.kind ∈ Kind.named →
      ∃ before f after, named? s (joinDots e.qualifiedName.relative) = some f ∧
        (ofSource s).walk = before ++ f :: after ∧
        f.kind ∈ Kind.named ∧ f.qualifiedName.relative = e.qualifiedName.relative ∧
        (∀ b ∈ before, b.kind ∈ Kind.named →
          b.qualifiedName.relative ≠ e.qualifiedName.relative) ∧
        ((∀ g, (ofSource s).Within g → g.kind ∈ Kind.named →
          g.qualifiedName.relative = e.qualifiedName.relative → g = e) → f = e)) ∧
    (∀ name, name ≠ "" → (named? s name = none ↔ ∀ e, (ofSource s).Within e →
      e.kind ∈ Kind.named → e.qualifiedName.relative ≠ ProtoNames.segments name)) ∧
    ∀ e : Element, e.qualifiedName.relative =
      (e.containers.reverse.filterMap fun c => c.node?.bind Node.containerName?) ++
        (e.node?.bind Node.name?).toList := by
  have names := (Document.namedByWords_of_parse parsed).namesAreSegments
  refine ⟨fun e within named => ?_, fun name some_ => ?_, relative_eq⟩
  · have segments := within.segments_relative names
    have some_ : joinDots e.qualifiedName.relative ≠ "" := by
      intro none_
      rw [none_] at segments
      exact relative_ne_nil (isNamed_iff.mpr named) segments.symm
    obtain ⟨f, found⟩ : ∃ f, named? s (joinDots e.qualifiedName.relative) = some f := by
      refine Option.ne_none_iff_exists'.mp fun none_ => ?_
      exact (named?_eq_none_iff some_).mp none_ e within (isNamed_iff.mpr named) segments.symm
    obtain ⟨⟨isNamed, same⟩, before, after, split, first⟩ := (named?_eq_some_iff some_).mp found
    rw [segments] at same first
    refine ⟨before, f, after, found, split, isNamed_iff.mp isNamed, same,
      fun b inside named => first b inside (isNamed_iff.mpr named), fun only => ?_⟩
    have listed : f ∈ (ofSource s).walk := by simp [split]
    rw [walk_eq_contents] at listed
    exact only f (mem_contents.mp listed) (isNamed_iff.mp isNamed) same
  · rw [named?_eq_none_iff some_]
    simp only [isNamed_iff]

/-- An enum, one of its values and a field of the same name. -/
def namesakes : Source :=
  ⟨.reading 0, ⟨"", none, [.block (.message "M") [
    .block (.enum "E") [.leaf (.enumValue "x" 0)],
    .leaf (.field ⟨"int32", "x", 1, none, none, none, []⟩)]]⟩⟩

/-- The name of the field leads to the first of both, which is the value. -/
theorem named?_joinDots_value :
    Document.parse 1000 "" "message M \x7b enum E \x7b x = 0; \x7d int32 x = 1; \x7d" =
      .ok namesakes.document ∧
    ∃ before f after, named? namesakes "M.x" = some f ∧
      (ofSource namesakes).walk = before ++ f :: after ∧ f.qualifiedName.relative = ["M", "x"] ∧
      ∀ b ∈ before, b.kind ∈ Kind.named → b.qualifiedName.relative ≠ ["M", "x"] := by
  have parsed : Document.parse 1000 "" "message M \x7b enum E \x7b x = 0; \x7d int32 x = 1; \x7d" =
      .ok namesakes.document := by
    decide +kernel
  obtain ⟨field, within, name, isField⟩ : ∃ e : Element, (ofSource namesakes).Within e ∧
      e.qualifiedName.relative = ["M", "x"] ∧ e.kind = .field := by
    refine ⟨_, .child (.child .itself (mem_children.mpr ⟨0, _, rfl, rfl⟩))
      (mem_children.mpr ⟨1, _, rfl, rfl⟩), rfl, rfl⟩
  obtain ⟨before, f, after, found, split, -, same, first, -⟩ :=
    (named?_joinDots parsed).1 field within (by simp [isField, Kind.named])
  rw [name] at found same first
  exact ⟨parsed, before, f, after, found, split, same, first⟩

end ProtoNames.Element
