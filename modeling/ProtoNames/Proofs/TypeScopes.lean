import ProtoNames.Proofs.Coverage
import ProtoNames.Proofs.Segments

/-!
Where types stand.

* `IsAvailable.wellNested`: built-in files keep to the grammar's nesting as well.
* `opens_above`: a type stands in messages and groups only, if there is no group in an extend
  block. Each of these gives a segment to its name.
* `exists_of_beginning`: so every beginning of a type's segments that is longer than the package
  is what one of them is called.
-/

namespace ProtoNames

variable {d : Source} {e b top site : Element} {outer : List String}

/-! ### Built-in files -/

theorem EnumDescriptor.wellNested_toNode (e : EnumDescriptor) : e.toNode.WellNested := by
  refine .block (List.forall_mem_map.mpr fun _ _ => rfl) (List.forall_mem_map.mpr fun _ _ => ?_)
  exact .leaf _

mutual

theorem MessageDescriptor.wellNested_toNode (entries : MapEntries) (m : MessageDescriptor) :
    (m.toNode entries).kind = .message ∧ (m.toNode entries).WellNested := by
  cases m with
  | mk name mapEntry messages enums fields =>
    have nested := nests_messageNodes entries messages
    refine ⟨rfl, .block ?_ ?_⟩
    · simp only [List.forall_mem_append, List.forall_mem_map]
      refine ⟨⟨fun n inside => ?_, fun _ _ => rfl⟩, fun _ _ => rfl⟩
      rw [(nested n inside).1]
      rfl
    · simp only [List.forall_mem_append, List.forall_mem_map]
      refine ⟨⟨fun n inside => (nested n inside).2, fun e _ => e.wellNested_toNode⟩, ?_⟩
      exact fun _ _ => .leaf _

theorem nests_messageNodes (entries : MapEntries) (messages : List MessageDescriptor) :
    ∀ n ∈ messageNodes entries messages, n.kind = .message ∧ n.WellNested := by
  cases messages with
  | nil => simp [messageNodes]
  | cons m rest =>
    have onwards := nests_messageNodes entries rest
    unfold messageNodes
    split
    · exact onwards
    · exact List.forall_mem_cons.mpr ⟨m.wellNested_toNode entries, onwards⟩

end

theorem FileDescriptor.wellNested_toDocument (f : FileDescriptor) :
    f.toDocument.WellNested := by
  refine List.forall_mem_append.mpr ⟨List.forall_mem_append.mpr ⟨?_, ?_⟩, ?_⟩
  · split
    · exact nests_nil
    · exact nests_nil.leaf rfl
  · refine List.forall_mem_map.mpr fun m _ => ?_
    obtain ⟨kind, nested⟩ := m.wellNested_toNode (mapEntriesOfAll (packageParts f.package) f.messages)
    exact ⟨by rw [kind]; rfl, nested⟩
  · exact List.forall_mem_map.mpr fun e _ => ⟨rfl, e.wellNested_toNode⟩

theorem Source.IsAvailable.wellNested {modules : Builtin.Modules} {given : List Source}
    {sources : SourceSet} (accounted : sources.Accounted given)
    (h : d.IsAvailable modules given) : d.document.WellNested := by
  rcases h with member | ⟨module, -, loaded⟩
  · obtain ⟨frames, uri, text, parsed⟩ := accounted.parsed d member
    exact Document.wellNested_of_parse parsed
  · obtain ⟨file, -, document⟩ := Builtin.Modules.document_eq_ok loaded
    rw [document]
    exact file.wellNested_toDocument

/-! ### Around types -/

theorem Element.opensScope_iff : e.opensScope = true ↔
    e.kind = .document ∨ e.kind = .message ∨ e.kind = .group := by
  unfold opensScope kind
  cases e.node? with
  | none => simp
  | some n => simp [Node.opensScope_iff, Node.kind_ne_document]

/-- A type that a document declares. -/
def Source.Declares (d : Source) (e : Element) : Prop :=
  (Element.ofSource d).Within e ∧ e.kind ∈ typeKinds

/-- A document in which extend blocks declare no types. -/
def Source.ExtendsByFields (d : Source) : Prop :=
  ∀ b, (Element.ofSource d).Within b → b.kind = .extend → ∀ g ∈ b.children, g.kind ≠ .group

theorem Element.Within.of_beginning (h : (Element.ofSource d).Within e)
    (source : b.source = e.source) (beginning : b.trail <+: e.trail) :
    (Element.ofSource d).Within b := by
  obtain ⟨way, rfl⟩ := Element.eq_down_of_prefix source beginning
  obtain ⟨trail, down, whole⟩ := Element.within_iff.mp h
  obtain rfl : b.trail ++ way = trail := congrArg Element.trail whole
  have same : b.source = d := congrArg Element.source whole
  refine Element.within_iff.mpr ⟨b.trail, (wayDown_append.mp down).1, ?_⟩
  rw [← same]
  rfl

theorem Element.Within.package_eq (h : (Element.ofSource d).Within e) :
    e.qualifiedName.package = d.document.packagePath := by
  rw [qualifiedName, h.source_eq]
  rfl

theorem Node.WellNested.kind_of_extend {n : Node} (h : n.WellNested) (isExtend : n.kind = .extend) :
    ∀ m ∈ n.body, m.kind = .field ∨ m.kind = .group := by
  cases h with
  | leaf l => simp [Node.body]
  | @block header body admitted _ =>
    cases header with
    | extend target =>
      intro m hm
      have admitted := admitted m hm
      simpa [Grammar.regionOf, Grammar.Region.admits] using admitted
    | _ => simp [Node.kind, Header.kind] at isExtend

section Nested

variable (nested : d.document.WellNested) (plain : d.ExtendsByFields)

include nested plain

/-- With fields alone in extend blocks, blocks stand in messages and groups. -/
theorem Element.Within.opens_above (h : (Element.ofSource d).Within e)
    (block : e.kind ∈ [Kind.message, .group, .enum, .extend]) :
    ∀ x ∈ e.trail.dropLast, x.2.opensScope = true := by
  induction h with
  | itself => simp [Element.ofSource]
  | @child m e within_ inside ih =>
    have above := within_.attached.wellNested (within_.source_eq ▸ nested)
    have noGroup := fun isExtend => plain m within_ isExtend e inside
    obtain ⟨i, n, stands, rfl⟩ := Element.mem_children.mp inside
    rw [Element.down_singleton_kind] at block noGroup
    rw [Element.down_trail, List.dropLast_concat]
    obtain ⟨source, trail⟩ := m
    rcases List.eq_nil_or_concat' trail with rfl | ⟨init, ⟨step, k⟩, rfl⟩
    · simp
    · have kind : Element.kind ⟨source, init ++ [(step, k)]⟩ = k.kind := by
        simp [Element.kind, Element.node?]
      have nested' : k.WellNested := above (step, k) (by simp)
      have member : n ∈ k.body := by
        simpa [Element.body, Element.node?] using List.mem_of_getElem? stands
      rw [kind] at ih noGroup
      have opens : k.kind = .message ∨ k.kind = .group := by
        rcases nested'.containsBlocks member block with kind | kind | isExtend
        · exact .inl kind
        · exact .inr kind
        · -- of blocks only groups can stand in extend blocks
          rcases nested'.kind_of_extend isExtend n member with isField | isGroup
          · simp [isField] at block
          · exact absurd isGroup (noGroup isExtend)
      have outer := ih (by rcases opens with kind | kind <;> simp [kind])
      rw [List.dropLast_concat] at outer
      exact List.forall_mem_append.mpr ⟨outer, by simpa using Node.opensScope_iff.mpr opens⟩

variable (declared : d.Declares e)

include declared

theorem Source.Declares.opens_above : ∀ x ∈ e.trail.dropLast, x.2.opensScope = true := by
  refine declared.1.opens_above nested plain ?_
  have kind := declared.2
  revert kind
  simp [typeKinds]
  tauto

/-- So all containers of a type open scopes. -/
theorem Source.Declares.opensScope (around : b ∈ e.containers) : b.opensScope = true := by
  have above := declared.opens_above nested plain
  obtain ⟨-, beginning, proper⟩ := Element.mem_containers.mp around
  obtain ⟨source, trail⟩ := b
  obtain ⟨_, whole⟩ := e
  rcases List.eq_nil_or_concat' trail with rfl | ⟨init, ⟨step, n⟩, rfl⟩
  · rfl
  rcases List.eq_nil_or_concat' whole with rfl | ⟨init', last, rfl⟩
  · simp at beginning
  rw [List.dropLast_concat] at above
  have shorter := (List.prefix_concat_iff.mp beginning).resolve_left proper
  simpa [Element.opensScope, Element.node?] using above (step, n) (shorter.subset (by simp))

/-- And they give a segment each. -/
theorem Source.Declares.length_segments :
    e.qualifiedName.segments.length = d.document.packagePath.length + e.trail.length := by
  have above := declared.opens_above nested plain
  have kind := declared.2
  rw [QualifiedName.segments, List.length_append, declared.1.package_eq]
  obtain ⟨_, trail⟩ := e
  rcases List.eq_nil_or_concat' trail with rfl | ⟨init, ⟨step, n⟩, rfl⟩
  · simp [Element.kind, Element.node?, typeKinds] at kind
  obtain ⟨name, named⟩ : ∃ name, n.name? = some name := by
    refine Node.name?_of_kind ?_
    simp [Element.kind, Element.node?, typeKinds] at kind ⊢
    tauto
  rw [List.dropLast_concat] at above
  have containers : ∀ n ∈ init.map (·.2), n.opensScope = true := List.forall_mem_map.mpr above
  simp only [Element.qualifiedName, Element.nodes, List.map_append, List.map_singleton,
    relativeSegments_append_singleton, named, List.length_append,
    length_filterMap_containerName? containers, List.length_map]
  rfl

/-- A beginning of a type's segments that goes beyond the package is what the type is called, or
a type around it. -/
theorem Source.Declares.exists_of_beginning (beginning : outer <+: e.qualifiedName.segments)
    (beyond : d.document.packagePath.length < outer.length) :
    ∃ b, d.Declares b ∧ b.source = e.source ∧ b.trail <+: e.trail ∧
      b.qualifiedName.segments = outer := by
  have length := declared.length_segments nested plain
  have bound := beginning.length_le
  rcases bound.eq_or_lt with same | shorter
  · exact ⟨e, declared, rfl, List.prefix_rfl, (beginning.eq_of_length same).symm⟩
  -- as many steps down as there are segments beyond the package
  obtain ⟨steps, depth⟩ := Nat.exists_eq_add_of_lt beyond
  let b : Element := ⟨e.source, e.trail.take (steps + 1)⟩
  have taken : b.trail.length = steps + 1 := by
    simp only [b, List.length_take]
    omega
  have around : b ∈ e.containers := by
    refine Element.mem_containers.mpr ⟨rfl, List.take_prefix _ _, fun same => ?_⟩
    have lengths := congrArg List.length same
    omega
  have opens := Element.opensScope_iff.mp (declared.opensScope nested plain around)
  have notDocument : b.kind ≠ .document := by
    intro document
    rw [Element.kind_eq_document_iff.mp document] at taken
    cases taken
  have kind := opens.resolve_left notDocument
  have declared' : d.Declares b := by
    refine ⟨declared.1.of_beginning rfl (List.take_prefix _ _), ?_⟩
    rcases kind with kind | kind <;> simp [kind, typeKinds]
  refine ⟨b, declared', rfl, List.take_prefix _ _, ?_⟩
  have notEnum : b.kind ≠ .enum := by rcases kind with kind | kind <;> simp [kind]
  have length' := declared'.length_segments nested plain
  have beginning' : b.qualifiedName.segments <+: e.qualifiedName.segments :=
    segments_beginning rfl (List.take_prefix _ _) notEnum
  refine (List.prefix_of_prefix_length_le beginning' beginning ?_).eq_of_length ?_
  · omega
  · omega

end Nested

end ProtoNames
