import ProtoNames.Proofs.Identifiers
import ProtoNames.Proofs.OneDocument
import ProtoNames.Proofs.Pieces

/-!
Names and their segments.

* `segments_joinDots`: names without dots are the segments of what they are joined to, so that
  joined names are told apart by their texts.
* `IsAvailable.namesAreSegments`: no name that is declared has a dot, in documents that were read
  and in the files of modules of which that holds.
* `Element.Within.areSegments`: so full names are as good as lists of segments.
-/

namespace ProtoNames

open Text Scan

/-! ### Segments -/

/-- A name without a dot. -/
def IsSegment (name : String) : Prop := name ≠ "" ∧ '.' ∉ name.toList

/-- Names that can be joined by dots and told apart again. -/
def AreSegments (names : List String) : Prop := ∀ name ∈ names, IsSegment name

theorem IsWord.isSegment {name : String} (h : IsWord name) : IsSegment name := by
  obtain ⟨c, cs, spelled, starts, continues⟩ := h
  have all : ∀ x ∈ name.toList, continuesWord x = true := by
    rw [spelled]
    exact List.forall_mem_cons.mpr ⟨continuesWord_of_startsWord starts, continues⟩
  constructor
  · rintro rfl
    cases spelled
  · intro dotted
    exact absurd (all '.' dotted) (by decide)

theorem areSegments_segments (name : String) : AreSegments (segments name) := by
  intro segment inside
  obtain ⟨piece, kept, rfl⟩ := List.mem_map.mp inside
  obtain ⟨cut, some_⟩ := List.mem_filter.mp kept
  refine ⟨by simpa using some_, ?_⟩
  rw [String.toList_ofList]
  exact not_mem_of_mem_pieces cut

theorem AreSegments.of_append {names others : List String} (h : AreSegments (names ++ others)) :
    AreSegments names ∧ AreSegments others :=
  List.forall_mem_append.mp h

theorem AreSegments.of_beginning {names outer : List String} (h : AreSegments names)
    (beginning : outer <+: names) : AreSegments outer :=
  fun name inside => h name (beginning.subset inside)

/-- Cutting undoes joining. -/
theorem segments_joinDots {names : List String} (h : AreSegments names) :
    segments (joinDots names) = names := by
  cases names with
  | nil => rfl
  | cons first others =>
    have cut : pieces '.' (joinDots (first :: others)).toList =
        (first :: others).map String.toList := pieces_joined (by simp) fun part inside =>
      (h part inside).2
    have all : ((first :: others).map String.toList).filter (!·.isEmpty) =
        (first :: others).map String.toList := by
      refine List.filter_eq_self.mpr (List.forall_mem_map.mpr fun name inside => ?_)
      simpa using (h name inside).1
    rw [segments, cut, all, List.map_map]
    simp

theorem joinDots_injective {names others : List String} (h : AreSegments names)
    (h' : AreSegments others) (same : joinDots names = joinDots others) : names = others := by
  rw [← segments_joinDots h, same, segments_joinDots h']

theorem joinDots_cons {first : String} {others : List String} (some_ : others ≠ []) :
    joinDots (first :: others) = first ++ "." ++ joinDots others := by
  cases others with
  | nil => exact absurd rfl some_
  | cons next more => rfl

/-- A text is cut at its first dot in one way. -/
theorem append_dot_injective {first first' rest rest' : String} (free : '.' ∉ first.toList)
    (free' : '.' ∉ first'.toList) (same : first ++ "." ++ rest = first' ++ "." ++ rest') :
    first = first' ∧ rest = rest' := by
  have chars : first.toList ++ '.' :: rest.toList = first'.toList ++ '.' :: rest'.toList := by
    simpa using congrArg String.toList same
  have cut := congrArg (pieces '.') chars
  rw [pieces_append_cons free, pieces_append_cons free'] at cut
  obtain ⟨head, -⟩ := List.cons.inj cut
  rw [head] at chars
  obtain ⟨-, tail⟩ := List.cons.inj (List.append_cancel_left chars)
  exact ⟨String.toList_injective head, String.toList_injective tail⟩

/-- What begins like some segments goes on with names joined by dots. -/
theorem joinDots_eq_append_iff {names outer : List String} {name : String}
    (clean : AreSegments names) (some_ : names ≠ []) (clean' : AreSegments outer) :
    joinDots names = joinDots (outer ++ [name]) ↔
      ∃ rest, rest ≠ [] ∧ names = outer ++ rest ∧ name = joinDots rest := by
  induction outer generalizing names with
  | nil =>
    constructor
    · intro same
      exact ⟨names, some_, rfl, same.symm⟩
    · rintro ⟨rest, -, rfl, rfl⟩
      rfl
  | cons first outer ih =>
    obtain ⟨here, cleanOuter⟩ := List.forall_mem_cons.mp clean'
    obtain ⟨first', others, rfl⟩ := List.exists_cons_of_ne_nil some_
    obtain ⟨here', cleanOthers⟩ := List.forall_mem_cons.mp clean
    have whole : joinDots (first :: (outer ++ [name])) = first ++ "." ++ joinDots (outer ++ [name]) :=
      joinDots_cons (by simp)
    rw [List.cons_append, whole]
    by_cases last : others = []
    · -- a dot stands on one side only, and there are more names on one side
      subst last
      constructor
      · intro same
        have dotted : '.' ∈ (joinDots [first']).toList := by
          rw [same]
          simp
        exact absurd dotted here'.2
      · rintro ⟨rest, more, split, -⟩
        obtain ⟨-, split⟩ := List.cons.inj split
        exact absurd (List.append_eq_nil_iff.mp split.symm).2 more
    · rw [joinDots_cons last]
      constructor
      · intro same
        obtain ⟨rfl, onwards⟩ := append_dot_injective here'.2 here.2 same
        obtain ⟨rest, more, split, rfl⟩ := (ih cleanOthers last cleanOuter).mp onwards
        exact ⟨rest, more, congrArg (first' :: ·) split, rfl⟩
      · rintro ⟨rest, more, split, rfl⟩
        obtain ⟨rfl, onwards⟩ := List.cons.inj split
        rw [(ih cleanOthers last cleanOuter).mpr ⟨rest, more, onwards, rfl⟩]

/-! ### Places in documents -/

/-- What is declared in a document has a name that is a segment. -/
def Source.NamesAreSegments (d : Source) : Prop :=
  ∀ e, (Element.ofSource d).Within e → ∀ n, e.node? = some n →
    ∀ name, n.name? = some name → IsSegment name

variable {d : Source} {e : Element}

/-- Whatever is declared in a document is named by a word. -/
theorem Document.NamedByWords.isNamedByWord (named : d.document.NamedByWords)
    (h : (Element.ofSource d).Within e) {n : Node} (node : e.node? = some n) :
    n.IsNamedByWord := by
  cases h with
  | itself => cases node
  | child within_ inside =>
    obtain ⟨i, m, stands, rfl⟩ := Element.mem_children.mp inside
    obtain rfl : m = n := Option.some.inj (Element.down_singleton_node?.symm.trans node)
    have bodies := within_.forall_mem_body (P := fun _ n => n.NamedByWords) named
      fun _ _ _ named => named.body
    exact (bodies m (List.mem_of_getElem? stands)).here

theorem Document.NamedByWords.namesAreSegments (named : d.document.NamedByWords) :
    d.NamesAreSegments :=
  fun _ within_ _ node name hasName => (named.isNamedByWord within_ node name hasName).isSegment

/-! ### Modules -/

theorem mem_bytes_of_dot {name : String} (h : '.' ∈ name.toList) :
    46 ∈ name.toByteArray.data.toList := by
  rw [← String.ofList_toList (s := name), String.toByteArray_ofList]
  simp only [List.utf8Encode, List.data_toByteArray, List.mem_flatMap]
  exact ⟨'.', h, by decide⟩

namespace Builtin

/-- No declaration in the files that the modules carry has a dot in its name. -/
def Modules.NamesAreSegments (modules : Modules) : Prop :=
  ∀ ⦃module f⦄, modules module = .ok f →
    (Source.mk (.builtIn module) f.toDocument).NamesAreSegments

theorem namesAreSegments_wellKnown : wellKnown.NamesAreSegments := by
  -- bytes are faster to compare than characters
  have spelled : ∀ entry ∈ files,
      ∀ e ∈ (Element.ofSource ⟨.builtIn entry.1, entry.2.toDocument⟩).contents,
        ∀ name ∈ e.node?.bind Node.name?, name ≠ "" ∧ 46 ∉ name.toByteArray.data.toList := by
    decide +kernel
  intro module f carried e within_ n node name hasName
  obtain ⟨some_, free⟩ := spelled _ (mem_files_of_wellKnown carried) e
    (Element.mem_contents.mpr within_) name (by simp [node, hasName])
  exact ⟨some_, fun dotted => free (mem_bytes_of_dot dotted)⟩

end Builtin

theorem Source.IsBuiltIn.namesAreSegments {modules : Builtin.Modules}
    (segmented : modules.NamesAreSegments) (builtIn : d.IsBuiltIn modules) :
    d.NamesAreSegments := by
  obtain ⟨module, id, loaded⟩ := builtIn
  obtain ⟨f, carried, document⟩ := Builtin.Modules.document_eq_ok loaded
  rcases d with ⟨_, _⟩
  cases id
  cases document
  exact segmented carried

theorem Source.IsAvailable.namesAreSegments {modules : Builtin.Modules} {given : List Source}
    {sources : SourceSet} (segmented : modules.NamesAreSegments)
    (accounted : sources.Accounted given) (h : d.IsAvailable modules given) :
    d.NamesAreSegments := by
  rcases h with member | builtIn
  · obtain ⟨frames, uri, text, parsed⟩ := accounted.parsed d member
    exact (Document.namedByWords_of_parse parsed).namesAreSegments
  · exact builtIn.namesAreSegments segmented

/-! ### Full names -/

/-- The segments of a name are those of the package, and names of containers. -/
theorem Element.Within.areSegments (names : d.NamesAreSegments)
    (h : (Element.ofSource d).Within e) : AreSegments e.qualifiedName.segments := by
  have nodes : ∀ n ∈ e.nodes, ∀ name, n.name? = some name → IsSegment name := by
    induction h with
    | itself => simp [Element.nodes, Element.ofSource]
    | child within_ inside ih =>
      obtain ⟨i, n, stands, rfl⟩ := Element.mem_children.mp inside
      rw [Element.nodes_down]
      refine List.forall_mem_append.mpr ⟨ih, List.forall_mem_singleton.mpr ?_⟩
      exact names _ (.child within_ inside) n Element.down_singleton_node?
  refine List.forall_mem_append.mpr ⟨areSegments_segments _, ?_⟩
  refine List.forall_mem_append.mpr ⟨?_, ?_⟩
  · intro name inside
    obtain ⟨n, container, gives⟩ := List.mem_filterMap.mp inside
    unfold Node.containerName? at gives
    split at gives
    · cases gives
    · exact nodes n (List.dropLast_subset _ container) name gives
  · intro name inside
    obtain ⟨n, last, gives⟩ := Option.bind_eq_some_iff.mp (Option.mem_toList.mp inside)
    exact nodes n (List.mem_of_getLast? last) name gives

end ProtoNames
