import ProtoNames.Proofs.AbsoluteNames
import ProtoNames.Schema.Links

/-!
Links that are set once lead from everything in a document to its container.

* `walk_eq_contents`: the walk over a stack gives what the recursive walk gives.
* `mem_assignments`: in one pass everything is told the element that it stands in.
* `parentOf?_eq`: nothing is told twice, since a place in a document is given by the steps to it.

So a document that has been read is a tree, and every link leads to its root (`Source.linked`).
-/

namespace ProtoNames

variable {s : Source} {top e c o : Element} {stack : List Element}

namespace Element

/-! ### The walk -/

theorem walkFrom_eq (stack : List Element) : walkFrom stack = stack.flatMap contents := by
  fun_induction walkFrom stack with
  | case1 => rfl
  | case2 e stack ih =>
    rw [ih, List.flatMap_append, List.flatMap_cons, contents_eq e]
    rfl

/-- The walk over a stack lists each element and all that is below it, containers first. -/
theorem walk_eq_contents (e : Element) : e.walk = e.contents := by
  rw [walk, walkFrom_eq, List.flatMap_singleton]

/-- Preorder: an element, and the walks through its children one after the other. -/
theorem walk_eq (e : Element) : e.walk = e :: e.children.flatMap walk := by
  have same : walk = contents := funext walk_eq_contents
  rw [same]
  exact contents_eq e

/-- What is below an element is listed in one piece. -/
theorem Within.contents_infix (h : top.Within e) : e.contents <:+: top.contents := by
  induction h with
  | itself => exact List.infix_refl _
  | @child m e _ inside ih =>
    refine List.IsInfix.trans ?_ ih
    obtain ⟨before, after, split⟩ := List.append_of_mem inside
    rw [contents_eq m, split, List.flatMap_append, List.flatMap_cons]
    exact ⟨m :: before.flatMap contents, after.flatMap contents, by simp⟩

/-- An element is listed before its children, and these are listed in order. -/
theorem Within.children_sublist (h : top.Within e) : (e :: e.children).Sublist top.contents := by
  refine List.Sublist.trans ?_ h.contents_infix.sublist
  rw [contents_eq]
  refine List.Sublist.cons_cons e ?_
  generalize e.children = children
  induction children with
  | nil => exact List.Sublist.refl []
  | cons first rest ih =>
    rw [List.flatMap_cons, contents_eq, List.cons_append]
    exact (ih.trans (List.sublist_append_right _ _)).cons_cons first

/-! ### Each once -/

theorem isSame_eq_false (apart : e.steps ≠ c.steps) : e.isSame c = false := by
  simp [isSame, apart]

mutual

theorem pairwise_belowNode (source : Source) (trail : Trail) (n : Node) :
    (belowNode source trail n).Pairwise fun a b => a.isSame b = false := by
  cases n with
  | leaf l => exact .nil
  | block header body => exact pairwise_belowBody source trail 0 body

theorem pairwise_belowBody (source : Source) (trail : Trail) (i : Nat) (body : List Node) :
    (belowBody source trail i body).Pairwise fun a b => a.isSame b = false := by
  cases body with
  | nil => exact .nil
  | cons n rest =>
    have later : ∀ b ∈ belowBody source trail (i + 1) rest,
        ∃ k more, i < k ∧ b.steps = trail.map (·.1) ++ .child k :: more := by
      intro b inside
      obtain ⟨k, m, way, -, -, rfl⟩ := (mem_belowBody source trail (i + 1) rest).mp inside
      exact ⟨i + 1 + k, way.map (·.1), by omega, by simp [steps]⟩
    have deeper : ∀ b ∈ belowNode source (trail ++ [(.child i, n)]) n,
        ∃ more, more ≠ [] ∧ b.steps = trail.map (·.1) ++ .child i :: more := by
      intro b inside
      obtain ⟨way, nonempty, -, rfl⟩ := (mem_belowNode source _ n).mp inside
      exact ⟨way.map (·.1), by simpa using nonempty, by simp [steps]⟩
    have here : (⟨source, trail ++ [(.child i, n)]⟩ : Element).steps =
        trail.map (·.1) ++ [.child i] := by
      simp [steps]
    refine .cons ?_ (List.pairwise_append.mpr ⟨pairwise_belowNode source _ n,
      pairwise_belowBody source trail (i + 1) rest, ?_⟩)
    · intro b inside
      refine isSame_eq_false fun same => ?_
      rw [here] at same
      rcases List.mem_append.mp inside with inside | inside
      · obtain ⟨more, nonempty, steps⟩ := deeper b inside
        rw [steps] at same
        simp [nonempty.symm] at same
      · obtain ⟨k, more, after, steps⟩ := later b inside
        rw [steps] at same
        simp at same
        omega
    · intro a inside b inside'
      refine isSame_eq_false fun same => ?_
      obtain ⟨more, -, steps⟩ := deeper a inside
      obtain ⟨k, more', after, steps'⟩ := later b inside'
      rw [steps, steps'] at same
      simp at same
      omega

end

/-- No two elements that are listed are the same. -/
theorem pairwise_contents (e : Element) :
    e.contents.Pairwise fun a b => a.isSame b = false := by
  refine .cons ?_ (pairwise_belowBody e.source e.trail 0 e.body)
  intro b inside
  obtain ⟨k, m, way, -, -, rfl⟩ := (mem_belowBody e.source e.trail 0 e.body).mp inside
  refine isSame_eq_false fun same => ?_
  have lengths := congrArg List.length same
  simp [steps] at lengths

/-! ### What is told -/

/-- All that is told its container: what is declared directly in an element, and the options
in its brackets. -/
def told (e : Element) : List Element := e.children ++ e.options

theorem exists_step_of_mem_told (inside : c ∈ e.told) : ∃ step n, c = e.down [(step, n)] := by
  rcases List.mem_append.mp inside with child | option
  · obtain ⟨i, n, -, rfl⟩ := mem_children.mp child
    exact ⟨.child i, n, rfl⟩
  · obtain ⟨i, stands, rfl⟩ := List.mem_mapIdx.mp option
    exact ⟨.option i, _, rfl⟩

theorem mem_assignmentsFrom :
    (c, e) ∈ assignmentsFrom stack ↔ e ∈ stack.flatMap contents ∧ c ∈ e.told := by
  fun_induction assignmentsFrom stack with
  | case1 => simp
  | case2 top stack ih =>
    have here : (c, e) ∈ top.children.map (·, top) ++ top.options.map (·, top) ↔
        e = top ∧ c ∈ e.told := by
      simp only [← List.map_append, List.mem_map, Prod.mk.injEq]
      constructor
      · rintro ⟨_, inside, rfl, rfl⟩
        exact ⟨rfl, inside⟩
      · rintro ⟨rfl, inside⟩
        exact ⟨c, inside, rfl, rfl⟩
    have below : e ∈ (top.children.reverse ++ stack).flatMap contents ↔
        e ∈ (top.children ++ stack).flatMap contents := by
      simp
    rw [List.mem_append, here, ih, below, List.flatMap_cons, contents_eq top,
      List.flatMap_append, List.cons_append, List.mem_cons]
    tauto

end Element

open Element

namespace Source

/-! ### Links -/

theorem mem_assignments :
    (c, e) ∈ s.assignments ↔ (ofSource s).Within e ∧ c ∈ e.told := by
  rw [assignments, mem_assignmentsFrom, List.flatMap_singleton, mem_contents]

/-- What an element is told is what it stands in. -/
theorem parentOf?_eq (within : (ofSource s).Within e) (inside : c ∈ e.told) :
    s.parentOf? c = some e := by
  have some_ : (s.assignments.reverse.find? (·.1.isSame c)).isSome := by
    rw [List.find?_isSome]
    exact ⟨(c, e), List.mem_reverse.mpr (mem_assignments.mpr ⟨within, inside⟩), isSame_refl c⟩
  obtain ⟨⟨c', e'⟩, found⟩ := Option.isSome_iff_exists.mp some_
  obtain ⟨within', inside'⟩ := mem_assignments.mp
    (List.mem_reverse.mp (List.mem_of_find?_eq_some found))
  obtain ⟨step, n, rfl⟩ := exists_step_of_mem_told inside
  obtain ⟨step', n', rfl⟩ := exists_step_of_mem_told inside'
  have same := List.find?_some found
  have steps : e'.steps = e.steps := by
    have steps := (isSame_iff.mp same).2
    simp only [Element.steps, down_trail, List.map_append] at steps
    exact List.append_inj_left' steps rfl
  have sources : e'.source = e.source := within'.source_eq.trans within.source_eq.symm
  obtain rfl : e' = e := by
    refine Within.eq_of_steps ?_ ?_ sources steps
    · rwa [within'.source_eq]
    · rwa [within.source_eq]
  rw [parentOf?, found]
  rfl

/-- A document is told nothing. -/
theorem parentOf?_ofSource (s : Source) : s.parentOf? (ofSource s) = none := by
  rw [parentOf?, Option.map_eq_none_iff, List.find?_eq_none]
  rintro ⟨c, e⟩ listed same
  obtain ⟨-, inside⟩ := mem_assignments.mp (List.mem_reverse.mp listed)
  obtain ⟨step, n, rfl⟩ := exists_step_of_mem_told inside
  have steps := (isSame_iff.mp same).2
  simp [Element.steps, ofSource] at steps

theorem topOf_eq_of_parentOf? {p : Element} (told : s.parentOf? e = some p) :
    s.topOf e = s.topOf p := by
  rw [topOf]
  split
  · next none_ => cases none_.symm.trans told
  · next q told' =>
    cases told'.symm.trans told
    rfl

theorem topOf_eq (within : (ofSource s).Within e) : s.topOf e = ofSource s := by
  induction within with
  | itself =>
    rw [topOf]
    split
    · rfl
    · next q told => cases (parentOf?_ofSource s).symm.trans told
  | @child m e within inside ih =>
    rw [topOf_eq_of_parentOf? (parentOf?_eq within (List.mem_append_left _ inside)), ih]

theorem rootOf?_of_topOf (top : s.topOf e = ofSource s) : s.rootOf? e = some (ofSource s) := by
  rw [rootOf?, top]
  rfl

/-- The links are the containers that trails tell of. -/
theorem parentOf?_eq_parent? (within : (ofSource s).Within e) : s.parentOf? e = e.parent? := by
  cases within with
  | itself => exact parentOf?_ofSource s
  | @child m e within inside =>
    rw [parentOf?_eq within (List.mem_append_left _ inside)]
    obtain ⟨i, n, -, rfl⟩ := mem_children.mp inside
    simp [parent?]

/-- A document that has been read is a tree. What stands directly in an element, as a child or as
an option in its brackets, has this element as its parent; the document has none. The links from
everything lead to the document, and they are the containers that trails tell of. The walk over a
stack lists all that is in the document, and nothing twice, in preorder: an element, and then its
children in order, each with all that is below it. -/
theorem linked (s : Source) :
    (∀ e ∈ (ofSource s).walk, ∀ c ∈ e.children ++ e.options,
      s.parentOf? c = some e ∧ s.rootOf? c = some (ofSource s)) ∧
    s.parentOf? (ofSource s) = none ∧
    (∀ e ∈ (ofSource s).walk, s.rootOf? e = some (ofSource s) ∧ s.parentOf? e = e.parent?) ∧
    (ofSource s).walk = (ofSource s).contents ∧
    (∀ e, e ∈ (ofSource s).walk ↔ (ofSource s).Within e) ∧
    (ofSource s).walk.Pairwise (fun a b => a.isSame b = false) ∧
    (∀ e : Element, e.walk = e :: e.children.flatMap walk) ∧
    ∀ e ∈ (ofSource s).walk, (e :: e.children).Sublist (ofSource s).walk := by
  have listed : ∀ e, e ∈ (ofSource s).walk ↔ (ofSource s).Within e := fun e => by
    rw [walk_eq_contents, mem_contents]
  refine ⟨fun e inside c below => ?_, parentOf?_ofSource s, fun e inside => ?_,
    walk_eq_contents _, listed, ?_, walk_eq, fun e inside => ?_⟩
  · have within := (listed e).mp inside
    have parent := parentOf?_eq within below
    have top := (topOf_eq_of_parentOf? parent).trans (topOf_eq within)
    exact ⟨parent, rootOf?_of_topOf top⟩
  · have within := (listed e).mp inside
    exact ⟨rootOf?_of_topOf (topOf_eq within), parentOf?_eq_parent? within⟩
  · rw [walk_eq_contents]
    exact pairwise_contents _
  · rw [walk_eq_contents]
    exact ((listed e).mp inside).children_sublist

end Source

end ProtoNames
