import ProtoNames.Schema.Element

/-!
Links from the elements of a document to their containers.

When a document has been read, everything in it is told what contains it, in one pass over a
stack of elements that are still to be visited (`Source.assignments`). From then on containers
are found by following these links (`Source.parentOf?`, `Source.rootOf?`). The walks through the
document keep such a stack as well: the full one with the first child on top (`Element.walk`), the
scoped one with the last message or group on top (`Element.scopedWalk`).

All passes end because every visit takes the visited element away from what is below the stack
(`pending`), and following links ends because a container is higher up.
-/

namespace ProtoNames

namespace Element

/-- The options in a field's brackets. -/
def options (e : Element) : List Element :=
  (e.node?.elim [] Node.settings).mapIdx fun i s =>
    ⟨e.source, e.trail ++ [(.option i, .leaf (.option s))]⟩

/-! ### What is below a stack -/

theorem belowNode_eq (source : Source) (trail : Trail) (n : Node) :
    belowNode source trail n = belowBody source trail 0 n.body := by
  cases n <;> simp [belowNode, belowBody, Node.body]

theorem belowBody_eq (source : Source) (trail : Trail) (i : Nat) (body : List Node) :
    belowBody source trail i body = (childrenFrom source trail i body).flatMap contents := by
  induction body generalizing i with
  | nil => rfl
  | cons n rest ih =>
    have last : (⟨source, trail ++ [(.child i, n)]⟩ : Element).body = n.body := by
      simp [body, node?]
    simp [belowBody, childrenFrom, contents, last, belowNode_eq, ih]

/-- An element comes first, then its children, each with all that is below it. -/
theorem contents_eq (e : Element) : e.contents = e :: e.children.flatMap contents := by
  rw [contents, belowBody_eq]
  rfl

/-- How many elements there are on a stack and below it. -/
def pending (stack : List Element) : Nat := (stack.flatMap contents).length

theorem pending_visit (e : Element) (stack : List Element) :
    pending (e.children ++ stack) < pending (e :: stack) := by
  simp [pending, contents_eq e]

/-- The messages and groups directly in an element. -/
def innerScopes (e : Element) : List Element :=
  e.children.filter fun c => c.node?.any Node.opensScope

theorem pending_filter_le (p : Element → Bool) (stack : List Element) :
    pending (stack.filter p) ≤ pending stack := by
  unfold pending
  induction stack with
  | nil => exact Nat.le_refl _
  | cons e stack ih =>
    by_cases kept : p e = true
    · rw [List.filter_cons_of_pos kept]
      simp only [List.flatMap_cons, List.length_append]
      omega
    · rw [List.filter_cons_of_neg kept]
      simp only [List.flatMap_cons, List.length_append]
      omega

theorem pending_visit_reverse (e : Element) (stack : List Element) :
    pending (e.children.reverse ++ stack) < pending (e :: stack) := by
  have same : pending (e.children.reverse ++ stack) = pending (e.children ++ stack) := by
    simp [pending, List.length_flatMap]
  rw [same]
  exact pending_visit e stack

theorem pending_visit_scopes (e : Element) (stack : List Element) :
    pending (e.innerScopes.reverse ++ stack) < pending (e :: stack) := by
  have fewer := pending_filter_le (fun c => c.node?.any Node.opensScope) e.children
  have visit := pending_visit_reverse e stack
  simp only [pending, innerScopes, List.flatMap_append, List.length_append,
    List.length_flatMap, List.map_reverse, List.sum_reverse] at *
  omega

/-! ### The passes -/

/-- The elements in the order in which they are taken off a stack, the top of which comes
first. The children of what was taken are put on it, with the first on top. -/
def walkFrom : List Element → List Element
  | [] => []
  | e :: stack => e :: walkFrom (e.children ++ stack)
termination_by stack => pending stack
decreasing_by exact pending_visit e stack

/-- The walk through an element and all that is below it. -/
def walk (e : Element) : List Element := walkFrom [e]

/-- What the scoped walk lists from a stack on, the top of which comes first. The children of what
is taken are listed, at the level that was noted with it; then the messages and groups among them
are put on the stack one by one, one level deeper, so the last is on top. -/
def scopedWalkFrom : List (Element × Nat) → List (Element × Nat)
  | [] => []
  | (e, level) :: stack =>
    e.children.map (·, level) ++
      scopedWalkFrom (e.innerScopes.reverse.map (·, level + 1) ++ stack)
termination_by stack => pending (stack.map (·.1))
decreasing_by
  rw [List.map_append, List.map_map]
  simpa [Function.comp_def] using pending_visit_scopes e (stack.map (·.1))

/-- The walk through what can be seen below an element. -/
def scopedWalk (e : Element) : List (Element × Nat) := scopedWalkFrom [(e, 0)]

/-- Who is told what contains it, in the order in which that is done. The children are put on
the stack one by one, so the last is on top. -/
def assignmentsFrom : List Element → List (Element × Element)
  | [] => []
  | e :: stack =>
    e.children.map (·, e) ++ e.options.map (·, e) ++ assignmentsFrom (e.children.reverse ++ stack)
termination_by stack => pending stack
decreasing_by exact pending_visit_reverse e stack

/-! ### Links lead upwards -/

theorem length_of_mem_childrenFrom {source : Source} {trail : Trail} {c : Element} {i : Nat}
    {body : List Node} (inside : c ∈ childrenFrom source trail i body) :
    c.trail.length = trail.length + 1 := by
  induction body generalizing i with
  | nil => cases inside
  | cons n rest ih =>
    rcases List.mem_cons.mp inside with rfl | later
    · exact List.length_append
    · exact ih later

theorem length_of_mem_options {e o : Element} (inside : o ∈ e.options) :
    o.trail.length = e.trail.length + 1 := by
  obtain ⟨i, _, rfl⟩ := List.mem_mapIdx.mp inside
  exact List.length_append

/-- What is told what contains it stands directly below that. -/
theorem length_of_mem_assignmentsFrom {c e : Element} {stack : List Element}
    (told : (c, e) ∈ assignmentsFrom stack) : c.trail.length = e.trail.length + 1 := by
  fun_induction assignmentsFrom stack with
  | case1 => cases told
  | case2 top stack ih =>
    rcases List.mem_append.mp told with first | later
    · rcases List.mem_append.mp first with child | option
      · obtain ⟨_, inside, same⟩ := List.mem_map.mp child
        cases same
        exact length_of_mem_childrenFrom inside
      · obtain ⟨_, inside, same⟩ := List.mem_map.mp option
        cases same
        exact length_of_mem_options inside
    · exact ih later

end Element

namespace Source

/-- Who is told what contains it, from the document on. -/
def assignments (s : Source) : List (Element × Element) := Element.assignmentsFrom [.ofSource s]

/-- What contains an element, as it was told last. -/
def parentOf? (s : Source) (e : Element) : Option Element :=
  (s.assignments.reverse.find? (·.1.isSame e)).map (·.2)

theorem length_of_parentOf? {s : Source} {e p : Element} (told : s.parentOf? e = some p) :
    p.trail.length < e.trail.length := by
  obtain ⟨⟨c, q⟩, found, rfl : q = p⟩ := Option.map_eq_some_iff.mp told
  have below := Element.length_of_mem_assignmentsFrom
    (List.mem_reverse.mp (List.mem_of_find?_eq_some found))
  have same := List.find?_some found
  have steps : c.steps = e.steps := by
    simp only [Element.isSame, Bool.and_eq_true, beq_iff_eq] at same
    exact same.2
  have lengths : c.trail.length = e.trail.length := by
    simpa [Element.steps] using congrArg List.length steps
  omega

/-- Where the links from an element lead to. -/
def topOf (s : Source) (e : Element) : Element :=
  match told : s.parentOf? e with
  | none => e
  | some p =>
    have := length_of_parentOf? told
    topOf s p
termination_by e.trail.length

/-- The document to which the links from an element lead, if they lead to one. -/
def rootOf? (s : Source) (e : Element) : Option Element :=
  if (s.topOf e).kind = .document then some (s.topOf e) else none

end Source

end ProtoNames
