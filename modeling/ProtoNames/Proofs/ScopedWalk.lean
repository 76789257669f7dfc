import Mathlib.Data.List.Perm.Subperm
import ProtoNames.Proofs.Links

/-!
The scoped walk lists what messages and groups lead to, and nothing else.

* `scopedWalk_eq_scopedContents`: the walk over a stack gives what the recursive walk gives.
* `reaches_iff_between`: what is reached is below, with messages and groups alone in between.
* `subperm_contents`: it is listed once, since it is part of everything that is below.
-/

namespace ProtoNames.Element

variable {top e m c : Element} {level : Nat}

/-! ### The walk over a stack -/

/-- What the scoped walk lists from an element on that was entered at a level. -/
def scopedFrom (e : Element) (level : Nat) : List (Element × Nat) :=
  e.children.map (·, level) ++ scopedBody e.source e.trail level 0 e.body

theorem scopedNode_eq (source : Source) (trail : Trail) (step : Step) (level : Nat) (n : Node) :
    scopedNode source (trail ++ [(step, n)]) level n =
      if n.opensScope then (⟨source, trail ++ [(step, n)]⟩ : Element).scopedFrom level else [] := by
  cases n with
  | leaf l => rfl
  | block header body =>
    have same : (Node.block header body).opensScope = (Node.block header []).opensScope := by
      cases header <;> rfl
    have last : (⟨source, trail ++ [(step, .block header body)]⟩ : Element).body = body := by
      simp [Element.body, node?, Node.body]
    rw [scopedNode, same, scopedFrom, children, last]

theorem scopedBody_eq (source : Source) (trail : Trail) (level i : Nat) (body : List Node) :
    scopedBody source trail level i body =
      ((childrenFrom source trail i body).filter fun c => c.node?.any Node.opensScope).reverse.flatMap
        fun c => c.scopedFrom (level + 1) := by
  induction body generalizing i with
  | nil => rfl
  | cons n rest ih =>
    have last : (⟨source, trail ++ [(.child i, n)]⟩ : Element).node? = some n := by simp [node?]
    rw [scopedBody, ih, scopedNode_eq, childrenFrom, List.filter_cons, last, Option.any_some]
    split <;> simp

/-- The children come first, then what is below the messages and groups among them, the last of
these first. -/
theorem scopedFrom_eq (e : Element) (level : Nat) : e.scopedFrom level =
    e.children.map (·, level) ++ e.innerScopes.reverse.flatMap (·.scopedFrom (level + 1)) := by
  rw [scopedFrom, scopedBody_eq]
  rfl

theorem scopedWalkFrom_eq (stack : List (Element × Nat)) :
    scopedWalkFrom stack = stack.flatMap fun entry => entry.1.scopedFrom entry.2 := by
  fun_induction scopedWalkFrom stack with
  | case1 => rfl
  | case2 stack e level ih =>
    rw [ih, List.flatMap_append, List.flatMap_cons, scopedFrom_eq, List.flatMap_map]
    simp

theorem scopedWalk_eq_scopedContents (e : Element) : e.scopedWalk = e.scopedContents := by
  rw [scopedWalk, scopedWalkFrom_eq, List.flatMap_singleton]
  rfl

/-! ### Elements in between -/

/-- An element stands strictly between two others. -/
structure IsBetween (top e c : Element) : Prop where
  below : top.Within c
  other : c ≠ top
  above : c.Within e
  apart : c ≠ e

/-- The containers of an element that are deeper than another, innermost first. -/
def between (top e : Element) : List Element :=
  e.containers.filter fun c => top.trail.length < c.trail.length

theorem containers_down (e : Element) (link : Step × Node) :
    (e.down [link]).containers = e :: e.containers := by
  have outer : ∀ k ∈ (List.range e.trail.length).reverse,
      (⟨e.source, (e.trail ++ [link]).take k⟩ : Element) = ⟨e.source, e.trail.take k⟩ := by
    intro k inside
    have bound : k ≤ e.trail.length := by
      simp only [List.mem_reverse, List.mem_range] at inside
      omega
    rw [List.take_append_of_le_length bound]
  simp only [containers, down_source, down_trail, List.length_append, List.length_singleton,
    List.range_succ, List.reverse_append, List.reverse_singleton, List.singleton_append,
    List.map_cons, List.take_left, List.map_congr_left outer]

theorem containers_of_mem_children (inside : e ∈ m.children) :
    e.containers = m :: m.containers := by
  obtain ⟨i, n, -, rfl⟩ := mem_children.mp inside
  exact containers_down m _

theorem Within.length_le (within : top.Within e) : top.trail.length ≤ e.trail.length := by
  obtain ⟨way, -, rfl⟩ := within_iff.mp within
  simp

theorem length_of_mem_children (inside : e ∈ m.children) :
    e.trail.length = m.trail.length + 1 :=
  length_of_mem_childrenFrom inside

/-- What is no deeper is the element itself. -/
theorem Within.eq_of_length (within : top.Within e) (same : e.trail.length ≤ top.trail.length) :
    e = top := by
  obtain ⟨way, -, rfl⟩ := within_iff.mp within
  have none_ : way = [] := List.length_eq_zero_iff.mp (by simpa using same)
  rw [none_, down_nil]

theorem between_itself (top : Element) : between top top = [] := by
  refine List.filter_eq_nil_iff.mpr fun c around deeper => ?_
  have shorter := (mem_containers.mp around).2.1.length_le
  simp only [decide_eq_true_eq] at deeper
  omega

theorem between_of_child (inside : e ∈ top.children) : between top e = [] := by
  rw [between, containers_of_mem_children inside, List.filter_cons_of_neg (by simp)]
  exact between_itself top

theorem between_of_deeper (within : top.Within m) (deeper : m ≠ top) (inside : e ∈ m.children) :
    between top e = m :: between top m := by
  have longer : top.trail.length < m.trail.length := by
    by_contra same
    exact deeper (within.eq_of_length (Nat.le_of_not_lt same))
  rw [between, containers_of_mem_children inside, List.filter_cons_of_pos (by simpa using longer)]
  rfl

theorem isBetween_of_mem_children (within : top.Within m) (inside : e ∈ m.children) :
    IsBetween top e c ↔ c = m ∧ m ≠ top ∨ IsBetween top m c := by
  have length := length_of_mem_children inside
  constructor
  · rintro ⟨below, other, above, apart⟩
    cases above with
    | itself => exact absurd rfl apart
    | @child m' e above inside' =>
      have same := (containers_of_mem_children inside').symm.trans (containers_of_mem_children inside)
      obtain rfl : m' = m := (List.cons.inj same).1
      by_cases here : c = m'
      · exact .inl ⟨here, here ▸ other⟩
      · exact .inr ⟨below, other, above, here⟩
  · rintro (⟨rfl, other⟩ | ⟨below, other, above, -⟩)
    · refine ⟨within, other, .child .itself inside, ?_⟩
      rintro rfl
      omega
    · refine ⟨below, other, above.child inside, ?_⟩
      rintro rfl
      have := above.length_le
      omega

theorem mem_between (within : top.Within e) : c ∈ between top e ↔ IsBetween top e c := by
  induction within with
  | itself =>
    rw [between_itself]
    refine iff_of_false List.not_mem_nil fun strictly => ?_
    exact strictly.other (strictly.below.eq_of_length strictly.above.length_le)
  | @child m e within inside ih =>
    rw [isBetween_of_mem_children within inside]
    by_cases here : m = top
    · subst here
      rw [between_of_child inside, ← ih, between_itself]
      simp
    · rw [between_of_deeper within here inside, List.mem_cons, ih]
      simp [here]

theorem nodup_between (within : top.Within e) : (between top e).Nodup := by
  induction within with
  | itself =>
    rw [between_itself]
    exact .nil
  | @child m e within inside ih =>
    by_cases here : m = top
    · subst here
      rw [between_of_child inside]
      exact .nil
    · rw [between_of_deeper within here inside]
      exact List.nodup_cons.mpr ⟨fun again => ((mem_between within).mp again).apart rfl, ih⟩

/-! ### What is reached -/

theorem reaches_iff_between : top.Reaches e level ↔ top.Within e ∧ e ≠ top ∧
    (∀ c ∈ between top e, c.kind = .message ∨ c.kind = .group) ∧
      level = (between top e).length := by
  have ne_of_longer {e : Element} (longer : top.trail.length < e.trail.length) : e ≠ top := by
    rintro rfl
    omega
  constructor
  · intro reaches
    induction reaches with
    | child inside =>
      have length := length_of_mem_children inside
      refine ⟨.child .itself inside, ne_of_longer (by omega), ?_, ?_⟩
      · simp [between_of_child inside]
      · simp [between_of_child inside]
    | @deeper m e level _ opens inside ih =>
      obtain ⟨within, deeper, kinds, rfl⟩ := ih
      have length := length_of_mem_children inside
      have := within.length_le
      refine ⟨within.child inside, ne_of_longer (by omega), ?_, ?_⟩
      · rw [between_of_deeper within deeper inside]
        exact List.forall_mem_cons.mpr ⟨opens, kinds⟩
      · rw [between_of_deeper within deeper inside, List.length_cons]
  · rintro ⟨within, deeper, kinds, rfl⟩
    induction within with
    | itself => exact absurd rfl deeper
    | @child m e within inside ih =>
      by_cases here : m = top
      · subst here
        rw [between_of_child inside]
        exact .child inside
      · rw [between_of_deeper within here inside] at kinds ⊢
        obtain ⟨opens, kinds⟩ := List.forall_mem_cons.mp kinds
        exact .deeper (ih here kinds) opens inside

/-! ### Each once -/

mutual

theorem subperm_belowNode (source : Source) (trail : Trail) (level : Nat) (n : Node) :
    ((scopedNode source trail level n).map (·.1)).Subperm (belowNode source trail n) := by
  cases n with
  | leaf l => exact List.nil_subperm
  | block header body =>
    rw [scopedNode, belowNode]
    split
    · have below := subperm_belowBody source trail level 0 body
      simpa [Function.comp_def] using below
    · exact List.nil_subperm

theorem subperm_belowBody (source : Source) (trail : Trail) (level i : Nat) (body : List Node) :
    (childrenFrom source trail i body ++ (scopedBody source trail level i body).map (·.1)).Subperm
      (belowBody source trail i body) := by
  cases body with
  | nil => exact List.nil_subperm
  | cons n rest =>
    have deeper := subperm_belowNode source (trail ++ [(.child i, n)]) (level + 1) n
    have later := subperm_belowBody source trail level (i + 1) rest
    -- what is below the first node is listed last here, and first there
    rw [childrenFrom, scopedBody, belowBody, List.map_append, List.cons_append, ← List.append_assoc]
    exact (List.subperm_cons _).mpr ((later.append deeper).trans List.perm_append_comm.subperm)

end

/-- What is listed is part of all that there is. -/
theorem subperm_contents (e : Element) : (e.scopedContents.map (·.1)).Subperm e.contents := by
  have below := subperm_belowBody e.source e.trail 0 0 e.body
  have listed : e.scopedContents.map (·.1) =
      childrenFrom e.source e.trail 0 e.body ++
        (scopedBody e.source e.trail 0 0 e.body).map (·.1) := by
    simp [scopedContents, children, Function.comp_def]
  rw [listed]
  exact below.trans (List.sublist_cons_self e _).subperm

/-- No element is listed twice. -/
theorem pairwise_scopedContents (e : Element) :
    e.scopedContents.Pairwise fun a b => a.1.isSame b.1 = false := by
  obtain ⟨listed, same, part⟩ := subperm_contents e
  have once := (pairwise_contents e).sublist part
  exact List.pairwise_map.mp (once.perm same isSame_comm.trans)

/-- The scoped walk is exact. It lists what is below an element with messages and groups alone in
between, with the number of these, and nothing twice; what is in between are the elements that are
below the one and above the other. So nothing is listed that is below an enum, an extend block or a
service, unless the walk begins there. -/
theorem scopedWalk_exact (top : Element) :
    top.scopedWalk = top.scopedContents ∧
    (∀ e level, (e, level) ∈ top.scopedWalk ↔ top.Within e ∧ e ≠ top ∧
      (∀ c, IsBetween top e c → c.kind = .message ∨ c.kind = .group) ∧
      level = (between top e).length) ∧
    (∀ e, top.Within e → (between top e).Nodup ∧ ∀ c, c ∈ between top e ↔ IsBetween top e c) ∧
    top.scopedWalk.Pairwise (fun a b => a.1.isSame b.1 = false) ∧
    ∀ c e level, top.Within c → c ≠ top →
      c.kind = .enum ∨ c.kind = .extend ∨ c.kind = .service →
      c.Within e → e ≠ c → (e, level) ∉ top.scopedWalk := by
  have listed (e : Element) (level : Nat) : (e, level) ∈ top.scopedWalk ↔ top.Within e ∧ e ≠ top ∧
      (∀ c, IsBetween top e c → c.kind = .message ∨ c.kind = .group) ∧
      level = (between top e).length := by
    rw [scopedWalk_eq_scopedContents, mem_scopedContents, reaches_iff_between]
    refine and_congr_right fun within => ?_
    simp only [mem_between within]
  refine ⟨scopedWalk_eq_scopedContents top, listed,
    fun e within => ⟨nodup_between within, fun c => mem_between within⟩, ?_, ?_⟩
  · rw [scopedWalk_eq_scopedContents]
    exact pairwise_scopedContents top
  · intro c e level below other kind above apart met
    obtain ⟨-, -, kinds, -⟩ := (listed e level).mp met
    have opens := kinds c ⟨below, other, above, fun same => apart same.symm⟩
    rcases kind with kind | kind | kind <;> simp [kind] at opens

/-- Neither the value of the enum nor the field of the extend block is listed. -/
example : (ofSource ⟨.reading 0, ⟨"", none, [
    .block (.message "A") [
      .block (.message "B") [.block (.enum "E") [.leaf (.enumValue "X" 0)]],
      .block (.extend "A") [.leaf (.field undeclaredField)]]]⟩⟩).scopedContents.map
        (fun listed => (listed.1.kind, listed.2)) =
    [(.message, 0), (.message, 1), (.extend, 1), (.enum, 2)] := by
  decide

end ProtoNames.Element
