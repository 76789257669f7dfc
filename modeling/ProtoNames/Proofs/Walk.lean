import Mathlib.Data.List.Basic
import Mathlib.Data.List.Induction
import ProtoNames.Schema.Element

/-!
What the walks through a document meet.

* `mem_scopedContents`: the scoped walk meets the children of an element and, level by level,
  those of the messages and groups that it has met.
* `mem_contents`: the full walk meets whatever stands below an element.

Both are proved by way of the trails that lead down from the element (`WayDown`).
-/

namespace ProtoNames

/-- An element is a child of another, or of a message or group that the other reaches; the
number counts the messages and groups in between. -/
inductive Element.Reaches (top : Element) : Element → Nat → Prop
  | child {e : Element} : e ∈ top.children → Reaches top e 0
  | deeper {m e : Element} {level : Nat} : Reaches top m level →
      m.kind = .message ∨ m.kind = .group → e ∈ m.children → Reaches top e (level + 1)

/-- An element is another or stands anywhere below it. -/
inductive Element.Within (top : Element) : Element → Prop
  | itself : Within top top
  | child {m e : Element} : Within top m → e ∈ m.children → Within top e

/-- A way down from a body: each node stands in the body of the one before, at the index of
the step to it. -/
def WayDown : List Node → Trail → Prop
  | _, [] => True
  | body, (step, n) :: rest => (∃ i, step = .child i ∧ body[i]? = some n) ∧ WayDown n.body rest

/-- A way down to somewhere else that goes through messages and groups only. -/
def ScopedWay (body : List Node) (way : Trail) : Prop :=
  way ≠ [] ∧ WayDown body way ∧ ∀ x ∈ way.dropLast, x.2.opensScope = true

/-- The body at the end of a way down. -/
def bodyAfter : List Node → Trail → List Node
  | body, [] => body
  | _, (_, n) :: rest => bodyAfter n.body rest

/-- The place that a way leads to from an element. -/
def Element.down (e : Element) (way : Trail) : Element := ⟨e.source, e.trail ++ way⟩

variable {top e : Element} {source : Source} {trail way : Trail} {body : List Node} {n : Node}
  {step : Step} {level i : Nat}

/-! ### Ways down -/

@[simp] theorem Element.down_source : (e.down way).source = e.source := rfl

@[simp] theorem Element.down_trail : (e.down way).trail = e.trail ++ way := rfl

@[simp] theorem Element.down_nil : e.down [] = e := by simp [down]

theorem Element.down_down (more : Trail) : (e.down way).down more = e.down (way ++ more) := by
  simp [down]

@[simp] theorem Element.down_node? : (e.down (way ++ [(step, n)])).node? = some n := by
  simp [down, node?]

@[simp] theorem Element.down_kind : (e.down (way ++ [(step, n)])).kind = n.kind := by
  simp [kind]

@[simp] theorem Element.down_singleton_node? : (e.down [(step, n)]).node? = some n := by
  show (e.down ([] ++ [(step, n)])).node? = some n
  exact down_node?

@[simp] theorem Element.down_singleton_kind : (e.down [(step, n)]).kind = n.kind := by
  simp [kind]

theorem Element.down_body : (e.down way).body = bodyAfter e.body way := by
  induction way generalizing e with
  | nil =>
    rw [down_nil]
    rfl
  | cons link rest ih =>
    have first : (e.down [link]).body = link.2.body := by simp [body, node?, down]
    have onwards := ih (e := e.down [link])
    rw [down_down, first] at onwards
    exact onwards

theorem wayDown_append {more : Trail} : WayDown body (way ++ more) ↔
    WayDown body way ∧ WayDown (bodyAfter body way) more := by
  induction way generalizing body with
  | nil => simp [WayDown, bodyAfter]
  | cons link rest ih => simp only [List.cons_append, WayDown, ih, bodyAfter, and_assoc]

theorem scopedWay_cons : ScopedWay body ((step, n) :: way) ↔
    (∃ i, step = .child i ∧ body[i]? = some n) ∧
      (way = [] ∨ n.opensScope = true ∧ ScopedWay n.body way) := by
  constructor
  · rintro ⟨-, ⟨stands, down⟩, between⟩
    refine ⟨stands, ?_⟩
    cases way with
    | nil => exact .inl rfl
    | cons link rest =>
      rw [List.dropLast_cons_cons, List.forall_mem_cons] at between
      exact .inr ⟨between.1, by simp, down, between.2⟩
  · rintro ⟨stands, rfl | ⟨opens, nonempty, down, between⟩⟩
    · exact ⟨by simp, ⟨stands, trivial⟩, by simp⟩
    · refine ⟨by simp, ⟨stands, down⟩, ?_⟩
      rw [List.dropLast_cons_of_ne_nil nonempty, List.forall_mem_cons]
      exact ⟨opens, between⟩

theorem Node.opensScope_iff : n.opensScope = true ↔ n.kind = .message ∨ n.kind = .group := by
  rcases n with l | ⟨header, body⟩
  · cases l <;> simp [opensScope, kind, Leaf.kind]
  · cases header <;> simp [opensScope, kind, Header.kind]

/-! ### Children -/

theorem mem_childrenFrom : e ∈ childrenFrom source trail i body ↔
    ∃ k n, body[k]? = some n ∧ e = ⟨source, trail ++ [(.child (i + k), n)]⟩ := by
  induction body generalizing i with
  | nil => simp [childrenFrom]
  | cons m rest ih =>
    simp only [childrenFrom, List.mem_cons, ih]
    constructor
    · rintro (rfl | ⟨k, n, stands, rfl⟩)
      · exact ⟨0, m, rfl, rfl⟩
      · exact ⟨k + 1, n, stands, by rw [Nat.add_right_comm, Nat.add_assoc]⟩
    · rintro ⟨k, n, stands, rfl⟩
      cases k with
      | zero =>
        cases stands
        exact .inl rfl
      | succ k => exact .inr ⟨k, n, stands, by rw [Nat.add_right_comm, Nat.add_assoc]⟩

theorem Element.mem_children : e ∈ top.children ↔
    ∃ i n, top.body[i]? = some n ∧ e = top.down [(.child i, n)] := by
  simp only [children, mem_childrenFrom, Nat.zero_add, down]

/-- What holds of the statements of a document and passes from a node to its body holds of all
nodes in the document, each in the element whose body it is in. -/
theorem Element.Within.forall_mem_body {s : Source} {P : Element → Node → Prop}
    (h : (Element.ofSource s).Within e) (statements : ∀ n ∈ s.document.statements, P (ofSource s) n)
    (down : ∀ e i n, P e n → ∀ m ∈ n.body, P (e.down [(.child i, n)]) m) :
    ∀ n ∈ e.body, P e n := by
  induction h with
  | itself => exact statements
  | child _ inside ih =>
    obtain ⟨i, n, stands, rfl⟩ := mem_children.mp inside
    rw [down_body]
    exact down _ i n (ih n (List.mem_of_getElem? stands))

theorem Element.mem_children_of_child? (h : top.child? i = some e) : e ∈ top.children := by
  obtain ⟨n, stands, rfl⟩ := Option.map_eq_some_iff.mp h
  exact mem_children.mpr ⟨i, n, stands, rfl⟩

/-- Reaching an element means going down to it through messages and groups alone. -/
theorem Element.reaches_iff : top.Reaches e level ↔
    ∃ way, ScopedWay top.body way ∧ way.length = level + 1 ∧ e = top.down way := by
  constructor
  · intro h
    induction h with
    | child inside =>
      obtain ⟨i, n, stands, rfl⟩ := mem_children.mp inside
      exact ⟨[(.child i, n)], ⟨by simp, ⟨⟨i, rfl, stands⟩, trivial⟩, by simp⟩, rfl, rfl⟩
    | @deeper m e level _ opens inside ih =>
      obtain ⟨way, ⟨nonempty, down, between⟩, length, rfl⟩ := ih
      obtain ⟨i, n, stands, rfl⟩ := mem_children.mp inside
      rw [down_body] at stands
      have longer : WayDown top.body (way ++ [(.child i, n)]) :=
        wayDown_append.mpr ⟨down, ⟨i, rfl, stands⟩, trivial⟩
      refine ⟨way ++ [(.child i, n)], ⟨by simp, longer, ?_⟩, by simp [length], down_down _⟩
      obtain ⟨init, ⟨step, last⟩, rfl⟩ := (List.eq_nil_or_concat' way).resolve_left nonempty
      simp only [down_kind] at opens between ⊢
      simp only [List.dropLast_concat] at between ⊢
      intro x hx
      rcases List.mem_append.mp hx with hx | hx
      · exact between x hx
      · cases List.mem_singleton.mp hx
        exact Node.opensScope_iff.mpr opens
  · rintro ⟨way, ⟨-, down, between⟩, length, rfl⟩
    induction way using List.reverseRecOn generalizing level with
    | nil => simp at length
    | append_singleton way link ih =>
      obtain ⟨step, n⟩ := link
      obtain ⟨shorter, ⟨i, rfl, stands⟩, -⟩ := wayDown_append.mp down
      have inside : top.down (way ++ [(.child i, n)]) ∈ (top.down way).children :=
        mem_children.mpr ⟨i, n, by rw [down_body]; exact stands, (down_down _).symm⟩
      rw [List.dropLast_concat] at between
      cases way using List.reverseRecOn with
      | nil =>
        cases Nat.succ.inj length
        rw [down_nil] at inside
        exact .child inside
      | append_singleton way link =>
        obtain ⟨step, m⟩ := link
        obtain rfl : level = way.length + 1 := by simpa using length.symm
        have between' : ∀ x ∈ (way ++ [(step, m)]).dropLast, x.2.opensScope = true := by
          intro x hx
          exact between x (List.mem_append_left _ (by simpa using hx))
        refine .deeper (ih shorter between' (by simp)) ?_ inside
        rw [down_kind]
        exact Node.opensScope_iff.mp (between (step, m) (by simp))

/-- What is within an element is where ways down from it lead. -/
theorem Element.within_iff : top.Within e ↔ ∃ way, WayDown top.body way ∧ e = top.down way := by
  constructor
  · intro h
    induction h with
    | itself => exact ⟨[], trivial, down_nil.symm⟩
    | child _ inside ih =>
      obtain ⟨way, down, rfl⟩ := ih
      obtain ⟨i, n, stands, rfl⟩ := mem_children.mp inside
      rw [down_body] at stands
      have longer : WayDown top.body (way ++ [(.child i, n)]) :=
        wayDown_append.mpr ⟨down, ⟨i, rfl, stands⟩, trivial⟩
      exact ⟨way ++ [(.child i, n)], longer, down_down _⟩
  · rintro ⟨way, down, rfl⟩
    induction way using List.reverseRecOn with
    | nil =>
      rw [down_nil]
      exact .itself
    | append_singleton way link ih =>
      obtain ⟨step, n⟩ := link
      obtain ⟨shorter, ⟨i, rfl, stands⟩, -⟩ := wayDown_append.mp down
      exact .child (ih shorter)
        (mem_children.mpr ⟨i, n, by rw [down_body]; exact stands, (down_down _).symm⟩)

theorem Element.Reaches.source_eq (h : top.Reaches e level) : e.source = top.source := by
  obtain ⟨way, -, -, rfl⟩ := Element.reaches_iff.mp h
  rfl

theorem Element.Within.source_eq (h : top.Within e) : e.source = top.source := by
  obtain ⟨way, -, rfl⟩ := Element.within_iff.mp h
  rfl

/-! ### The walks -/

mutual

theorem mem_belowNode (source : Source) (trail : Trail) (n : Node) :
    e ∈ belowNode source trail n ↔
      ∃ way, way ≠ [] ∧ WayDown n.body way ∧ e = ⟨source, trail ++ way⟩ := by
  cases n with
  | leaf l =>
    simp only [belowNode, List.not_mem_nil, false_iff]
    rintro ⟨way, nonempty, down, -⟩
    cases way with
    | nil => exact nonempty rfl
    | cons link rest => simp [WayDown, Node.body] at down
  | block header body =>
    simp only [belowNode, mem_belowBody source trail 0 body, Nat.zero_add]
    constructor
    · rintro ⟨k, n, rest, stands, down, rfl⟩
      exact ⟨(.child k, n) :: rest, by simp, ⟨⟨k, rfl, stands⟩, down⟩, rfl⟩
    · rintro ⟨way, nonempty, down, rfl⟩
      cases way with
      | nil => exact absurd rfl nonempty
      | cons link rest =>
        obtain ⟨step, n⟩ := link
        obtain ⟨⟨k, rfl, stands⟩, down⟩ := down
        exact ⟨k, n, rest, stands, down, rfl⟩

theorem mem_belowBody (source : Source) (trail : Trail) (i : Nat) (body : List Node) :
    e ∈ belowBody source trail i body ↔ ∃ k n rest, body[k]? = some n ∧ WayDown n.body rest ∧
      e = ⟨source, trail ++ (.child (i + k), n) :: rest⟩ := by
  cases body with
  | nil => simp [belowBody]
  | cons m others =>
    simp only [belowBody, List.mem_cons, List.mem_append,
      mem_belowNode source (trail ++ [(.child i, m)]) m, mem_belowBody source trail (i + 1) others]
    constructor
    · rintro (rfl | ⟨way, -, down, rfl⟩ | ⟨k, n, rest, stands, down, rfl⟩)
      · exact ⟨0, m, [], rfl, trivial, rfl⟩
      · exact ⟨0, m, way, rfl, down, by simp⟩
      · exact ⟨k + 1, n, rest, stands, down, by rw [Nat.add_right_comm, Nat.add_assoc]⟩
    · rintro ⟨k, n, rest, stands, down, rfl⟩
      cases k with
      | zero =>
        cases stands
        by_cases nonempty : rest = []
        · exact .inl (by simp [nonempty])
        · exact .inr (.inl ⟨rest, nonempty, down, by simp⟩)
      | succ k =>
        exact .inr (.inr ⟨k, n, rest, stands, down, by rw [Nat.add_right_comm, Nat.add_assoc]⟩)

end

mutual

theorem mem_scopedNode (source : Source) (trail : Trail) (level : Nat) (n : Node) {found : Nat} :
    (e, found) ∈ scopedNode source trail level n ↔
      n.opensScope = true ∧ ∃ way, ScopedWay n.body way ∧ found + 1 = level + way.length ∧
        e = ⟨source, trail ++ way⟩ := by
  cases n with
  | leaf l => simp [scopedNode, Node.opensScope]
  | block header body =>
    have same : (Node.block header body).opensScope = (Node.block header []).opensScope := by
      cases header <;> rfl
    rw [scopedNode, same]
    split
    · next opens =>
      simp only [List.mem_append, List.mem_map, Prod.mk.injEq, mem_childrenFrom,
        mem_scopedBody source trail level 0 body, Nat.zero_add, opens, true_and]
      constructor
      · rintro (⟨_, ⟨k, n, stands, rfl⟩, rfl, rfl⟩ | ⟨k, n, rest, stands, opens, way, rfl, rfl⟩)
        · exact ⟨[(.child k, n)], scopedWay_cons.mpr ⟨⟨k, rfl, stands⟩, .inl rfl⟩, rfl, rfl⟩
        · exact ⟨(.child k, n) :: rest, scopedWay_cons.mpr ⟨⟨k, rfl, stands⟩, .inr ⟨opens, way⟩⟩,
            rfl, rfl⟩
      · rintro ⟨way, through, length, rfl⟩
        cases way with
        | nil => exact absurd rfl through.1
        | cons link rest =>
          obtain ⟨step, n⟩ := link
          obtain ⟨⟨k, rfl, stands⟩, rfl | ⟨opens, through⟩⟩ := scopedWay_cons.mp through
          · exact .inl ⟨_, ⟨k, n, stands, rfl⟩, rfl, (Nat.succ.inj length).symm⟩
          · exact .inr ⟨k, n, rest, stands, opens, through, Nat.succ.inj length, rfl⟩
    · next opens => simp [opens]

theorem mem_scopedBody (source : Source) (trail : Trail) (level i : Nat) (body : List Node)
    {found : Nat} :
    (e, found) ∈ scopedBody source trail level i body ↔
      ∃ k n rest, body[k]? = some n ∧ n.opensScope = true ∧ ScopedWay n.body rest ∧
        found = level + rest.length ∧ e = ⟨source, trail ++ (.child (i + k), n) :: rest⟩ := by
  cases body with
  | nil => simp [scopedBody]
  | cons m others =>
    simp only [scopedBody, List.mem_append, mem_scopedBody source trail level (i + 1) others,
      mem_scopedNode source (trail ++ [(.child i, m)]) (level + 1) m]
    constructor
    · rintro (⟨k, n, rest, stands, opens, through, rfl, rfl⟩ | ⟨opens, way, through, length, rfl⟩)
      · exact ⟨k + 1, n, rest, stands, opens, through, rfl,
          by rw [Nat.add_right_comm, Nat.add_assoc]⟩
      · exact ⟨0, m, way, rfl, opens, through, by omega, by simp⟩
    · rintro ⟨k, n, rest, stands, opens, through, rfl, rfl⟩
      cases k with
      | zero =>
        cases stands
        exact .inr ⟨opens, rest, through, by omega, by simp⟩
      | succ k =>
        exact .inl ⟨k, n, rest, stands, opens, through, rfl,
          by rw [Nat.add_right_comm, Nat.add_assoc]⟩

end

/-- The scoped walk meets what is reached through messages and groups, and counts these. -/
theorem Element.mem_scopedContents : (e, level) ∈ top.scopedContents ↔ top.Reaches e level := by
  simp only [scopedContents, List.mem_append, List.mem_map, Prod.mk.injEq, mem_children,
    mem_scopedBody, reaches_iff, Nat.zero_add]
  constructor
  · rintro (⟨_, ⟨i, n, stands, rfl⟩, rfl, rfl⟩ | ⟨k, n, rest, stands, opens, through, rfl, rfl⟩)
    · exact ⟨[(.child i, n)], scopedWay_cons.mpr ⟨⟨i, rfl, stands⟩, .inl rfl⟩, rfl, rfl⟩
    · exact ⟨(.child k, n) :: rest, scopedWay_cons.mpr ⟨⟨k, rfl, stands⟩, .inr ⟨opens, through⟩⟩,
        rfl, rfl⟩
  · rintro ⟨way, through, length, rfl⟩
    cases way with
    | nil => exact absurd rfl through.1
    | cons link rest =>
      obtain ⟨step, n⟩ := link
      obtain ⟨⟨k, rfl, stands⟩, rfl | ⟨opens, through⟩⟩ := scopedWay_cons.mp through
      · exact .inl ⟨_, ⟨k, n, stands, rfl⟩, rfl, Nat.succ.inj length⟩
      · exact .inr ⟨k, n, rest, stands, opens, through, (Nat.succ.inj length).symm, rfl⟩

/-- The full walk meets everything. -/
theorem Element.mem_contents : e ∈ top.contents ↔ top.Within e := by
  simp only [contents, List.mem_cons, mem_belowBody, within_iff, Nat.zero_add]
  constructor
  · rintro (rfl | ⟨k, n, rest, stands, down, rfl⟩)
    · exact ⟨[], trivial, down_nil.symm⟩
    · exact ⟨(.child k, n) :: rest, ⟨⟨k, rfl, stands⟩, down⟩, rfl⟩
  · rintro ⟨way, down, rfl⟩
    cases way with
    | nil => exact .inl down_nil
    | cons link rest =>
      obtain ⟨step, n⟩ := link
      obtain ⟨⟨k, rfl, stands⟩, down⟩ := down
      exact .inr ⟨k, n, rest, stands, down, rfl⟩

end ProtoNames
