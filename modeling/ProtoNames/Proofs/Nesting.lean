import ProtoNames.Schema.Grammar

/-!
What stands inside what.

The grammar says for each kind of block which declarations can stand in its body, and for a
file which ones can be its statements. `WellNested` says that a tree keeps to this. Every
document that a text spells does: `wellNested_of_parse`. So enums and services contain no
other blocks.
-/

namespace ProtoNames

/-! ### What readers give -/

namespace Reader

variable {α β : Type} {p : Reader α} {P : β → Prop}

/-- All that a reader gives has a property. -/
def Gives (p : Reader α) (P : α → Prop) : Prop := ∀ ⦃ts a rest⦄, p ts = .ok (a, rest) → P a

theorem Gives.pure {b : β} (h : P b) : Gives (pure b) P := by
  rintro _ _ _ ⟨⟩
  exact h

theorem Gives.bind {f : α → Reader β} (h : ∀ a, Gives (f a) P) : Gives (p >>= f) P := by
  intro ts b rest gives
  obtain ⟨a, mid, -, second⟩ := bind_eq_ok.mp gives
  exact h a second

theorem mapped_eq_ok {f : α → β} {ts rest : List Token} {b : β} :
    (f <$> p) ts = .ok (b, rest) ↔ ∃ a, p ts = .ok (a, rest) ∧ f a = b := by
  rw [← bind_pure_comp, bind_eq_ok]
  constructor
  · rintro ⟨a, mid, first, second⟩
    cases second
    exact ⟨a, first, rfl⟩
  · rintro ⟨a, first, rfl⟩
    exact ⟨a, rest, first, rfl⟩

theorem Gives.map {f : α → β} (h : Gives p fun a => P (f a)) : Gives (f <$> p) P := by
  intro ts b rest gives
  obtain ⟨a, first, rfl⟩ := mapped_eq_ok.mp gives
  exact h first

theorem gives_of_forall {p : Reader β} (h : ∀ b, P b) : Gives p P := fun _ b _ _ => h b

theorem gives_refuse (fault : Fault) : Gives (refuse fault : Reader β) P := by
  rintro _ _ _ ⟨⟩

theorem gives_ite {c : Prop} [Decidable c] {p q : Reader β} (h : c → Gives p P)
    (h' : ¬ c → Gives q P) : Gives (if c then p else q) P := by
  split
  · next holds => exact h holds
  · next fails => exact h' fails

end Reader

namespace Grammar

open Reader

/-! ### What is admitted -/

/-- Whether a declaration of a kind can stand in a region. -/
def Region.admits : Region → Kind → Bool
  | .message => [.field, .group, .message, .enum, .extend, .option].contains
  | .oneof => [.field, .group].contains
  | .extend => [.field, .group].contains
  | .enum => [.enumValue, .option].contains
  | .service => [.rpc, .option].contains

/-- Whether an entry can stand in a region. Oneofs stand in messages. -/
def Entry.Fits (r : Region) : Entry → Prop
  | .close => True
  | .skip => True
  | .leaf l => r.admits l.kind = true
  | .header h => r.admits h.kind = true
  | .oneof _ => r = .message

/-- Whether a declaration of a kind can be a statement of a file. -/
def admitsStatement : Kind → Bool :=
  [.package, .importing, .option, .message, .enum, .extend, .service].contains

/-! ### Leaves and headers -/

theorem optionStatement_gives : Gives optionStatement fun l => l.kind = .option := by
  unfold optionStatement
  exact .bind fun _ => .bind fun _ => .bind fun _ => .pure rfl

theorem packageStatement_gives : Gives packageStatement fun l => l.kind = .package := by
  unfold packageStatement
  exact .bind fun _ => .bind fun _ => .bind fun _ => .pure rfl

theorem importStatement_gives : Gives importStatement fun l => l.kind = .importing := by
  unfold importStatement
  exact .bind fun _ => .bind fun _ => .bind fun _ => .bind fun _ => .pure rfl

theorem enumValue_gives : Gives enumValue fun l => l.kind = .enumValue := by
  unfold enumValue
  exact .bind fun _ => .bind fun _ => .bind fun _ => .bind fun _ => .bind fun _ => .pure rfl

theorem rpc_gives : Gives rpc fun l => l.kind = .rpc := by
  unfold rpc
  refine .bind fun _ => .bind fun _ => .bind fun _ => .bind fun _ => .bind fun _ => ?_
  exact .bind fun _ => .bind fun _ => .pure rfl

theorem extendHeader_gives : Gives extendHeader fun h => h.kind = .extend := by
  unfold extendHeader
  exact .bind fun _ => .bind fun _ => .bind fun _ => .pure rfl

theorem groupHeader_gives (label : Option Label) :
    Gives (groupHeader label) fun h => h.kind = .group := by
  unfold groupHeader
  refine .bind fun _ => .bind fun _ => .bind fun _ => .bind fun _ => ?_
  exact .bind fun _ => .bind fun _ => .pure rfl

/-! ### Entries -/

theorem skipStatement_fits (r : Region) (k : Keyword) :
    Gives (skipStatement k) (Entry.Fits r) := by
  unfold skipStatement
  exact .bind fun _ => .bind fun _ => .pure trivial

theorem fieldOrGroup_fits {r : Region} (field : r.admits .field = true)
    (group : r.admits .group = true) : Gives fieldOrGroup (Entry.Fits r) := by
  unfold fieldOrGroup fieldOrGroupAt
  refine .bind fun label => .bind fun next => gives_ite (fun _ => ?_) fun _ => ?_
  · refine .map fun _ h _ gives => ?_
    have kind := groupHeader_gives label gives
    exact (congrArg r.admits kind).trans group
  · exact .map (gives_of_forall fun _ => field)

theorem leaf_fits {r : Region} {p : Reader Leaf} {k : Kind} (h : Gives p fun l => l.kind = k)
    (admitted : r.admits k = true) : Gives (Entry.leaf <$> p) (Entry.Fits r) :=
  .map fun _ _ _ gives => (congrArg r.admits (h gives)).trans admitted

theorem messageEntryAt_fits (k : TokenKind) : Gives (messageEntryAt k) (Entry.Fits .message) := by
  unfold messageEntryAt
  split
  · exact .map (gives_of_forall fun _ => rfl)
  · exact .map (gives_of_forall fun _ => rfl)
  · exact .map fun _ _ _ gives => (congrArg _ (extendHeader_gives gives)).trans rfl
  · exact leaf_fits optionStatement_gives rfl
  · exact .map (gives_of_forall fun _ => rfl)
  · exact skipStatement_fits _ _
  · exact skipStatement_fits _ _
  · exact fieldOrGroup_fits rfl rfl

theorem oneofEntryAt_fits (k : TokenKind) : Gives (oneofEntryAt k) (Entry.Fits .oneof) := by
  unfold oneofEntryAt
  split
  · exact skipStatement_fits _ _
  · exact fieldOrGroup_fits rfl rfl

theorem enumEntryAt_fits (k : TokenKind) : Gives (enumEntryAt k) (Entry.Fits .enum) := by
  unfold enumEntryAt
  split
  · exact leaf_fits optionStatement_gives rfl
  · exact skipStatement_fits _ _
  · exact leaf_fits enumValue_gives rfl

theorem serviceEntryAt_fits (k : TokenKind) : Gives (serviceEntryAt k) (Entry.Fits .service) := by
  unfold serviceEntryAt
  split
  · exact leaf_fits rpc_gives rfl
  · exact leaf_fits optionStatement_gives rfl
  · exact gives_refuse _

theorem entry_fits (r : Region) : Gives (entry r) (Entry.Fits r) := by
  unfold entry
  refine .bind fun k => ?_
  cases k with
  | none => exact .pure trivial
  | some k =>
    unfold entryFrom
    refine gives_ite (fun _ => .pure trivial) fun _ => ?_
    unfold entryAt lonelySemicolon
    refine gives_ite (fun _ => .bind fun _ => .pure trivial) fun _ => ?_
    cases r with
    | message => exact messageEntryAt_fits k
    | oneof => exact oneofEntryAt_fits k
    | extend => exact fieldOrGroup_fits rfl rfl
    | enum => exact enumEntryAt_fits k
    | service => exact serviceEntryAt_fits k

end Grammar

/-! ### Bodies -/

/-- Every block in a node contains what its region admits. -/
inductive Node.WellNested : Node → Prop
  | leaf (l : Leaf) : WellNested (.leaf l)
  | block {header : Header} {body : List Node} :
      (∀ n ∈ body, (Grammar.regionOf header).admits n.kind = true) →
      (∀ n ∈ body, n.WellNested) → WellNested (.block header body)

/-- All nodes are of kinds that are admitted, and their blocks contain what these admit. -/
def Nests (admits : Kind → Bool) (nodes : List Node) : Prop :=
  ∀ n ∈ nodes, admits n.kind = true ∧ n.WellNested

/-- A document consists of what files can contain, and its blocks of what these can. -/
def Document.WellNested (d : Document) : Prop := Nests Grammar.admitsStatement d.statements

section Nests

variable {admits : Kind → Bool} {nodes : List Node}

theorem nests_nil : Nests admits [] := fun _ hn => absurd hn List.not_mem_nil

theorem Nests.leaf {l : Leaf} (admitted : admits l.kind = true) (others : Nests admits nodes) :
    Nests admits (.leaf l :: nodes) :=
  List.forall_mem_cons.mpr ⟨⟨admitted, .leaf l⟩, others⟩

theorem Nests.block {header : Header} {inner : List Node} (admitted : admits header.kind = true)
    (inside : Nests (Grammar.regionOf header).admits inner) (others : Nests admits nodes) :
    Nests admits (.block header inner :: nodes) :=
  List.forall_mem_cons.mpr
    ⟨⟨admitted, .block (fun n hn => (inside n hn).1) fun n hn => (inside n hn).2⟩, others⟩

theorem Nests.append {others : List Node} (h : Nests admits nodes) (h' : Nests admits others) :
    Nests admits (nodes ++ others) :=
  List.forall_mem_append.mpr ⟨h, h'⟩

end Nests

namespace Grammar

/-- The members of a oneof are members of its message. -/
theorem nests_markOneof {name : String} {nodes : List Node} (h : Nests Region.oneof.admits nodes) :
    Nests Region.message.admits (nodes.map (markOneof name)) := by
  intro n hn
  obtain ⟨m, hm, rfl⟩ := List.mem_map.mp hn
  obtain ⟨admitted, nested⟩ := h m hm
  cases nested with
  | leaf l =>
    cases l with
    | field f => exact ⟨rfl, .leaf _⟩
    | _ => exact absurd admitted (by simp [Region.admits, Node.kind, Leaf.kind])
  | @block header body admitted' nested =>
    refine ⟨?_, .block admitted' nested⟩
    cases header with
    | group _ _ _ => rfl
    | _ => exact absurd admitted (by simp [Region.admits, Node.kind, Header.kind])

theorem map_eq_error {α β ε : Type} {f : α → β} {x : Except ε α} {e : ε} :
    x.map f = .error e ↔ x = .error e := by
  cases x <;> simp [Except.map]

theorem map_eq_ok {α β ε : Type} {f : α → β} {x : Except ε α} {b : β} :
    x.map f = .ok b ↔ ∃ a, x = .ok a ∧ f a = b := by
  cases x <;> simp [Except.map]

/-- A body that is read contains what its region admits, and so does every body in it. -/
theorem bodyOf_nests {frames : Nat} {r : Region} {ts : List Token} {body : Body ts}
    (h : bodyOf frames r ts = .ok body) : Nests r.admits body.nodes := by
  fun_induction bodyOf frames r ts with
  | case1 => cases h
  | case2 =>
    cases h
    exact nests_nil
  | case3 frames r ts rest next lt ih =>
    obtain ⟨others, read, rfl⟩ := map_eq_ok.mp h
    exact ih read
  | case4 frames r ts l rest next lt ih =>
    obtain ⟨others, read, rfl⟩ := map_eq_ok.mp h
    exact .leaf (entry_fits r next) (ih read)
  | case5 | case6 | case7 => cases h
  | case8 frames r ts header rest next lt room inner inside le t after closing shorter ihInner ih =>
    obtain ⟨others, read, rfl⟩ := map_eq_ok.mp h
    exact .block (entry_fits r next) (ihInner inside) (ih read)
  | case9 | case10 | case11 => cases h
  | case12 frames r ts name rest next lt room inner inside le t after closing shorter ihInner ih =>
    obtain ⟨others, read, rfl⟩ := map_eq_ok.mp h
    obtain rfl : r = .message := entry_fits r next
    exact .append (nests_markOneof (ihInner inside)) (ih read)

/-! ### Files -/

/-- Whether a statement is a declaration that a file can contain. -/
def Statement.Fits : Statement → Prop
  | .blank => True
  | .dialect _ => True
  | .leaf l => admitsStatement l.kind = true
  | .header h => admitsStatement h.kind = true

open Reader in
theorem statementAt_fits (hasPackage : Bool) (t : Token) :
    Gives (statementAt hasPackage t) Statement.Fits := by
  unfold statementAt
  split
  · exact .map (gives_of_forall fun _ => trivial)
  · exact .map (gives_of_forall fun _ => trivial)
  · exact gives_ite (fun _ => gives_refuse _) fun _ => .map fun _ _ _ gives =>
      (congrArg admitsStatement (packageStatement_gives gives)).trans rfl
  · exact .map fun _ _ _ gives =>
      (congrArg admitsStatement (importStatement_gives gives)).trans rfl
  · exact .map fun _ _ _ gives =>
      (congrArg admitsStatement (optionStatement_gives gives)).trans rfl
  · exact .map (gives_of_forall fun _ => rfl)
  · exact .map (gives_of_forall fun _ => rfl)
  · exact .map fun _ _ _ gives =>
      (congrArg admitsStatement (extendHeader_gives gives)).trans rfl
  · exact .map (gives_of_forall fun _ => rfl)
  · exact gives_ite (fun _ => .map (gives_of_forall fun _ => trivial)) fun _ => gives_refuse _

theorem contents_nests {frames : Nat} {hasPackage : Bool} {ts : List Token} {c : Contents}
    (h : contents frames hasPackage ts = .ok c) : Nests admitsStatement c.nodes := by
  fun_induction contents frames hasPackage ts generalizing c with
  | case1 =>
    cases h
    exact nests_nil
  | case2 => cases h
  | case3 hasPackage t more rest next lt ih => exact ih h
  | case4 hasPackage t more name rest next lt ih =>
    obtain ⟨others, read, rfl⟩ := map_eq_ok.mp h
    have nested := ih read
    exact nested
  | case5 hasPackage t more l rest next lt ih =>
    obtain ⟨others, read, rfl⟩ := map_eq_ok.mp h
    exact .leaf (statementAt_fits hasPackage t next) (ih read)
  | case6 | case7 | case8 => cases h
  | case9 hasPackage t more header rest next lt room inner inside le s after closing shorter ih =>
    obtain ⟨others, read, rfl⟩ := map_eq_ok.mp h
    exact .block (statementAt_fits hasPackage t next) (bodyOf_nests inside) (ih read)

end Grammar

/-- A text spells a document if its tokens are read as what stands in the document. -/
theorem Document.parse_eq_ok_iff {frames : Nat} {uri text : String} {d : Document} :
    Document.parse frames uri text = .ok d ↔
      ∃ c, Grammar.contents frames false (tokenize text).tokens = .ok c ∧
        ⟨uri, c.dialects.getLast?, c.nodes⟩ = d := by
  unfold Document.parse Document.ofTokens
  rcases Grammar.contents frames false (tokenize text).tokens with (_ | _) | _ <;> simp

/-- Every document that a text spells keeps to the grammar's nesting. -/
theorem Document.wellNested_of_parse {frames : Nat} {uri text : String} {d : Document}
    (h : Document.parse frames uri text = .ok d) : d.WellNested := by
  obtain ⟨c, read, rfl⟩ := Document.parse_eq_ok_iff.mp h
  exact Grammar.contents_nests read

end ProtoNames
