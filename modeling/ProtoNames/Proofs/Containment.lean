import ProtoNames.Proofs.Segments
import ProtoNames.Proofs.Stages

/-!
The schema that every document keeps to.

`Source.KeepsSchema` collects what naming and scoping rely on: what can stand directly inside
what, that there is one package at most, how imports are qualified, which fields belong to a
oneof, and that names are words, which can be joined by dots and told apart again.

* `admits_iff` and `admitsStatement_iff`: what can stand in what (`Kind.contents`) is what the
  grammar's regions admit.
* `readAt_of_fileRead`: each statement of a file was read at a stage without open blocks, and
  imports were spelled as the grammar says (`spelledBy_of_statementAt`).
* `fieldsRead_of_bodyRead`: each field was read at a stage with the blocks around it open, and
  the innermost of these alone decides on its tag.
* `Document.keepsSchema_of_parse`: so every document that a text spells keeps to the schema.
-/

namespace ProtoNames

/-! ### What can stand in what -/

/-- The kinds of declarations that can stand directly inside an element of a kind. -/
def Kind.contents : Kind → List Kind
  | .document => [.package, .importing, .option, .message, .enum, .extend, .service]
  | .message => [.field, .group, .message, .enum, .extend, .option]
  | .group => [.field, .group, .message, .enum, .extend, .option]
  | .extend => [.field, .group]
  | .enum => [.enumValue, .option]
  | .service => [.rpc, .option]
  | _ => []

/-- The kinds of declarations that have a name of their own. -/
def Kind.named : List Kind := [.message, .group, .enum, .enumValue, .field, .service, .rpc]

/-- Packages, imports and services stand in documents only, methods in services and enum values
in enums. -/
theorem Kind.container_of_contents {outer inner : Kind} (h : inner ∈ outer.contents) :
    (inner = .package ∨ inner = .importing ∨ inner = .service → outer = .document) ∧
      (inner = .rpc → outer = .service) ∧ (inner = .enumValue → outer = .enum) := by
  cases outer <;> cases inner <;> simp_all [Kind.contents]

/-- The word that qualifies an import, if any. -/
def ImportMode.qualifier? : ImportMode → Option Keyword
  | .plain => none
  | .public => some .public
  | .weak => some .weak

/-- Some tokens are an import statement: its keyword, one qualifier or none, the path and a
semicolon. -/
structure Import.SpelledBy (i : Import) (ts : List Token) : Prop where
  kinds : ts.map (·.kind) =
    .keyword .import :: (i.mode.qualifier?.map TokenKind.keyword).toList ++
      [.string, .symbol .semicolon]
  path : ∃ t ∈ ts, t.kind = .string ∧ t.text = i.path

namespace Grammar

open Reader

theorem admits_iff {header : Header} {k : Kind} :
    (regionOf header).admits k = true ↔ k ∈ header.kind.contents := by
  cases header <;> exact List.contains_iff_mem

theorem admitsStatement_iff {k : Kind} :
    admitsStatement k = true ↔ k ∈ Kind.document.contents :=
  List.contains_iff_mem

/-! ### Imports -/

variable {ts rest more mid inside : List Token} {t : Token} {hasPackage : Bool} {text : String}

/-- At most one word is taken. -/
theorem importMode_eq_ok {mode : ImportMode} (h : importMode ts = .ok (mode, rest)) :
    ∃ taken, ts = taken ++ rest ∧
      taken.map (·.kind) = (mode.qualifier?.map TokenKind.keyword).toList := by
  obtain ⟨isPublic, mid, first, onwards⟩ := bind_eq_ok.mp h
  rcases accept_eq_ok first with ⟨rfl, t, rfl, kind⟩ | ⟨rfl, rfl⟩
  · cases onwards
    exact ⟨[t], rfl, congrArg ([·]) kind⟩
  · obtain ⟨isWeak, mid, second, last⟩ := bind_eq_ok.mp onwards
    rcases accept_eq_ok second with ⟨rfl, t, rfl, kind⟩ | ⟨rfl, rfl⟩
    · cases last
      exact ⟨[t], rfl, congrArg ([·]) kind⟩
    · cases last
      exact ⟨[], rfl, rfl⟩

theorem spelledBy_of_importStatement {l : Leaf} (h : importStatement ts = .ok (l, rest)) :
    ∃ i taken, l = .importing i ∧ ts = taken ++ rest ∧ i.SpelledBy taken := by
  obtain ⟨word, afterWord, first, ran⟩ := bind_eq_ok.mp h
  obtain ⟨mode, afterMode, second, ran⟩ := bind_eq_ok.mp ran
  obtain ⟨path, afterPath, third, ran⟩ := bind_eq_ok.mp ran
  obtain ⟨semicolon, afterAll, fourth, ran⟩ := bind_eq_ok.mp ran
  cases ran
  obtain ⟨rfl, isImport⟩ := expect_eq_ok first
  obtain ⟨taken, rfl, kinds⟩ := importMode_eq_ok second
  obtain ⟨rfl, isString⟩ := expect_eq_ok third
  obtain ⟨rfl, isSemicolon⟩ := expect_eq_ok fourth
  refine ⟨_, word :: (taken ++ [path, semicolon]), rfl, by simp, ?_, path, by simp, isString, rfl⟩
  simp [kinds, isImport, isString, isSemicolon]

/-- Which statements are leaves. A package statement is not read twice. -/
theorem leaf_of_statementAt {l : Leaf} (h : statementAt hasPackage t ts = .ok (.leaf l, rest)) :
    hasPackage = false ∧ packageStatement ts = .ok (l, rest) ∨
      importStatement ts = .ok (l, rest) ∨ optionStatement ts = .ok (l, rest) := by
  unfold statementAt at h
  generalize t.kind = k at h
  split at h
  case h_3 =>
    cases hasPackage with
    | true => cases h
    | false =>
      obtain ⟨_, ran, same⟩ := mapped_eq_ok.mp h
      cases same
      exact .inl ⟨rfl, ran⟩
  case h_4 =>
    obtain ⟨_, ran, same⟩ := mapped_eq_ok.mp h
    cases same
    exact .inr (.inl ran)
  case h_5 =>
    obtain ⟨_, ran, same⟩ := mapped_eq_ok.mp h
    cases same
    exact .inr (.inr ran)
  case h_10 =>
    split at h
    · obtain ⟨_, _, same⟩ := mapped_eq_ok.mp h
      cases same
    · cases h
  all_goals
    obtain ⟨_, _, same⟩ := mapped_eq_ok.mp h
    cases same

theorem spelledBy_of_statementAt {i : Import}
    (h : statementAt hasPackage t ts = .ok (.leaf (.importing i), rest)) :
    ∃ taken, ts = taken ++ rest ∧ i.SpelledBy taken := by
  rcases leaf_of_statementAt h with ⟨-, ran⟩ | ran | ran
  · cases packageStatement_gives ran
  · obtain ⟨_, taken, same, whole, spells⟩ := spelledBy_of_importStatement ran
    cases same
    exact ⟨taken, whole, spells⟩
  · cases optionStatement_gives ran

/-! ### Packages -/

theorem isPackage_iff {l : Leaf} : isPackage l = true ↔ l.kind = .package := by
  cases l <;> simp [isPackage, Leaf.kind]

/-- Behind a package statement no other one is read. -/
theorem kind_ne_package_of_statementAt {l : Leaf}
    (h : statementAt true t ts = .ok (.leaf l, rest)) : l.kind ≠ .package := by
  rcases leaf_of_statementAt h with ⟨first, -⟩ | ran | ran
  · cases first
  · simp [importStatement_gives ran]
  · simp [optionStatement_gives ran]

/-- A file has one package at most, and none if it had one before. -/
theorem countP_package_le {needed : Nat} {dialects : List String} {nodes : List Node}
    {passed : List (List Token)} (h : FileRead needed hasPackage ts dialects nodes passed) :
    nodes.countP (·.kind == .package) ≤ if hasPackage then 0 else 1 := by
  induction h with
  | finish => simp
  | blank _ _ ih | dialect _ _ ih => exact ih
  | @leaf _ hasPackage t more mid l dialects nodes passed next _ ih =>
    by_cases package : isPackage l = true
    · cases hasPackage with
      | true => exact absurd (isPackage_iff.mp package) (kind_ne_package_of_statementAt next)
      | false => simpa [List.countP_cons, Node.kind, isPackage_iff.mp package, package] using ih
    · have other : l.kind ≠ .package := fun same => package (isPackage_iff.mpr same)
      simpa [List.countP_cons, Node.kind, other, package] using ih
  | @block _ _ hasPackage t s more mid inside after header inner nodes dialects passed passed' next
      _ _ _ ih =>
    have other : header.kind ≠ .package := by cases header <;> simp [Header.kind]
    simpa [List.countP_cons, Node.kind, other] using ih

/-! ### Statements -/

/-- A statement was read while a text was: at a stage without open blocks. -/
def StatementRead (text : String) (s : Statement) : Prop :=
  ∃ n hasPackage t more rest, Stage.Runs (.start text) n ⟨hasPackage, [], t :: more⟩ ∧
    statementAt hasPackage t (t :: more) = .ok (s, rest)

/-- The body of a block was read while a text was, with some blocks open. -/
def BodyOpened (text : String) (b : Block) (outer : List Block) (nodes : List Node) : Prop :=
  ∃ n hasPackage ts needed passed rest,
    Stage.Runs (.start text) n ⟨hasPackage, b :: outer, ts⟩ ∧
    BodyRead needed b.region ts nodes passed rest

/-- How a node of a file was read. -/
def ReadAt (text : String) : Node → Prop
  | .leaf l => StatementRead text (.leaf l)
  | .block header body => BodyOpened text (.declaration header) [] body

theorem readAt_of_fileRead {n needed : Nat} {dialects : List String} {nodes : List Node}
    {passed : List (List Token)} (run : Stage.Runs (.start text) n ⟨hasPackage, [], ts⟩)
    (h : FileRead needed hasPackage ts dialects nodes passed) : ∀ m ∈ nodes, ReadAt text m := by
  induction h generalizing n with
  | finish => simp
  | blank next _ ih | dialect next _ ih => exact ih (run.round (Stage.next_statement next))
  | leaf next _ ih =>
    have here : StatementRead text (.leaf _) := ⟨_, _, _, _, _, run, next⟩
    exact List.forall_mem_cons.mpr ⟨here, ih (run.round (Stage.next_statement next))⟩
  | block next within closing _ ih =>
    have opens := run.round (Stage.next_statement next)
    obtain ⟨k, through⟩ := Stage.runs_of_block _ (.declaration _) within (Nat.le_refl _) closing
    have here : BodyOpened text (.declaration _) [] _ := ⟨_, _, _, _, _, _, opens, within⟩
    exact List.forall_mem_cons.mpr ⟨here, ih (opens.trans through.runs)⟩

/-! ### Fields -/

/-- The declaration that a block belongs to, if it is no oneof. -/
def Block.header? : Block → Option Header
  | .declaration h => some h
  | .oneof _ => none

/-- The name of a oneof. -/
def Block.oneof? : Block → Option String
  | .declaration _ => none
  | .oneof name => some name

/-- What becomes of a node that stands directly in a block. -/
def Block.mark : Block → Node → Node
  | .declaration _, n => n
  | .oneof name, n => markOneof name n

/-- A field was read while a text was, with the declarations of `path` open around it, innermost
first. It had no tag when it was read, and has that of the innermost block. -/
def FieldRead (text : String) (path : List Header) (f : Field) : Prop :=
  ∃ n hasPackage b outer ts rest bare,
    Stage.Runs (.start text) n ⟨hasPackage, b :: outer, ts⟩ ∧
    entry b.region ts = .ok (.leaf (.field bare), rest) ∧
    (b :: outer).filterMap Block.header? = path ∧
    bare.oneof = none ∧ f = { bare with oneof := b.oneof? }

/-- All fields in a node were read as such, where the declarations of `path` are open around
the node. -/
inductive FieldsRead (text : String) : List Header → Node → Prop
  | leaf {path : List Header} {l : Leaf} :
      (∀ f, l = .field f → FieldRead text path f) → FieldsRead text path (.leaf l)
  | block {path : List Header} {header : Header} {body : List Node} :
      (∀ n ∈ body, FieldsRead text (header :: path) n) →
      FieldsRead text path (.block header body)

/-- A field that is read has no tag. -/
def Entry.Untagged : Entry → Prop
  | .leaf (.field f) => f.oneof = none
  | _ => True

theorem field_untagged (label : Option Label) : Gives (field label) fun f => f.oneof = none := by
  unfold field
  refine .bind fun _ => .bind fun _ => .bind fun _ => .bind fun _ => .bind fun _ => ?_
  exact .bind fun _ => .pure rfl

theorem fieldOrGroup_untagged : Gives fieldOrGroup Entry.Untagged := by
  unfold fieldOrGroup fieldOrGroupAt
  refine .bind fun label => .bind fun next => gives_ite (fun _ => ?_) fun _ => ?_
  · exact .map (gives_of_forall fun _ => trivial)
  · exact .map (field_untagged label)

theorem leaf_untagged {p : Reader Leaf} {k : Kind} (h : Gives p fun l => l.kind = k)
    (other : k ≠ .field) : Gives (Entry.leaf <$> p) Entry.Untagged := by
  refine .map fun ts l rest ran => ?_
  have kind := h ran
  cases l with
  | field f => exact absurd kind.symm other
  | _ => trivial

theorem skipStatement_untagged (k : Keyword) : Gives (skipStatement k) Entry.Untagged := by
  unfold skipStatement
  exact .bind fun _ => .bind fun _ => .pure trivial

theorem messageEntryAt_untagged (k : TokenKind) : Gives (messageEntryAt k) Entry.Untagged := by
  unfold messageEntryAt
  split
  · exact .map (gives_of_forall fun _ => trivial)
  · exact .map (gives_of_forall fun _ => trivial)
  · exact .map (gives_of_forall fun _ => trivial)
  · exact leaf_untagged optionStatement_gives (by decide)
  · exact .map (gives_of_forall fun _ => trivial)
  · exact skipStatement_untagged _
  · exact skipStatement_untagged _
  · exact fieldOrGroup_untagged

theorem oneofEntryAt_untagged (k : TokenKind) : Gives (oneofEntryAt k) Entry.Untagged := by
  unfold oneofEntryAt
  split
  · exact skipStatement_untagged _
  · exact fieldOrGroup_untagged

theorem enumEntryAt_untagged (k : TokenKind) : Gives (enumEntryAt k) Entry.Untagged := by
  unfold enumEntryAt
  split
  · exact leaf_untagged optionStatement_gives (by decide)
  · exact skipStatement_untagged _
  · exact leaf_untagged enumValue_gives (by decide)

theorem serviceEntryAt_untagged (k : TokenKind) : Gives (serviceEntryAt k) Entry.Untagged := by
  unfold serviceEntryAt
  split
  · exact leaf_untagged rpc_gives (by decide)
  · exact leaf_untagged optionStatement_gives (by decide)
  · exact gives_refuse _

theorem entry_untagged (r : Region) : Gives (entry r) Entry.Untagged := by
  unfold entry
  refine .bind fun k => ?_
  cases k with
  | none => exact .pure trivial
  | some k =>
    unfold entryFrom entryAt lonelySemicolon
    refine gives_ite (fun _ => .pure trivial) fun _ => ?_
    refine gives_ite (fun _ => .bind fun _ => .pure trivial) fun _ => ?_
    cases r with
    | message => exact messageEntryAt_untagged k
    | oneof => exact oneofEntryAt_untagged k
    | extend => exact fieldOrGroup_untagged
    | enum => exact enumEntryAt_untagged k
    | service => exact serviceEntryAt_untagged k

@[simp] theorem Block.mark_block (b : Block) (header : Header) (body : List Node) :
    b.mark (.block header body) = .block header body := by
  cases b <;> rfl

/-- Only fields get a tag. -/
theorem Block.mark_leaf (b : Block) {l : Leaf} (untagged : (Entry.leaf l).Untagged) :
    (∃ f, f.oneof = none ∧ l = .field f ∧
        b.mark (.leaf l) = .leaf (.field { f with oneof := b.oneof? })) ∨
      (∀ f, l ≠ .field f) ∧ b.mark (.leaf l) = .leaf l := by
  cases l with
  | field f =>
    refine .inl ⟨f, untagged, rfl, ?_⟩
    cases b with
    | declaration h =>
      have untagged : f.oneof = none := untagged
      simp [mark, oneof?, ← untagged]
    | oneof name => rfl
  | _ => exact .inr ⟨by simp, by cases b <;> rfl⟩

/-- Oneofs stand in messages and groups, not in each other. -/
theorem Block.mark_of_oneof {b : Block} {ts rest : List Token} {name : String}
    (h : entry b.region ts = .ok (.oneof name, rest)) (n : Node) : b.mark n = n := by
  have inMessage : b.region = .message := entry_fits b.region h
  cases b with
  | declaration h => rfl
  | oneof name => cases inMessage

theorem fieldsRead_of_bodyRead {n needed : Nat} {b : Block} {outer : List Block}
    {nodes : List Node} {passed : List (List Token)}
    (run : Stage.Runs (.start text) n ⟨hasPackage, b :: outer, ts⟩)
    (h : BodyRead needed b.region ts nodes passed rest) :
    ∀ m ∈ nodes, FieldsRead text ((b :: outer).filterMap Block.header?) (b.mark m) := by
  generalize at_ : b.region = region at h
  induction h generalizing n b outer with
  | close => simp
  | skip next _ _ ih =>
    subst at_
    exact ih (run.round (Stage.next_entry next (by simp))) rfl
  | @leaf _ r ts mid rest l nodes passed next _ ih =>
    subst at_
    have others := ih (run.round (Stage.next_entry next (by simp))) rfl
    refine List.forall_mem_cons.mpr ⟨?_, others⟩
    rcases b.mark_leaf (entry_untagged _ next) with ⟨f, untagged, rfl, same⟩ | ⟨other, same⟩
    · rw [same]
      refine .leaf fun f' read => ?_
      cases read
      exact ⟨_, _, _, _, _, _, _, run, next, rfl, untagged, rfl⟩
    · rw [same]
      exact .leaf fun f read => absurd read (other f)
  | @block _ _ r ts mid inside after rest header t inner nodes passed passed' next within closing _
      ihInner ih =>
    subst at_
    have opens := run.round (Stage.next_entry next (by simp))
    obtain ⟨k, through⟩ :=
      Stage.runs_of_block _ (.declaration header) within (Nat.le_refl _) closing
    have others := ih (opens.trans through.runs) rfl
    refine List.forall_mem_cons.mpr ⟨?_, others⟩
    rw [Block.mark_block]
    exact .block (ihInner (b := .declaration header) opens rfl)
  | @oneof _ _ r ts mid inside after rest name t inner nodes passed passed' next within closing _
      ihInner ih =>
    subst at_
    have opens := run.round (Stage.next_entry next (by simp))
    obtain ⟨k, through⟩ := Stage.runs_of_block _ (.oneof name) within (Nat.le_refl _) closing
    have others := ih (opens.trans through.runs) rfl
    refine List.forall_mem_append.mpr ⟨List.forall_mem_map.mpr fun m member => ?_, others⟩
    rw [Block.mark_of_oneof next]
    exact ihInner (b := .oneof name) opens rfl m member

/-- All fields of a file stand in blocks. -/
theorem fieldsRead_of_readAt {m : Node} (h : ReadAt text m) : FieldsRead text [] m := by
  cases m with
  | leaf l =>
    obtain ⟨n, hasPackage, t, more, rest, -, read⟩ := h
    refine .leaf fun f same => ?_
    have admitted := statementAt_fits hasPackage t read
    subst same
    simp [Statement.Fits, admitsStatement, Leaf.kind] at admitted
  | block header body =>
    obtain ⟨n, hasPackage, ts, needed, passed, rest, run, read⟩ := h
    exact .block (fieldsRead_of_bodyRead (b := .declaration header) run read)

end Grammar

/-! ### Documents -/

/-- What stands before the braces of a declaration with a body. -/
def Node.header? : Node → Option Header
  | .leaf _ => none
  | .block header _ => some header

/-- The declarations with a body that an element is or stands in, innermost first. -/
def Element.headers (e : Element) : List Header := e.nodes.reverse.filterMap Node.header?

/-- What naming and scoping rely on in a document that was read from a text. -/
structure Source.KeepsSchema (s : Source) (text : String) : Prop where
  onePackage : s.document.statements.countP (·.kind == .package) ≤ 1
  /-- What stands directly inside an element is of a kind that this can contain. -/
  contents : ∀ e, (Element.ofSource s).Within e → ∀ c ∈ e.children, c.kind ∈ e.kind.contents
  /-- Some kinds stand directly inside one kind only. -/
  container : ∀ e, (Element.ofSource s).Within e → ∀ c ∈ e.children,
    (c.kind = .package ∨ c.kind = .importing ∨ c.kind = .service → e.kind = .document) ∧
      (c.kind = .rpc → e.kind = .service) ∧ (c.kind = .enumValue → e.kind = .enum)
  /-- Imports are read at the top of the file, and have one qualifier at most. -/
  imports : ∀ i ∈ s.document.imports, ∃ n hasPackage taken rest,
    Grammar.Stage.Runs (.start text) n ⟨hasPackage, [], taken ++ rest⟩ ∧ i.SpelledBy taken
  /-- A field has the tag of the oneof in which it was read, or none outside of oneofs. -/
  fields : ∀ e, (Element.ofSource s).Within e → ∀ f, .leaf (.field f) ∈ e.body →
    Grammar.FieldRead text e.headers f
  names : ∀ e, (Element.ofSource s).Within e → e.kind ∈ Kind.named →
    ∃ name, e.node?.bind Node.name? = some name ∧ IsWord name ∧ IsSegment name
  /-- Cutting undoes joining, and joining undoes cutting. -/
  segments : ∀ e, (Element.ofSource s).Within e →
    ProtoNames.segments e.fullName = e.qualifiedName.segments ∧
      joinDots (ProtoNames.segments e.fullName) = e.fullName

variable {s : Source} {e : Element} {text : String}

theorem Element.headers_down {n : Node} {i : Nat} :
    (e.down [(.child i, n)]).headers = n.header?.toList ++ e.headers := by
  simp only [headers, nodes_down, List.map_singleton, List.reverse_append, List.reverse_singleton,
    List.filterMap_append]
  cases found : n.header? <;> simp [found]

theorem Element.exists_name (h : e.kind ∈ Kind.named) :
    ∃ n, e.node? = some n ∧ ∃ name, n.name? = some name := by
  unfold Element.kind at h
  cases node : e.node? with
  | none => simp [node, Kind.named] at h
  | some n =>
    rw [node] at h
    refine ⟨n, rfl, ?_⟩
    rcases n with l | ⟨header, body⟩
    · cases l <;> simp_all [Kind.named, Node.kind, Leaf.kind, Node.name?]
    · cases header <;> simp_all [Kind.named, Node.kind, Header.kind, Node.name?]

/-- What stands in an element is of a kind that it can contain. -/
theorem Element.Within.contents (nested : s.document.WellNested)
    (h : (Element.ofSource s).Within e) :
    ∀ n ∈ e.body, n.kind ∈ e.kind.contents ∧ n.WellNested := by
  refine h.forall_mem_body (P := fun e n => n.kind ∈ e.kind.contents ∧ n.WellNested) ?_ ?_
  · intro n member
    obtain ⟨admitted, nested⟩ := nested n member
    exact ⟨Grammar.admitsStatement_iff.mp admitted, nested⟩
  · rintro e i n ⟨-, nested⟩ m member
    rw [Element.down_singleton_kind]
    cases nested with
    | leaf l => exact absurd member List.not_mem_nil
    | block admitted nested => exact ⟨Grammar.admits_iff.mp (admitted m member), nested m member⟩

/-- The fields in an element were read with the element and its containers open. -/
theorem Element.Within.fieldsRead
    (read : ∀ n ∈ s.document.statements, Grammar.FieldsRead text [] n)
    (h : (Element.ofSource s).Within e) : ∀ n ∈ e.body, Grammar.FieldsRead text e.headers n := by
  refine h.forall_mem_body (P := fun e n => Grammar.FieldsRead text e.headers n) read ?_
  intro e i n here m member
  rw [Element.headers_down]
  cases here with
  | leaf _ => exact absurd member List.not_mem_nil
  | block inside => exact inside m member

/-- Every document that a text spells keeps to the schema. -/
theorem Document.keepsSchema_of_parse {frames : Nat} {uri text : String} {s : Source}
    (h : Document.parse frames uri text = .ok s.document) : s.KeepsSchema text := by
  have nested := Document.wellNested_of_parse h
  have named := Document.namedByWords_of_parse h
  obtain ⟨c, read, document⟩ := Document.parse_eq_ok_iff.mp h
  have nodes : s.document.statements = c.nodes := document ▸ rfl
  obtain ⟨_, _, passed, statements⟩ := Grammar.fileRead_of_ok read
  have start : Grammar.Stage.Runs (.start text) 0 (.start text) := .none
  have readAt := Grammar.readAt_of_fileRead start statements
  rw [← nodes] at statements readAt
  have contents {outer inner : Element} (h : (Element.ofSource s).Within outer)
      (inside : inner ∈ outer.children) : inner.kind ∈ outer.kind.contents := by
    obtain ⟨i, n, stands, rfl⟩ := Element.mem_children.mp inside
    rw [Element.down_singleton_kind]
    exact (h.contents nested n (List.mem_of_getElem? stands)).1
  constructor
  case onePackage => exact Grammar.countP_package_le statements
  case contents => exact fun e h c inside => contents h inside
  case container => exact fun e h c inside => Kind.container_of_contents (contents h inside)
  case imports =>
    intro i member
    obtain ⟨_ | ⟨header, body⟩, inside, same⟩ := List.mem_filterMap.mp member
    case block => cases same
    case leaf l =>
      cases l with
      | importing i' =>
        cases same
        obtain ⟨n, hasPackage, t, more, rest, run, statement⟩ := readAt _ inside
        obtain ⟨taken, whole, spelled⟩ := Grammar.spelledBy_of_statementAt statement
        exact ⟨n, hasPackage, taken, rest, whole ▸ run, spelled⟩
      | _ => cases same
  case fields =>
    intro e h f member
    have fieldsRead := h.fieldsRead fun n inside => Grammar.fieldsRead_of_readAt (readAt n inside)
    cases fieldsRead _ member with
    | leaf here => exact here f rfl
  case names =>
    intro e h kind
    obtain ⟨n, node, name, hasName⟩ := Element.exists_name kind
    have isWord := named.isNamedByWord h node name hasName
    exact ⟨name, Option.bind_eq_some_iff.mpr ⟨n, node, hasName⟩, isWord, isWord.isSegment⟩
  case segments =>
    intro e h
    have cut : ProtoNames.segments e.fullName = e.qualifiedName.segments :=
      segments_joinDots (h.areSegments named.namesAreSegments)
    exact ⟨cut, congrArg joinDots cut⟩

/-- A file with a package, an import, a oneof and blocks of several kinds. -/
def shopText : String :=
  "package a.b; import public \"x.proto\"; message M \x7b oneof o \x7b int32 f = 1; " ++
    "group G = 2 \x7b int32 g = 1; \x7d \x7d enum E \x7b A = 0; \x7d \x7d " ++
    "service S \x7b rpc R (M) returns (M); \x7d"

theorem Document.keepsSchema_of_parse_shop :
    ∃ d, Document.parse 1000 "shop.proto" shopText = .ok d ∧
      Source.KeepsSchema ⟨.reading 0, d⟩ shopText := by
  have parsed : ∃ d, Document.parse 1000 "shop.proto" shopText = .ok d := by
    exists ⟨"shop.proto", none,
      [.leaf (.package "a.b"), .leaf (.importing ⟨"x.proto", .public⟩),
        .block (.message "M")
          [.leaf (.field ⟨"int32", "f", 1, none, none, some "o", []⟩),
            .block (.group "G" 2 none) [.leaf (.field ⟨"int32", "g", 1, none, none, none, []⟩)],
            .block (.enum "E") [.leaf (.enumValue "A" 0)]],
        .block (.service "S") [.leaf (.rpc ⟨"R", "M", "M", false, false⟩)]]⟩
    decide +kernel
  obtain ⟨d, parsed⟩ := parsed
  exact ⟨d, parsed, Document.keepsSchema_of_parse parsed⟩

end ProtoNames
