import ProtoNames.Proofs.MapEntries
import ProtoNames.Schema.Links

/-!
What the document of a file descriptor shows of it.

A document has no map entries: the fields that use them show their key and value types
instead. Whatever is nested in an entry is left out with it.

* `pick_messages`, `pick_messagesEnums`: the walk through a document meets its messages and enums
  in the order of the descriptor, each with the names that lead to it.
* `FileDescriptor.shownIn_of_wellNamed`: so the document shows each message and enum that is no
  map entry nor nested in one, with its full name and all of its values and fields. No field
  has the type of an entry.
-/

namespace ProtoNames

/-! ### What is shown -/

mutual

/-- The enums of a message and of what is nested in it as far as `keep` admits it, each with the
names that lead to it. Those of nested messages come first. -/
def MessageDescriptor.listedEnums (keep : MessageDescriptor → Bool) (outer : List String) :
    MessageDescriptor → List (List String × EnumDescriptor)
  | .mk name _ messages enums _ =>
    listedEnumsAll keep (outer ++ [name]) messages ++
      enums.map fun e => (outer ++ [name, e.name], e)

/-- The enums of messages and of what is nested in them. -/
def listedEnumsAll (keep : MessageDescriptor → Bool) (outer : List String) :
    List MessageDescriptor → List (List String × EnumDescriptor)
  | [] => []
  | m :: rest => (if keep m then m.listedEnums keep outer else []) ++ listedEnumsAll keep outer rest

end

/-- The nodes and names of the elements of a kind in a list. -/
def pick (k : Kind) (es : List Element) : List (List String × Option Node) :=
  (es.filter (·.kind == k)).map fun e => (e.qualifiedName.relative, e.node?)

/-- The names that an element and its containers give to what stands inside it. -/
def Element.namesInside (e : Element) : List String := e.nodes.filterMap Node.containerName?

namespace MessageDescriptor

/-- Whether a message is a type of its own. -/
def isShown (m : MessageDescriptor) : Bool := !m.isMapEntry

/-- Nothing is nested in a message. -/
def IsBare : MessageDescriptor → Prop
  | .mk _ _ messages enums _ => messages = [] ∧ enums = []

end MessageDescriptor

section Walk

variable {e : Element} {step : Step} {n : Node} {entries : MapEntries} {i : Nat} {k : Kind}

theorem mem_pick {es : List Element} {x : List String × Option Node} :
    x ∈ pick k es ↔ ∃ e ∈ es, e.kind = k ∧ e.qualifiedName.relative = x.1 ∧ e.node? = x.2 := by
  simp [pick, Prod.ext_iff, and_assoc]

theorem pick_append (es es' : List Element) : pick k (es ++ es') = pick k es ++ pick k es' := by
  simp [pick]

theorem pick_cons_of_kind {e : Element} (h : e.kind = k) (es : List Element) :
    pick k (e :: es) = (e.qualifiedName.relative, e.node?) :: pick k es := by
  simp [pick, h]

theorem pick_cons_of_ne {e : Element} (h : e.kind ≠ k) (es : List Element) :
    pick k (e :: es) = pick k es := by
  simp [pick, h]

theorem namesInside_down :
    (e.down [(step, n)]).namesInside = e.namesInside ++ n.containerName?.toList := by
  unfold Element.namesInside
  rw [Element.nodes_down, List.filterMap_append]
  cases found : n.containerName? <;> simp [found]

theorem belowBody_append (source : Source) (trail : Trail) (body body' : List Node) :
    belowBody source trail i (body ++ body') =
      belowBody source trail i body ++ belowBody source trail (i + body.length) body' := by
  induction body generalizing i with
  | nil => rfl
  | cons n rest ih =>
    simp only [List.cons_append, belowBody, ih, List.append_assoc, List.length_cons]
    rw [Nat.add_right_comm, Nat.add_assoc]

theorem pick_belowBody_cons (body : List Node) :
    pick k (belowBody e.source e.trail i (n :: body)) =
      pick k (e.down [(.child i, n)]).contents ++
        pick k (belowBody e.source e.trail (i + 1) body) := by
  rw [Element.belowBody_eq, childrenFrom, List.flatMap_cons, pick_append, Element.belowBody_eq]
  rfl

theorem Element.contents_down :
    (e.down [(step, n)]).contents = e.down [(step, n)] ::
      belowBody (e.down [(step, n)]).source (e.down [(step, n)]).trail 0 n.body := by
  simp [contents, body]

theorem pick_contents_of_kind (h : n.kind = k) :
    pick k (e.down [(step, n)]).contents = (e.namesInside ++ n.name?.toList, some n) ::
      pick k (belowBody (e.down [(step, n)]).source (e.down [(step, n)]).trail 0 n.body) := by
  rw [Element.contents_down, pick_cons_of_kind (by simpa using h), Element.down_singleton_node?]
  simp [Element.qualifiedName, relativeSegments_append_singleton, Element.namesInside]

theorem pick_contents_of_ne (h : n.kind ≠ k) :
    pick k (e.down [(step, n)]).contents =
      pick k (belowBody (e.down [(step, n)]).source (e.down [(step, n)]).trail 0 n.body) := by
  rw [Element.contents_down, pick_cons_of_ne (by simpa using h)]

/-- Below leaves there is nothing. -/
theorem pick_leaves {leaves : List Leaf} (other : ∀ l ∈ leaves, l.kind ≠ k) :
    pick k (belowBody e.source e.trail i (leaves.map .leaf)) = [] := by
  induction leaves generalizing i with
  | nil => rfl
  | cons l rest ih =>
    obtain ⟨here, others⟩ := List.forall_mem_cons.mp other
    rw [List.map_cons, pick_belowBody_cons, ih others, pick_contents_of_ne (n := .leaf l) here]
    rfl

theorem pick_belowEnum (d : EnumDescriptor) (h : k ≠ .enumValue) :
    pick k (belowBody e.source e.trail 0 d.toNode.body) = [] := by
  have leaves : d.toNode.body = (d.values.map fun v => Leaf.enumValue v.1 v.2).map .leaf := by
    simp [EnumDescriptor.toNode, Node.body, List.map_map, Function.comp_def]
  rw [leaves]
  refine pick_leaves fun l member => ?_
  obtain ⟨v, -, rfl⟩ := List.mem_map.mp member
  exact h.symm

theorem pick_enumNodes (ds : List EnumDescriptor) :
    pick .enum (belowBody e.source e.trail i (ds.map EnumDescriptor.toNode)) =
        ds.map (fun d => (e.namesInside ++ [d.name], some d.toNode)) ∧
      pick .message (belowBody e.source e.trail i (ds.map EnumDescriptor.toNode)) = [] := by
  induction ds generalizing i with
  | nil => exact ⟨rfl, rfl⟩
  | cons d rest ih =>
    obtain ⟨enums, messages⟩ := ih (i := i + 1)
    have kind : d.toNode.kind = .enum := rfl
    rw [List.map_cons, pick_belowBody_cons, pick_belowBody_cons]
    constructor
    · rw [pick_contents_of_kind kind, pick_belowEnum d (by decide), enums]
      rfl
    · rw [pick_contents_of_ne (by simp [kind]), pick_belowEnum d (by decide), messages]
      rfl

theorem pick_fields (fields : List FieldDescriptor) (h : k ≠ .field) :
    pick k (belowBody e.source e.trail i
      (fields.map fun d => .leaf (.field (d.toField entries)))) = [] := by
  have leaves : (fields.map fun d => Node.leaf (.field (d.toField entries))) =
      (fields.map fun d => Leaf.field (d.toField entries)).map .leaf := by
    simp [List.map_map, Function.comp_def]
  rw [leaves]
  refine pick_leaves fun l member => ?_
  obtain ⟨d, -, rfl⟩ := List.mem_map.mp member
  exact h.symm

theorem kind_toNode (m : MessageDescriptor) : (m.toNode entries).kind = .message := by
  cases m
  rfl

theorem name_toNode (m : MessageDescriptor) : (m.toNode entries).name? = some m.name := by
  cases m
  rfl

theorem containerName_toNode (m : MessageDescriptor) :
    (m.toNode entries).containerName? = some m.name := by
  cases m
  rfl

/-- Below a message there are the nested messages, the enums and the fields. -/
theorem pick_belowMessage {name : String} {mapEntry : Bool} {messages : List MessageDescriptor}
    {enums : List EnumDescriptor} {fields : List FieldDescriptor} (h : k ≠ .field) :
    pick k (belowBody e.source e.trail 0
        ((MessageDescriptor.mk name mapEntry messages enums fields).toNode entries).body) =
      pick k (belowBody e.source e.trail 0 (messageNodes entries messages)) ++
        pick k (belowBody e.source e.trail (messageNodes entries messages).length
          (enums.map EnumDescriptor.toNode)) := by
  rw [MessageDescriptor.toNode, Node.body, belowBody_append, belowBody_append, pick_append,
    pick_append, pick_fields fields h, List.append_nil, Nat.zero_add]

/-- Map entries are passed over. -/
theorem pick_messageNodes_cons (m : MessageDescriptor) (ms : List MessageDescriptor) :
    pick k (belowBody e.source e.trail i (messageNodes entries (m :: ms))) =
      if m.isShown then
        pick k (e.down [(.child i, m.toNode entries)]).contents ++
          pick k (belowBody e.source e.trail (i + 1) (messageNodes entries ms))
      else pick k (belowBody e.source e.trail i (messageNodes entries ms)) := by
  rw [messageNodes, MessageDescriptor.isShown]
  cases m.isMapEntry with
  | true => rfl
  | false => exact pick_belowBody_cons _

mutual

/-- A message is met before those that are nested in it. -/
theorem pick_message (m : MessageDescriptor) (e : Element) (step : Step) :
    pick .message (e.down [(step, m.toNode entries)]).contents =
      (m.listed MessageDescriptor.isShown e.namesInside).map
        fun x => (x.1, some (x.2.toNode entries)) := by
  obtain ⟨name, mapEntry, messages, enums, fields⟩ := m
  rw [pick_contents_of_kind (kind_toNode _), pick_belowMessage (by decide), pick_messages messages,
    (pick_enumNodes enums).2, List.append_nil, namesInside_down, containerName_toNode, name_toNode,
    MessageDescriptor.listed, List.map_cons]
  rfl

/-- Among messages those are met that are shown, each followed by what is nested in it. -/
theorem pick_messages (ms : List MessageDescriptor) (e : Element) (i : Nat) :
    pick .message (belowBody e.source e.trail i (messageNodes entries ms)) =
      (listedAll MessageDescriptor.isShown e.namesInside ms).map
        fun x => (x.1, some (x.2.toNode entries)) := by
  cases ms with
  | nil => rfl
  | cons m rest =>
    rw [pick_messageNodes_cons, listedAll]
    split
    · rw [pick_message m e (.child i), pick_messages rest e (i + 1), List.map_append]
    · exact pick_messages rest e i

end

mutual

/-- The enums of a message come after those of the messages that are nested in it. -/
theorem pick_messageEnums (m : MessageDescriptor) (e : Element) (step : Step) :
    pick .enum (e.down [(step, m.toNode entries)]).contents =
      (m.listedEnums MessageDescriptor.isShown e.namesInside).map
        fun x => (x.1, some x.2.toNode) := by
  have other : (m.toNode entries).kind ≠ .enum := by simp [kind_toNode]
  obtain ⟨name, mapEntry, messages, enums, fields⟩ := m
  rw [pick_contents_of_ne other, pick_belowMessage (by decide), pick_messagesEnums messages,
    (pick_enumNodes enums).1, namesInside_down, containerName_toNode, MessageDescriptor.listedEnums,
    List.map_append, List.map_map]
  simp [MessageDescriptor.name, Function.comp_def]

theorem pick_messagesEnums (ms : List MessageDescriptor) (e : Element) (i : Nat) :
    pick .enum (belowBody e.source e.trail i (messageNodes entries ms)) =
      (listedEnumsAll MessageDescriptor.isShown e.namesInside ms).map
        fun x => (x.1, some x.2.toNode) := by
  cases ms with
  | nil => rfl
  | cons m rest =>
    rw [pick_messageNodes_cons, listedEnumsAll]
    split
    · rw [pick_messageEnums m e (.child i), pick_messagesEnums rest e (i + 1),
        List.map_append]
    · exact pick_messagesEnums rest e i

end

end Walk

namespace FileDescriptor

variable {f : FileDescriptor}

/-! ### Documents -/

/-- The messages of a file that are types of its document: no map entries, nor nested in one. -/
def shownMessages (f : FileDescriptor) : List (List String × MessageDescriptor) :=
  listedAll MessageDescriptor.isShown [] f.messages

/-- The enums of a file that are not nested in map entries, each with the names that lead to
it. -/
def shownEnums (f : FileDescriptor) : List (List String × EnumDescriptor) :=
  listedEnumsAll MessageDescriptor.isShown [] f.messages ++ f.enums.map fun e => ([e.name], e)

/-- All enums of a file, each with the names that lead to it. -/
def allEnums (f : FileDescriptor) : List (List String × EnumDescriptor) :=
  listedEnumsAll (fun _ => true) [] f.messages ++ f.enums.map fun e => ([e.name], e)

/-- An element has the names that lead to a declaration of a file, and its full name. A package
that ends in a dot is written with an empty part in full names, which elements leave out. -/
structure IsNamed (f : FileDescriptor) (e : Element) (path : List String) : Prop where
  relative : e.qualifiedName.relative = path
  full : f.package.toList.getLast? ≠ some '.' → e.fullName = f.fullName path

end FileDescriptor

/-- The field that a node is. -/
def Node.field? : Node → Option Field
  | .leaf (.field f) => some f
  | _ => none

/-- The fields directly inside an element. -/
def Element.fields (e : Element) : List Field := e.body.filterMap Node.field?

/-- The elements of a kind in a document, at every depth. -/
def Source.ofKind (s : Source) (k : Kind) : List Element :=
  (Element.ofSource s).contents.filter (·.kind == k)

/-- A document shows the messages and enums of a file one by one and in order, with full names,
all fields and all values. No field has the type of a map entry, and if its type is shown, it
is written with the full name of that element. -/
structure FileDescriptor.ShownIn (f : FileDescriptor) (s : Source) : Prop where
  messages : List.Forall₂ (fun e x => f.IsNamed e x.1 ∧
      List.Forall₂ (fun y d => f.ShowsField d y) e.fields x.2.fields)
    (s.ofKind .message) f.shownMessages
  enums : List.Forall₂ (fun e x => f.IsNamed e x.1 ∧
      e.body = x.2.values.map fun v => .leaf (.enumValue v.1 v.2))
    (s.ofKind .enum) f.shownEnums
  types : ∀ e ∈ s.ofKind .message, ∀ y ∈ e.fields, ∀ type, y.type = type ∨ y.mapKey = some type →
    (∀ x ∈ f.allMessages, x.2.isMapEntry = true → type ≠ f.typeName x.1) ∧
      ∀ path ∈ f.shownMessages.map Prod.fst ++ f.shownEnums.map Prod.fst,
        type = f.typeName path → f.package.toList.getLast? ≠ some '.' →
        ∃ e' ∈ s.ofKind .message ++ s.ofKind .enum, type = "." ++ e'.fullName

theorem Document.package?_eq_none {d : Document} (h : ∀ n ∈ d.statements, n.kind ≠ .package) :
    d.package? = none := by
  refine List.findSome?_eq_none_iff.mpr fun n member => ?_
  have other := h n member
  split
  · exact absurd rfl other
  · rfl

theorem forall₂_of_map_eq {α β γ : Type} {g : α → γ} {h : β → γ} {R : α → β → Prop} {as : List α}
    {bs : List β} (same : as.map g = bs.map h) (related : ∀ a ∈ as, ∀ b, g a = h b → R a b) :
    List.Forall₂ R as bs := by
  have equal : List.Forall₂ Eq (as.map g) (bs.map h) := List.forall₂_eq_eq_eq ▸ same
  have paired : List.Forall₂ (fun a b => g a = h b) as bs :=
    List.forall₂_map_right_iff.mp (List.forall₂_map_left_iff.mp equal)
  have within := (List.forall₂_and_left as bs).mpr ⟨fun _ member => member, paired⟩
  exact within.imp fun a b ⟨member, pair⟩ => related a member b pair

namespace FileDescriptor

variable {f : FileDescriptor} {id : SourceId} {e : Element} {m : MessageDescriptor}
  {entries : MapEntries}

theorem messageNodes_eq_map {entries : MapEntries} {ms : List MessageDescriptor}
    (nested : ∀ m ∈ ms, m.isMapEntry = false) :
    messageNodes entries ms = ms.map (·.toNode entries) := by
  induction ms with
  | nil => rfl
  | cons m rest ih =>
    obtain ⟨here, others⟩ := List.forall_mem_cons.mp nested
    rw [messageNodes, here, ih others]
    rfl

/-- The package statement, if there is one, the messages, and the enums. -/
theorem statements_toDocument (nested : ∀ m ∈ f.messages, m.isMapEntry = false) :
    f.toDocument.statements =
      (if f.package.isEmpty then [] else [Leaf.package f.package]).map .leaf ++
        (messageNodes f.entries f.messages ++ f.enums.map EnumDescriptor.toNode) := by
  rw [messageNodes_eq_map nested]
  unfold toDocument
  dsimp only
  rw [List.append_assoc]
  cases f.package.isEmpty <;> rfl

theorem packagePath_toDocument : f.toDocument.packagePath = segments f.package := by
  unfold Document.packagePath
  cases empty : f.package.isEmpty with
  | false => simp [toDocument, empty, Document.package?, packageSegments]
  | true =>
    have none_ : ∀ n ∈ f.toDocument.statements, n.kind ≠ .package := by
      simp only [toDocument, empty, if_true, List.nil_append]
      refine List.forall_mem_append.mpr ⟨List.forall_mem_map.mpr fun m _ => ?_,
        List.forall_mem_map.mpr fun e _ => ?_⟩
      · simp [kind_toNode]
      · simp [EnumDescriptor.toNode, Node.kind, Header.kind]
    rw [Document.package?_eq_none none_, String.isEmpty_iff.mp empty]
    rfl

/-- The messages of the document, and its enums. -/
theorem pick_toDocument (id : SourceId) (nested : ∀ m ∈ f.messages, m.isMapEntry = false) :
    pick .message (Element.ofSource ⟨id, f.toDocument⟩).contents =
        f.shownMessages.map (fun x => (x.1, some (x.2.toNode f.entries))) ∧
      pick .enum (Element.ofSource ⟨id, f.toDocument⟩).contents =
        f.shownEnums.map (fun x => (x.1, some x.2.toNode)) := by
  have package {k : Kind} (h : k ≠ .package) : ∀ l ∈
      (if f.package.isEmpty then [] else [Leaf.package f.package]), l.kind ≠ k := by
    intro l member
    split at member
    · cases member
    · obtain rfl := List.mem_singleton.mp member
      exact h.symm
  have body : (Element.ofSource ⟨id, f.toDocument⟩).body = f.toDocument.statements := rfl
  unfold Element.contents
  rw [body, statements_toDocument nested, belowBody_append, belowBody_append]
  constructor
  · rw [pick_cons_of_ne (by simp [Element.kind, Element.node?, Element.ofSource]), pick_append,
      pick_append, pick_leaves (package (by decide)),
      pick_messages, (pick_enumNodes f.enums).2, List.append_nil]
    rfl
  · rw [pick_cons_of_ne (by simp [Element.kind, Element.node?, Element.ofSource]), pick_append,
      pick_append, pick_leaves (package (by decide)),
      pick_messagesEnums, (pick_enumNodes f.enums).1, shownEnums, List.map_append, List.map_map]
    rfl

/-- Elements have the full names of what they show, unless the package ends in a dot. -/
theorem isNamed_of_relative (named : f.WellNamed) {path : List String}
    (within : e ∈ (Element.ofSource ⟨id, f.toDocument⟩).contents)
    (relative : e.qualifiedName.relative = path) : f.IsNamed e path := by
  refine ⟨relative, fun last => ?_⟩
  have source : e.source = ⟨id, f.toDocument⟩ := (Element.mem_contents.mp within).source_eq
  rw [Element.fullName, QualifiedName.full, QualifiedName.segments, relative, fullName,
    named.package last]
  simp only [Element.qualifiedName, source, packagePath_toDocument]

theorem filterMap_field?_messageNodes (ms : List MessageDescriptor) :
    (messageNodes entries ms).filterMap Node.field? = [] := by
  induction ms with
  | nil => rfl
  | cons m rest ih =>
    have noField : (m.toNode entries).field? = none := by
      cases m
      rfl
    rw [messageNodes]
    split
    · exact ih
    · rw [List.filterMap_cons, noField]
      exact ih

theorem fields_of_node (h : e.node? = some (m.toNode entries)) :
    e.fields = m.fields.map (·.toField entries) := by
  obtain ⟨name, mapEntry, messages, enums, fields⟩ := m
  have body : e.body = messageNodes entries messages ++ enums.map EnumDescriptor.toNode ++
      fields.map fun d => .leaf (.field (d.toField entries)) := by
    simp [Element.body, h, MessageDescriptor.toNode, Node.body]
  have noFields : (enums.map EnumDescriptor.toNode).filterMap Node.field? = [] := by
    simp [List.filterMap_map, Function.comp_def, EnumDescriptor.toNode, Node.field?]
  rw [Element.fields, body, List.filterMap_append, List.filterMap_append,
    filterMap_field?_messageNodes, noFields, List.filterMap_map, MessageDescriptor.fields,
    List.nil_append, List.nil_append]
  exact congrFun List.filterMap_eq_map' fields

mutual

theorem listed_subset {keep : MessageDescriptor → Bool} (outer : List String)
    (m : MessageDescriptor) : m.listed keep outer ⊆ m.listed (fun _ => true) outer := by
  obtain ⟨name, mapEntry, messages, enums, fields⟩ := m
  unfold MessageDescriptor.listed
  exact List.cons_subset_cons _ (listedAll_subset (outer ++ [name]) messages)

/-- What is listed is listed among all. -/
theorem listedAll_subset {keep : MessageDescriptor → Bool} (outer : List String)
    (ms : List MessageDescriptor) :
    listedAll keep outer ms ⊆ listedAll (fun _ => true) outer ms := by
  cases ms with
  | nil => exact fun _ h => h
  | cons m rest =>
    unfold listedAll
    rw [if_pos rfl]
    refine List.append_subset.mpr ⟨?_, ?_⟩
    · split
      · exact List.Subset.trans (listed_subset outer m) (List.subset_append_left _ _)
      · exact List.nil_subset _
    · exact List.Subset.trans (listedAll_subset outer rest) (List.subset_append_right _ _)

end

/-- Every message of the document is one of the file. -/
theorem exists_message (nested : ∀ m ∈ f.messages, m.isMapEntry = false)
    (h : e ∈ Source.ofKind ⟨id, f.toDocument⟩ .message) :
    ∃ x ∈ f.shownMessages, e.node? = some (x.2.toNode f.entries) := by
  obtain ⟨inside, kind⟩ := List.mem_filter.mp h
  have picked : (e.qualifiedName.relative, e.node?) ∈
      pick .message (Element.ofSource ⟨id, f.toDocument⟩).contents :=
    mem_pick.mpr ⟨e, inside, beq_iff_eq.mp kind, rfl, rfl⟩
  rw [(pick_toDocument id nested).1] at picked
  obtain ⟨x, isShown, same⟩ := List.mem_map.mp picked
  exact ⟨x, isShown, (Prod.mk.inj same).2.symm⟩

/-- What is shown of the file is in the document. -/
theorem exists_isNamed (named : f.WellNamed) (nested : ∀ m ∈ f.messages, m.isMapEntry = false)
    {path : List String}
    (h : path ∈ f.shownMessages.map Prod.fst ++ f.shownEnums.map Prod.fst) :
    ∃ e ∈ Source.ofKind ⟨id, f.toDocument⟩ .message ++ Source.ofKind ⟨id, f.toDocument⟩ .enum,
      f.IsNamed e path := by
  have ofPick {k : Kind} {node : Option Node}
      (picked : (path, node) ∈ pick k (Element.ofSource ⟨id, f.toDocument⟩).contents) :
      ∃ e ∈ Source.ofKind ⟨id, f.toDocument⟩ k, f.IsNamed e path := by
    obtain ⟨e, inside, kind, relative, -⟩ := mem_pick.mp picked
    exact ⟨e, List.mem_filter.mpr ⟨inside, beq_iff_eq.mpr kind⟩,
      isNamed_of_relative named inside relative⟩
  obtain ⟨messages, enums⟩ := pick_toDocument id nested
  rcases List.mem_append.mp h with isMessage | isEnum
  · obtain ⟨x, isShown, rfl⟩ := List.mem_map.mp isMessage
    obtain ⟨e, inside, isNamed⟩ := ofPick (messages ▸ List.mem_map_of_mem isShown)
    exact ⟨e, List.mem_append_left _ inside, isNamed⟩
  · obtain ⟨x, isShown, rfl⟩ := List.mem_map.mp isEnum
    obtain ⟨e, inside, isNamed⟩ := ofPick (enums ▸ List.mem_map_of_mem isShown)
    exact ⟨e, List.mem_append_right _ inside, isNamed⟩

mutual

theorem listed_of_bare (outer : List String) (m : MessageDescriptor)
    (bare : ∀ x ∈ m.listed (fun _ => true) outer, x.2.isMapEntry = true → x.2.IsBare) :
    (if m.isShown then m.listed MessageDescriptor.isShown outer else []) =
        (m.listed (fun _ => true) outer).filter (·.2.isShown) ∧
      (if m.isShown then m.listedEnums MessageDescriptor.isShown outer else []) =
        m.listedEnums (fun _ => true) outer := by
  obtain ⟨name, mapEntry, messages, enums, fields⟩ := m
  unfold MessageDescriptor.listed at bare
  obtain ⟨here, inside⟩ := List.forall_mem_cons.mp bare
  unfold MessageDescriptor.listed MessageDescriptor.listedEnums
  cases mapEntry with
  | true =>
    obtain ⟨rfl, rfl⟩ := here rfl
    simp [MessageDescriptor.isShown, MessageDescriptor.isMapEntry, listedAll, listedEnumsAll]
  | false =>
    obtain ⟨same, sameEnums⟩ := listedAll_of_bare (outer ++ [name]) messages inside
    rw [same, sameEnums]
    exact ⟨rfl, rfl⟩

/-- If nothing is nested in map entries, nothing else is left out with them. -/
theorem listedAll_of_bare (outer : List String) (ms : List MessageDescriptor)
    (bare : ∀ x ∈ listedAll (fun _ => true) outer ms, x.2.isMapEntry = true → x.2.IsBare) :
    listedAll MessageDescriptor.isShown outer ms =
        (listedAll (fun _ => true) outer ms).filter (·.2.isShown) ∧
      listedEnumsAll MessageDescriptor.isShown outer ms =
        listedEnumsAll (fun _ => true) outer ms := by
  cases ms with
  | nil => exact ⟨rfl, rfl⟩
  | cons m rest =>
    unfold listedAll at bare ⊢
    unfold listedEnumsAll
    rw [if_pos rfl] at bare
    obtain ⟨here, others⟩ := List.forall_mem_append.mp bare
    obtain ⟨same, sameEnums⟩ := listed_of_bare outer m here
    obtain ⟨same', sameEnums'⟩ := listedAll_of_bare outer rest others
    rw [same, sameEnums, same', sameEnums', if_pos rfl, if_pos rfl, List.filter_append]
    exact ⟨rfl, rfl⟩

end

/-- The document of a file shows it, whatever other files the file takes its types from. What it
leaves out are the map entries and what is nested in them; in most files this is nothing. -/
theorem shownIn_of_wellNamed (named : f.WellNamed) (maps : f.MapsAreNested) :
    f.ShownIn ⟨id, f.toDocument⟩ ∧
      ((∀ x ∈ f.allMessages, x.2.isMapEntry = true → x.2.IsBare) →
        f.shownMessages = f.allMessages.filter (!·.2.isMapEntry) ∧ f.shownEnums = f.allEnums) := by
  obtain ⟨messages, enums⟩ := pick_toDocument id maps.nested
  refine ⟨?_, fun bare => ?_⟩
  swap
  · obtain ⟨same, sameEnums⟩ := listedAll_of_bare [] f.messages bare
    exact ⟨same, congrArg (· ++ _) sameEnums⟩
  constructor
  case messages =>
    refine forall₂_of_map_eq messages fun e inside x same => ?_
    obtain ⟨relative, node⟩ := Prod.mk.inj same
    refine ⟨isNamed_of_relative named (List.mem_filter.mp inside).1 relative, ?_⟩
    rw [fields_of_node node, List.forall₂_map_left_iff]
    exact List.forall₂_same.mpr fun d _ => showsField_toField named maps d
  case enums =>
    refine forall₂_of_map_eq enums fun e inside x same => ?_
    obtain ⟨relative, node⟩ := Prod.mk.inj same
    refine ⟨isNamed_of_relative named (List.mem_filter.mp inside).1 relative, ?_⟩
    simp [Element.body, node, EnumDescriptor.toNode, Node.body]
  case types =>
    intro e inside y member type written
    obtain ⟨x, isShown, node⟩ := exists_message maps.nested inside
    rw [fields_of_node node] at member
    obtain ⟨d, isField, rfl⟩ := List.mem_map.mp member
    have owner : x ∈ f.allMessages := listedAll_subset [] f.messages isShown
    have shows := showsField_toField named maps d
    refine ⟨fun z other entry => shows.type_ne named maps owner isField written other entry, ?_⟩
    intro path listed same last
    obtain ⟨e', inside', isNamed⟩ := exists_isNamed named maps.nested listed
    exact ⟨e', inside', by rw [same, isNamed.full last, typeName]⟩

/-- A file with a map to a type of another file. -/
def borrowingFile : FileDescriptor :=
  ⟨"b.proto", "p",
    [.mk "M" false
      [.mk "XEntry" true [] [] [⟨"key", 1, .scalar .string⟩, ⟨"value", 2, .message ".q.Value"⟩],
       .mk "N" false [] [] [⟨"m", 1, .message ".p.M"⟩]]
      [⟨"E", [("ZERO", 0)]⟩]
      [⟨"x", 1, .message ".p.M.XEntry"⟩, ⟨"v", 2, .message ".q.Value"⟩, ⟨"e", 3, .enum ".p.M.E"⟩]],
    []⟩

/-- The document shows the file, and the fields of its messages are these. -/
theorem shownIn_of_wellNamed_borrowing :
    borrowingFile.ShownIn ⟨.builtIn "b_pb2", borrowingFile.toDocument⟩ ∧
      borrowingFile.shownMessages = borrowingFile.allMessages.filter (!·.2.isMapEntry) ∧
      (Source.ofKind ⟨.builtIn "b_pb2", borrowingFile.toDocument⟩ .message).flatMap (fun e =>
          e.fields.map fun y => (e.fullName, y.name, y.mapKey, y.type)) =
        [("p.M", "x", some "string", ".q.Value"), ("p.M", "v", none, ".q.Value"),
          ("p.M", "e", none, ".p.M.E"), ("p.M.N", "m", none, ".p.M")] := by
  have named : borrowingFile.WellNamed :=
    ⟨by decide +kernel, by decide +kernel, fun _ => by decide +kernel⟩
  have maps : borrowingFile.MapsAreNested :=
    ⟨by decide +kernel, by decide +kernel, by decide +kernel⟩
  have bare : ∀ x ∈ borrowingFile.allMessages, x.2.isMapEntry = true → x.2.IsBare := by
    simp [borrowingFile, allMessages, listedAll, MessageDescriptor.listed,
      MessageDescriptor.isMapEntry, MessageDescriptor.IsBare]
  obtain ⟨shown, whole⟩ := shownIn_of_wellNamed named maps
  exact ⟨shown, (whole bare).1, by decide +kernel⟩

/-- A map entry with a message of its own nested in it, and a value of this type. -/
def nestedFile : FileDescriptor :=
  ⟨"n.proto", "p",
    [.mk "M" false
      [.mk "XEntry" true [.mk "In" false [] [] []] []
        [⟨"key", 1, .scalar .string⟩, ⟨"value", 2, .message ".p.M.XEntry.In"⟩]]
      [] [⟨"x", 1, .message ".p.M.XEntry"⟩]],
    []⟩

/-- A message of a package that ends in a dot. -/
def dottedFile : FileDescriptor := ⟨"d.proto", "p.", [.mk "M" false [] [] []], []⟩

/-- Not every message that is no map entry is in the document, even if a field has its type. And
where the package ends in a dot, messages have other full names than in the descriptor. -/
theorem left_out_nested :
    (nestedFile.WellNamed ∧ nestedFile.MapsAreNested ∧
      ∃ x ∈ nestedFile.allMessages, x.2.isMapEntry = false ∧
        (∃ e ∈ Source.ofKind ⟨.reading 0, nestedFile.toDocument⟩ .message, ∃ y ∈ e.fields,
          y.type = nestedFile.typeName x.1) ∧
        ∀ e ∈ (Element.ofSource ⟨.reading 0, nestedFile.toDocument⟩).contents,
          e.fullName ≠ nestedFile.fullName x.1) ∧
    dottedFile.WellNamed ∧ dottedFile.MapsAreNested ∧
      (Source.ofKind ⟨.reading 0, dottedFile.toDocument⟩ .message).map Element.fullName = ["p.M"] ∧
      dottedFile.allMessages.map (fun x => dottedFile.fullName x.1) = ["p..M"] := by
  refine ⟨⟨?_, ?_, ?_⟩, ?_, ?_, ?_⟩
  · exact ⟨by decide +kernel, by decide +kernel, fun _ => by decide +kernel⟩
  · exact ⟨by decide +kernel, by decide +kernel, by decide +kernel⟩
  · refine ⟨(["M", "XEntry", "In"], .mk "In" false [] [] []), ?_, rfl, ?_, ?_⟩
    · simp [nestedFile, allMessages, listedAll, MessageDescriptor.listed]
    · decide +kernel
    · decide +kernel
  · exact ⟨by decide +kernel, by decide +kernel, fun last => absurd (by decide +kernel) last⟩
  · exact ⟨by decide +kernel, by decide +kernel, by decide +kernel⟩
  · decide +kernel

end FileDescriptor

end ProtoNames
