import ProtoNames.Proofs.Bodies
import ProtoNames.Proofs.Printing

/-!
Reading undoes printing.

`ofTokens_printed`: the tokens of a well-formed document, wherever they stand in a text, are
read as that document, if there is room for its nesting. Integers may have 4300 digits at most; an
enum value with more is refused (`ofTokens_enumDocument`).

A body is read one entry after the other, so it is enough to say what one declaration adds to
what is read after it. This goes by induction on the tree.
-/

namespace ProtoNames

open Number Text

/-! ### Room -/

/-- How many frames it takes to read a leaf. A member of a oneof is printed in a oneof block. -/
def Leaf.frames : Leaf → Nat
  | .field f => if f.oneof.isSome then Grammar.oneofFrames else 0
  | _ => 0

mutual

/-- How many frames it takes to read a declaration: those that wait for its innermost body. -/
def Node.frames : Node → Nat
  | .leaf l => l.frames
  | .block header body => Grammar.framesOf header + framesOfNodes body

/-- How many frames it takes to read declarations one after the other. -/
def framesOfNodes : List Node → Nat
  | [] => 0
  | n :: others => max n.frames (framesOfNodes others)

end

/-- How many frames it takes to read a document. -/
def Document.frames (d : Document) : Nat := framesOfNodes d.statements

namespace Grammar

open Reader

variable {r : Region} {K : TokenKind} {e : Entry} {l : Leaf} {header : Header} {name : String}
  {f : Field} {n : Node} {inside nodes : List Node} {ls mid after rest : List Lexeme}

/-! ### Entries -/

theorem reads_close :
    Reads (entry r) (.symbol .rbrace :: rest) .close (.symbol .rbrace :: rest) :=
  reads_nextKind.bind (.pure _)

theorem reads_entry (starts : headKind ls = some K) (inside : K ≠ .symbol .rbrace)
    (reads : Reads (entryAt r K) ls e rest) : Reads (entry r) ls e rest := by
  unfold entry
  refine reads_nextKind.bind ?_
  rw [starts, entryFrom, if_neg inside]
  exact reads

theorem reads_keywordEntry {k : Keyword}
    (reads : Reads (entryAt r (.keyword k)) (.keyword k :: ls) e rest) :
    Reads (entry r) (.keyword k :: ls) e rest := by
  have starts : headKind (.keyword k :: ls) = some (.keyword k) := by simp
  exact reads_entry starts (by simp) reads

/-- A token of this kind does not end a region, and begins no entry there but a field or
group. -/
def Region.BeginsMember (r : Region) (K : TokenKind) : Prop :=
  (∀ s ∈ [Symbol.rbrace, .semicolon], K ≠ .symbol s) ∧ ∀ k ∈ r.starters, K ≠ .keyword k

theorem messageEntryAt_member (apart : ∀ k ∈ Region.message.starters, K ≠ .keyword k) :
    messageEntryAt K = fieldOrGroup := by
  unfold messageEntryAt
  split
  case h_8 => rfl
  all_goals exact absurd rfl (apart _ (by decide))

theorem oneofEntryAt_member (apart : ∀ k ∈ Region.oneof.starters, K ≠ .keyword k) :
    oneofEntryAt K = fieldOrGroup := by
  unfold oneofEntryAt
  split
  · exact absurd rfl (apart _ (by decide))
  · rfl

/-- Where fields can stand, all that is nothing else is a field or group. -/
theorem entryAt_member (admitted : r.admits .field = true) (begins : r.BeginsMember K) :
    entryAt r K = fieldOrGroup := by
  obtain ⟨noSymbol, apart⟩ := begins
  unfold entryAt
  rw [if_neg (noSymbol _ (by decide))]
  cases r with
  | message => exact messageEntryAt_member apart
  | oneof => exact oneofEntryAt_member apart
  | extend => rfl
  | enum => cases admitted
  | service => cases admitted

/-- A label begins nothing else. Without one this is asked of what stands in its place. -/
theorem reads_member {l : Option Label} (admitted : r.admits .field = true)
    (begins : l = none → ∃ K, headKind ls = some K ∧ r.BeginsMember K)
    (reads : Reads fieldOrGroup (printedLabel l ++ ls) e rest) :
    Reads (entry r) (printedLabel l ++ ls) e rest := by
  have begins' : ∃ K, headKind (printedLabel l ++ ls) = some K ∧ r.BeginsMember K := by
    cases l with
    | none => exact begins rfl
    | some l =>
      refine ⟨.keyword (Label.keyword l), by simp [printedLabel], by simp, ?_⟩
      cases r <;> cases l <;> decide
  obtain ⟨K, starts, member⟩ := begins'
  refine reads_entry starts (member.1 _ (by decide)) ?_
  rw [entryAt_member admitted member]
  exact reads

theorem exists_headKind_spell (dotted : IsDotted name) :
    ∃ K, headKind (spell name ++ rest) = some K ∧ ∀ s ≠ .dot, K ≠ .symbol s := by
  rcases spell_cases dotted with ⟨word, others, -, -, -, same⟩ | ⟨word, others, -, -, -, same⟩
  · exact ⟨(Lexeme.word word).kind, by simp [same], by simp⟩
  · refine ⟨.symbol .dot, by simp [same], ?_⟩
    intro s other same
    cases same
    exact other rfl

theorem beginsMember_printedBare (dotted : IsDotted f.type)
    (apart : f.mapKey = none → ∀ k ∈ r.starters, ¬ BeginsWith k f.type) :
    ∃ K, headKind (f.printedBare ++ rest) = some K ∧ r.BeginsMember K := by
  have begins : ∃ K, headKind (f.printedBare ++ rest) = some K ∧ ∀ s ≠ .dot, K ≠ .symbol s := by
    simp only [Field.printedBare, Field.printedType, List.append_assoc]
    cases f.mapKey with
    | some key => exact ⟨.keyword .map, by simp, by simp⟩
    | none => exact exists_headKind_spell dotted
  obtain ⟨K, starts, noSymbol⟩ := begins
  refine ⟨K, starts, fun s inside => noSymbol s ?_, fun k starter same => ?_⟩
  · rintro rfl
    exact absurd inside (by decide)
  · have notMap : k ≠ .map := by
      rintro rfl
      cases r <;> exact absurd starter (by decide)
    rw [same] at starts
    exact headKind_printedBare dotted notMap (fun isPlain => apart isPlain k starter) starts

theorem reads_fieldEntry (admitted : r.admits .field = true) (wellFormed : f.WellFormed IsReadable)
    (apart : f.mapKey = none →
      ∀ k ∈ (if f.label.isSome then [.group] else r.starters ++ memberStarters),
        ¬ BeginsWith k f.type) :
    Reads (entry r) (f.printedAlone ++ rest) (.leaf (.field { f with oneof := none })) rest := by
  have member := @reads_fieldOrGroup rest f wellFormed fun isPlain k inside => by
    refine apart isPlain k ?_
    cases unlabelled : f.label with
    | none => simp_all
    | some l => simp_all
  unfold Field.printedAlone at member ⊢
  rw [List.append_assoc] at member ⊢
  refine reads_member admitted (fun unlabelled => ?_) member
  refine beginsMember_printedBare wellFormed.type fun isPlain k starter => apart isPlain k ?_
  rw [unlabelled]
  exact List.mem_append_left _ starter

theorem reads_groupEntry {number : Int} {label : Option Label}
    (admitted : r.admits .field = true) (readable : IsReadable number) :
    Reads (entry r) ((Header.group name number label).printed ++ .symbol .lbrace :: rest)
      (.header (.group name number label)) rest := by
  have member := @reads_group name rest _ label readable
  unfold Header.printed at member ⊢
  dsimp only at member ⊢
  rw [List.append_assoc] at member ⊢
  refine reads_member admitted ?_ member
  intro unlabelled
  refine ⟨.keyword .group, by simp, by simp, ?_⟩
  cases r <;> decide

theorem entryAt_enumValue (apart : ∀ k ∈ Region.enum.starters, name ≠ k.word) :
    entryAt .enum (Lexeme.word name).kind = .leaf <$> enumValue := by
  have other : ∀ k ∈ Region.enum.starters, (Lexeme.word name).kind ≠ .keyword k :=
    fun k starter same => apart k starter (Lexeme.kind_word_eq_keyword_iff.mp same)
  unfold entryAt
  rw [if_neg (by simp)]
  unfold enumEntryAt
  dsimp only
  split
  · next same => exact absurd same (other _ (by decide))
  · next same => exact absurd same (other _ (by decide))
  · rfl

/-- A declaration without a body is read as it is where it fits in. -/
theorem reads_leaf (fits : (Node.leaf l).FitsIn r) (wellFormed : l.WellFormed IsReadable)
    (untagged : ∀ f, l = .field f → f.oneof = none) :
    Reads (entry r) (l.printed ++ rest) (.leaf l) rest := by
  obtain ⟨admitted, fits⟩ := fits
  cases l with
  | package name => cases r <;> cases admitted
  | importing i => cases r <;> cases admitted
  | option o =>
    have read : Reads (Entry.leaf <$> optionStatement) ((Leaf.option o).printed ++ rest)
        (.leaf (.option o)) rest := (reads_optionStatement wellFormed).map
    refine reads_keywordEntry ?_
    cases r with
    | message => exact read
    | oneof => cases admitted
    | extend => cases admitted
    | enum => exact read
    | service => exact read
  | field f =>
    have single : f.oneof = none := untagged f rfl
    have same : { f with oneof := none } = f := by
      rw [← single]
    have printed : (Leaf.field f).printed = f.printedAlone := by
      simp [Leaf.printed, Field.printed, single]
    have apart := fits.type
    rw [Field.excluded, single] at apart
    have read := @reads_fieldEntry r f rest admitted wellFormed apart
    rw [same] at read
    rw [printed]
    exact read
  | enumValue name number =>
    cases r with
    | enum =>
      refine reads_entry rfl (Lexeme.kind_word_ne_symbol _ _) ?_
      rw [entryAt_enumValue fits]
      exact (reads_enumValue wellFormed).map
    | _ => cases admitted
  | rpc m =>
    refine reads_keywordEntry ?_
    cases r with
    | service => exact (reads_rpc wellFormed.1 wellFormed.2).map
    | _ => cases admitted

/-- A header is read as it is where its block is admitted. -/
theorem reads_header (admitted : r.admits header.kind = true)
    (wellFormed : header.WellFormed IsReadable) :
    Reads (entry r) (header.printed ++ .symbol .lbrace :: rest) (.header header) rest := by
  cases header with
  | enum name =>
    cases r with
    | message => exact reads_keywordEntry reads_namedHeader.map
    | _ => cases admitted
  | message name =>
    cases r with
    | message => exact reads_keywordEntry reads_namedHeader.map
    | _ => cases admitted
  | group name number label =>
    refine reads_groupEntry ?_ wellFormed
    cases r with
    | enum => cases admitted
    | service => cases admitted
    | _ => rfl
  | extend target =>
    cases r with
    | message => exact reads_keywordEntry (reads_extendHeader wellFormed).map
    | _ => cases admitted
  | service name => cases r <;> cases admitted

/-! ### Bodies -/

/-- On tokens spelling `ls` the entries of a region are `nodes`, what follows spells `rest`, and
`needed` frames are taken. -/
def ReadsBody (needed : Nat) (r : Region) (ls : List Lexeme) (nodes : List Node)
    (rest : List Lexeme) : Prop :=
  ∀ ⦃ts : List Token⦄, ts.map Token.lexeme = ls →
    ∃ passed left, BodyRead needed r ts nodes passed left ∧ left.map Token.lexeme = rest

variable {needed within : Nat}

theorem ReadsBody.close :
    ReadsBody 0 r (.symbol .rbrace :: rest) [] (.symbol .rbrace :: rest) := by
  intro ts spelled
  obtain ⟨more, next, left⟩ := reads_close spelled
  exact ⟨[], more, .close next, left⟩

theorem ReadsBody.leaf (entry_ : Reads (entry r) ls (.leaf l) mid)
    (others : ReadsBody needed r mid nodes rest) :
    ReadsBody needed r ls (.leaf l :: nodes) rest := by
  intro ts spelled
  obtain ⟨more, next, spelled⟩ := entry_ spelled
  obtain ⟨passed, more', read, left⟩ := others spelled
  exact ⟨passed, more', .leaf next read, left⟩

theorem closing_of_spelled {ts : List Token}
    (spelled : ts.map Token.lexeme = .symbol .rbrace :: after) :
    ∃ t more, symbol .rbrace ts = .ok (t, more) ∧ more.map Token.lexeme = after := by
  obtain ⟨t, more, taken, -, left⟩ := expect_of_spelled spelled
  exact ⟨t, more, taken, left⟩

theorem ReadsBody.block (entry_ : Reads (entry r) ls (.header header) mid)
    (inner : ReadsBody within (regionOf header) mid inside (.symbol .rbrace :: after))
    (others : ReadsBody needed r after nodes rest) :
    ReadsBody (max (framesOf header + within) needed) r ls (.block header inside :: nodes)
      rest := by
  intro ts spelled
  obtain ⟨more, next, spelled⟩ := entry_ spelled
  obtain ⟨passed, left, body, spelled⟩ := inner spelled
  obtain ⟨brace, more', closed, spelled⟩ := closing_of_spelled spelled
  obtain ⟨passed', left', read, spelled⟩ := others spelled
  exact ⟨passed ++ passed', left', .block next body closed read, spelled⟩

/-- What stands in a oneof block is marked with its name. -/
theorem ReadsBody.oneof (entry_ : Reads (entry r) ls (.oneof name) mid)
    (inner : ReadsBody within .oneof mid inside (.symbol .rbrace :: after))
    (others : ReadsBody needed r after nodes rest) :
    ReadsBody (max (oneofFrames + within) needed) r ls (inside.map (markOneof name) ++ nodes)
      rest := by
  intro ts spelled
  obtain ⟨more, next, spelled⟩ := entry_ spelled
  obtain ⟨passed, left, body, spelled⟩ := inner spelled
  obtain ⟨brace, more', closed, spelled⟩ := closing_of_spelled spelled
  obtain ⟨passed', left', read, spelled⟩ := others spelled
  exact ⟨passed ++ passed', left', .oneof next body closed read, spelled⟩

/-! ### Trees -/

/-- Reading a declaration where it fits in puts it in front of what is read after it. -/
def IsRead (r : Region) (n : Node) : Prop :=
  ∀ ⦃needed ls nodes rest⦄, ReadsBody needed r ls nodes rest →
    ReadsBody (max n.frames needed) r (n.printed ++ ls) (n :: nodes) rest

/-- A member of a oneof comes back from its oneof block. -/
theorem isRead_tagged {oneof : String} (tagged : f.oneof = some oneof)
    (fits : (Node.leaf (.field f)).FitsIn r) (wellFormed : f.WellFormed IsReadable) :
    IsRead r (.leaf (.field f)) := by
  intro needed ls nodes rest others
  have apart := fits.2.type
  obtain rfl : r = .message := fits.2.oneof (by simp [tagged])
  rw [Field.excluded, tagged] at apart
  have printed : (Node.leaf (.field f)).printed ++ ls = .keyword .oneof :: .word oneof ::
      .symbol .lbrace :: (f.printedAlone ++ .symbol .rbrace :: ls) := by
    simp [Node.printed, Leaf.printed, Field.printed, tagged]
  have opening : Reads (entry .message) (.keyword .oneof :: .word oneof :: .symbol .lbrace ::
      (f.printedAlone ++ .symbol .rbrace :: ls)) (.oneof oneof)
      (f.printedAlone ++ .symbol .rbrace :: ls) :=
    reads_keywordEntry reads_namedHeader.map
  have member := ReadsBody.leaf (reads_fieldEntry rfl wellFormed apart) (@ReadsBody.close .oneof ls)
  have marked : markOneof oneof (.leaf (.field { f with oneof := none })) = .leaf (.field f) := by
    rw [markOneof, ← tagged]
  have frames : (Node.leaf (.field f)).frames = oneofFrames := by
    simp [Node.frames, Leaf.frames, tagged]
  have whole := ReadsBody.oneof opening member others
  rw [List.map_singleton, marked] at whole
  rw [printed, frames]
  exact whole

theorem readsBody_nodes (each : ∀ n ∈ inside, IsRead r n) :
    ReadsBody (framesOfNodes inside) r (printedNodes inside ++ .symbol .rbrace :: rest) inside
      (.symbol .rbrace :: rest) := by
  induction inside with
  | nil => exact .close
  | cons n inside ih =>
    obtain ⟨first, each⟩ := List.forall_mem_cons.mp each
    rw [framesOfNodes, printedNodes, List.append_assoc]
    exact first (ih each)

theorem printed_block (header : Header) (body : List Node) (ls : List Lexeme) :
    (Node.block header body).printed ++ ls =
      header.printed ++ .symbol .lbrace :: (printedNodes body ++ .symbol .rbrace :: ls) := by
  simp [Node.printed]

/-- Every well-formed declaration is read where it fits in. -/
theorem isRead_of_wellFormed (wellFormed : n.WellFormed IsReadable) (fits : n.FitsIn r) :
    IsRead r n := by
  -- The region varies: a node of a body is asked to fit into the region of its block.
  induction wellFormed generalizing r with
  | @leaf l wellFormed =>
    by_cases tagged : ∃ f oneof, l = .field f ∧ f.oneof = some oneof
    · obtain ⟨f, oneof, rfl, tagged⟩ := tagged
      exact isRead_tagged tagged fits wellFormed
    · have untagged : ∀ f, l = .field f → f.oneof = none := by
        intro f same
        exact Option.eq_none_iff_forall_ne_some.mpr fun oneof tagged_ =>
          tagged ⟨f, oneof, same, tagged_⟩
      have frames : (Node.leaf l).frames = 0 := by
        cases l <;> simp [Node.frames, Leaf.frames, untagged]
      intro needed ls nodes rest others
      rw [frames, Nat.zero_max]
      exact .leaf (reads_leaf fits wellFormed untagged) others
  | @block header body headed fit _ ih =>
    intro needed ls nodes rest others
    have inner := @readsBody_nodes (regionOf header) body ls fun n inside =>
      ih n inside (fit n inside)
    rw [printed_block]
    exact .block (reads_header fits.1 headed) inner others

/-! ### Files -/

/-- Tokens spelling `ls` are the statements `nodes` of a file, after the dialects, and `needed`
frames are taken. -/
def ReadsContents (needed : Nat) (hasPackage : Bool) (ls : List Lexeme) (dialects : List String)
    (nodes : List Node) : Prop :=
  ∀ ⦃ts : List Token⦄, ts.map Token.lexeme = ls →
    ∃ passed, FileRead needed hasPackage ts dialects nodes passed

/-- What a statement that begins with a keyword is read as. -/
def ReadsStatement (hasPackage : Bool) (ls : List Lexeme) (s : Statement) (rest : List Lexeme) :
    Prop :=
  ∃ k tail, ls = .keyword k :: tail ∧
    ∀ t : Token, t.kind = .keyword k → Reads (statementAt hasPackage t) ls s rest

variable {hasPackage : Bool} {dialects : List String} {s : Statement}

theorem ReadsStatement.run (statement : ReadsStatement hasPackage ls s rest) {ts : List Token}
    (spelled : ts.map Token.lexeme = ls) :
    ∃ t more mid, ts = t :: more ∧ statementAt hasPackage t (t :: more) = .ok (s, mid) ∧
      mid.map Token.lexeme = rest := by
  obtain ⟨k, tail, rfl, reads⟩ := statement
  obtain ⟨t, more, rfl, here, -⟩ := List.map_eq_cons_iff.mp spelled
  have kind : t.kind = .keyword k := (congrArg Lexeme.kind here).trans (Lexeme.kind_keyword k)
  obtain ⟨mid, next, left⟩ := reads t kind spelled
  exact ⟨t, more, mid, rfl, next, left⟩

theorem ReadsContents.nil : ReadsContents 0 hasPackage [] [] [] := by
  intro ts spelled
  rw [List.map_eq_nil_iff.mp spelled]
  exact ⟨[], .finish⟩

theorem ReadsContents.dialect (statement : ReadsStatement hasPackage ls (.dialect name) mid)
    (others : ReadsContents needed hasPackage mid dialects nodes) :
    ReadsContents needed hasPackage ls (name :: dialects) nodes := by
  intro ts spelled
  obtain ⟨t, more, rest, rfl, next, spelled⟩ := statement.run spelled
  obtain ⟨passed, read⟩ := others spelled
  exact ⟨passed, .dialect next read⟩

theorem ReadsContents.leaf (statement : ReadsStatement hasPackage ls (.leaf l) mid)
    (others : ReadsContents needed (hasPackage || isPackage l) mid dialects nodes) :
    ReadsContents needed hasPackage ls dialects (.leaf l :: nodes) := by
  intro ts spelled
  obtain ⟨t, more, rest, rfl, next, spelled⟩ := statement.run spelled
  obtain ⟨passed, read⟩ := others spelled
  exact ⟨passed, .leaf next read⟩

theorem ReadsContents.block (statement : ReadsStatement hasPackage ls (.header header) mid)
    (inner : ReadsBody within (regionOf header) mid inside (.symbol .rbrace :: after))
    (others : ReadsContents needed hasPackage after dialects nodes) :
    ReadsContents (max (framesOf header + within) needed) hasPackage ls dialects
      (.block header inside :: nodes) := by
  intro ts spelled
  obtain ⟨t, more, rest, rfl, next, spelled⟩ := statement.run spelled
  obtain ⟨passed, left, body, spelled⟩ := inner spelled
  obtain ⟨brace, more', closed, spelled⟩ := closing_of_spelled spelled
  obtain ⟨passed', read⟩ := others spelled
  exact ⟨passed ++ passed', .block next body closed read⟩

theorem readsStatement_dialect {dialect : String} :
    ReadsStatement hasPackage (printedDialect (some dialect) ++ rest) (.dialect dialect) rest := by
  refine ⟨.dialect, _, rfl, fun t kind => ?_⟩
  unfold statementAt
  rw [kind]
  exact reads_dialectStatement.map

theorem readsStatement_leaf (admitted : admitsStatement l.kind = true)
    (wellFormed : l.WellFormed IsReadable) (single : l.kind = .package → hasPackage = false) :
    ReadsStatement hasPackage (l.printed ++ rest) (.leaf l) rest := by
  cases l with
  | package name =>
    refine ⟨.package, _, rfl, fun t kind => ?_⟩
    unfold statementAt
    rw [kind, single rfl]
    exact (reads_packageStatement wellFormed).map
  | importing i =>
    refine ⟨.import, _, rfl, fun t kind => ?_⟩
    unfold statementAt
    rw [kind]
    exact reads_importStatement.map
  | option o =>
    refine ⟨.option, _, rfl, fun t kind => ?_⟩
    unfold statementAt
    rw [kind]
    exact (reads_optionStatement wellFormed).map
  | _ => cases admitted

theorem readsStatement_header (admitted : admitsStatement header.kind = true)
    (wellFormed : header.WellFormed IsReadable) :
    ReadsStatement hasPackage (header.printed ++ .symbol .lbrace :: rest) (.header header)
      rest := by
  cases header with
  | enum name =>
    refine ⟨.enum, _, rfl, fun t kind => ?_⟩
    unfold statementAt
    rw [kind]
    exact reads_namedHeader.map
  | message name =>
    refine ⟨.message, _, rfl, fun t kind => ?_⟩
    unfold statementAt
    rw [kind]
    exact reads_namedHeader.map
  | group name number label => cases admitted
  | extend target =>
    refine ⟨.extend, _, rfl, fun t kind => ?_⟩
    unfold statementAt
    rw [kind]
    exact (reads_extendHeader wellFormed).map
  | service name =>
    refine ⟨.service, _, rfl, fun t kind => ?_⟩
    unfold statementAt
    rw [kind]
    exact reads_namedHeader.map

theorem readsContents_node (admitted : admitsStatement n.kind = true)
    (wellFormed : n.WellFormed IsReadable) (single : n.kind = .package → hasPackage = false)
    (others : ReadsContents needed (hasPackage || n.kind == .package) ls dialects nodes) :
    ReadsContents (max n.frames needed) hasPackage (n.printed ++ ls) dialects (n :: nodes) := by
  cases wellFormed with
  | @leaf l wellFormed =>
    have same : isPackage l = ((Node.leaf l).kind == .package) := by
      cases l <;> rfl
    have frames : (Node.leaf l).frames = 0 := by
      cases l <;> first | rfl | cases admitted
    rw [← same] at others
    rw [frames, Nat.zero_max]
    exact .leaf (readsStatement_leaf admitted wellFormed single) others
  | @block header body headed fit wellFormed =>
    have notPackage : (hasPackage || (Node.block header body).kind == .package) = hasPackage := by
      cases header <;> exact Bool.or_false _
    have inner := @readsBody_nodes (regionOf header) body ls fun n inside =>
      isRead_of_wellFormed (wellFormed n inside) (fit n inside)
    rw [notPackage] at others
    rw [printed_block]
    exact .block (readsStatement_header admitted headed) inner others

theorem readsContents_nodes (admitted : ∀ n ∈ nodes, admitsStatement n.kind = true)
    (wellFormed : ∀ n ∈ nodes, n.WellFormed IsReadable)
    (single : hasPackage.toNat + nodes.countP (·.kind == .package) ≤ 1) :
    ReadsContents (framesOfNodes nodes) hasPackage (printedNodes nodes) [] nodes := by
  induction nodes generalizing hasPackage with
  | nil => exact .nil
  | cons n nodes ih =>
    obtain ⟨admitted, others⟩ := List.forall_mem_cons.mp admitted
    obtain ⟨wellFormed, others'⟩ := List.forall_mem_cons.mp wellFormed
    rw [List.countP_cons] at single
    have first : n.kind = .package → hasPackage = false := by
      intro same
      rw [if_pos (beq_iff_eq.mpr same)] at single
      cases hasPackage with
      | false => rfl
      | true =>
        rw [Bool.toNat_true] at single
        omega
    have single : (hasPackage || n.kind == .package).toNat +
        nodes.countP (·.kind == .package) ≤ 1 := by
      by_cases same : (n.kind == .package) = true
      · rw [if_pos same] at single
        rw [same, Bool.or_true, Bool.toNat_true]
        omega
      · rw [Bool.not_eq_true] at same
        rw [same, Bool.or_false]
        omega
    rw [framesOfNodes, printedNodes]
    exact readsContents_node admitted wellFormed first (ih others others' single)

end Grammar

/-- The tokens of a well-formed document can be read as its statements. -/
theorem fileRead_printed {d : Document} (wellFormed : d.WellFormed IsReadable)
    {tokens : List Token} (spelled : tokens.map Token.lexeme = d.printed) :
    ∃ passed, Grammar.FileRead d.frames false tokens d.dialect.toList d.statements passed := by
  obtain ⟨uri, dialect, nodes⟩ := d
  have statements : Grammar.ReadsContents (framesOfNodes nodes) false (printedNodes nodes) []
      nodes :=
    Grammar.readsContents_nodes wellFormed.admitted wellFormed.statements
      (by simpa using wellFormed.package)
  cases dialect with
  | none => exact statements spelled
  | some dialect =>
    exact Grammar.ReadsContents.dialect Grammar.readsStatement_dialect statements spelled

/-- What can be read as the statements of a document is read as the document, if there is room. -/
theorem ofTokens_of_fileRead {d : Document} {tokens : List Token} {passed : List (List Token)}
    (read : Grammar.FileRead d.frames false tokens d.dialect.toList d.statements passed)
    (finish : Position) (frames : Nat) :
    Document.ofTokens frames d.uri ⟨tokens, finish⟩ = Grammar.ifRoom frames d.frames d := by
  have last : d.dialect.toList.getLast? = d.dialect := by
    cases d.dialect <;> rfl
  rw [Document.ofTokens, Grammar.contents_of_fileRead read]
  by_cases room : d.frames ≤ frames
  · simp [Grammar.ifRoom, room, last]
  · simp [Grammar.ifRoom, room]

/-- The tokens of a well-formed document are read as that document, wherever they stand, if there
is room for its nesting. -/
theorem ofTokens_printed {d : Document} (wellFormed : d.WellFormed IsReadable)
    {tokens : List Token} (spelled : tokens.map Token.lexeme = d.printed) (finish : Position)
    (frames : Nat) :
    Document.ofTokens frames d.uri ⟨tokens, finish⟩ = Grammar.ifRoom frames d.frames d := by
  obtain ⟨passed, read⟩ := fileRead_printed wellFormed spelled
  exact ofTokens_of_fileRead read finish frames

/-- A member of a oneof, of a type that is named like a map, with an option of an extension. -/
def taggedField : Field where
  type := "map"
  name := "option"
  number := -1
  label := none
  mapKey := none
  oneof := some "oneof"
  options := [⟨"(.x.y).z", .number (.int (-7))⟩, ⟨"deprecated", .bool true⟩]

/-- A field that is a map. -/
def mapField : Field := ⟨".A.B", "map", 2, none, some "string", none, []⟩

/-- A file with these fields and a group. Keywords are names in it. -/
def crowdedDocument : Document where
  uri := "/a.proto"
  dialect := some "proto3"
  statements := [
    .leaf (.package "a.package"),
    .leaf (.importing ⟨"b.proto", .public⟩),
    .block (.message "message") [
      .leaf (.field taggedField),
      .leaf (.field mapField),
      .block (.group "group" 3 (some .repeated)) []]]

theorem isReadable_of_lt_ten {number : Int} (small : number.natAbs < 10) : IsReadable number :=
  fits_of_lt_ten small

theorem taggedField_wellFormed : taggedField.WellFormed IsReadable where
  type := IsUndelimited.isDotted (by decide)
  key := by simp [taggedField]
  number := isReadable_of_lt_ten (by decide)
  options := by
    have extension : IsDotted ".x.y" :=
      ⟨["x", "y"], by decide, by decide, .inr (by decide)⟩
    have custom : IsOptionName "(.x.y).z" :=
      ⟨["(.x.y)", "z"], by decide, by
        simpa using ⟨.inr ⟨_, extension, by decide⟩, .inl (by decide)⟩, by decide⟩
    have deprecated : IsOptionName "deprecated" :=
      ⟨["deprecated"], by decide, by simpa using .inl (by decide), by decide⟩
    have seven : IsReadable (-7) := isReadable_of_lt_ten (by decide)
    simpa [taggedField, Setting.WellFormed, Constant.WellFormed] using ⟨⟨custom, seven⟩, deprecated⟩

theorem mapField_wellFormed : mapField.WellFormed IsReadable where
  type := ⟨["A", "B"], by decide, by decide, .inr (by decide)⟩
  key := by
    rintro _ ⟨⟩
    exact IsUndelimited.isDotted (by decide)
  number := isReadable_of_lt_ten (by decide)
  options := by simp [mapField]

theorem crowdedDocument_wellFormed : crowdedDocument.WellFormed IsReadable where
  admitted := by
    simp [crowdedDocument, Node.kind, Leaf.kind, Header.kind, Grammar.admitsStatement]
  statements := by
    have package : IsDotted "a.package" :=
      ⟨["a", "package"], by decide, by decide, .inl (by decide)⟩
    have group : (Node.block (.group "group" 3 (some .repeated)) []).WellFormed IsReadable :=
      .block (isReadable_of_lt_ten (by decide)) (by simp) (by simp)
    have fits : ∀ n ∈ [Node.leaf (.field taggedField), .leaf (.field mapField),
        .block (.group "group" 3 (some .repeated)) []], n.FitsIn .message := by
      refine List.forall_mem_cons.mpr ⟨⟨rfl, fun _ => rfl, fun _ => by decide⟩, ?_⟩
      refine List.forall_mem_cons.mpr ⟨⟨rfl, by simp [mapField], by simp [mapField]⟩, ?_⟩
      exact List.forall_mem_singleton.mpr ⟨rfl, trivial⟩
    have message : ∀ n ∈ [Node.leaf (.field taggedField), .leaf (.field mapField),
        .block (.group "group" 3 (some .repeated)) []], n.WellFormed IsReadable := by
      refine List.forall_mem_cons.mpr ⟨.leaf taggedField_wellFormed, ?_⟩
      refine List.forall_mem_cons.mpr ⟨.leaf mapField_wellFormed, ?_⟩
      exact List.forall_mem_singleton.mpr group
    refine List.forall_mem_cons.mpr ⟨.leaf package, ?_⟩
    refine List.forall_mem_cons.mpr ⟨.leaf trivial, ?_⟩
    exact List.forall_mem_singleton.mpr (.block trivial fits message)
  package := by decide

/-- Its tokens are read as the file, where there is room for the two calls that wait for the body
of its message, and for the three that wait for its group there. -/
theorem ofTokens_printed_crowded :
    Document.ofTokens 5 crowdedDocument.uri
      ⟨crowdedDocument.printed.map (·.placed ⟨1, 1⟩), ⟨1, 1⟩⟩ = .ok crowdedDocument ∧
    Document.ofTokens 4 crowdedDocument.uri
      ⟨crowdedDocument.printed.map (·.placed ⟨1, 1⟩), ⟨1, 1⟩⟩ = .error .tooDeep :=
  ⟨ofTokens_printed crowdedDocument_wellFormed (Lexeme.map_placed _ _) _ 5,
    ofTokens_printed crowdedDocument_wellFormed (Lexeme.map_placed _ _) _ 4⟩

/-! ### Nested messages -/

/-- As many messages as `depth`, each in the one before. -/
def deepMessages : Nat → List Node
  | 0 => []
  | depth + 1 => [.block (.message "M") (deepMessages depth)]

/-- A file with these messages. -/
def deepDocument (uri : String) (depth : Nat) : Document := ⟨uri, none, deepMessages depth⟩

theorem deepMessages_frames (depth : Nat) : framesOfNodes (deepMessages depth) = 2 * depth := by
  induction depth with
  | zero => rfl
  | succ depth ih =>
    simp only [deepMessages, framesOfNodes, Node.frames, ih, Grammar.framesOf]
    omega

theorem deepMessages_fit {depth : Nat} {n : Node} (inside : n ∈ deepMessages depth) :
    n.FitsIn .message ∧ Grammar.admitsStatement n.kind = true ∧ n.kind ≠ .package := by
  cases depth with
  | zero => cases inside
  | succ depth =>
    obtain rfl := List.mem_singleton.mp inside
    exact ⟨⟨rfl, trivial⟩, rfl, by simp [Node.kind, Header.kind]⟩

theorem deepMessages_wellFormed {numbers : Int → Prop} (depth : Nat) :
    ∀ n ∈ deepMessages depth, n.WellFormed numbers := by
  induction depth with
  | zero => simp [deepMessages]
  | succ depth ih =>
    refine List.forall_mem_singleton.mpr (.block trivial (fun n inside => ?_) ih)
    exact (deepMessages_fit inside).1

theorem deepDocument_wellFormed {numbers : Int → Prop} (uri : String) (depth : Nat) :
    (deepDocument uri depth).WellFormed numbers where
  admitted _ inside := (deepMessages_fit inside).2.1
  statements := deepMessages_wellFormed depth
  package := by
    have none : (deepMessages depth).countP (·.kind == .package) = 0 :=
      List.countP_eq_zero.mpr fun n inside => by simpa using (deepMessages_fit inside).2.2
    simp [deepDocument, none]

/-! ### Integers with too many digits -/

namespace Grammar

open Reader

variable {name : String} {number : Int} {rest : List Lexeme}

theorem integer_refuses (tooLong : ¬ IsReadable number) :
    Refuses integer (printedInt number ++ rest) := by
  unfold integer printedInt
  rw [List.append_assoc]
  refine (reads_sign _ (by simp)).bind_refuses (refuses_expect_bind fun t same => Refuses.bind ?_)
  have text : t.text = toString number.natAbs := congrArg Lexeme.text same
  rw [text, readInt_toString.trans (if_neg tooLong)]
  exact fun ts _ => ⟨_, rfl⟩

theorem enumEntry_refuses (apart : ∀ k ∈ Region.enum.starters, name ≠ k.word)
    (tooLong : ¬ IsReadable number) :
    Refuses (entry .enum) ((Leaf.enumValue name number).printed ++ rest) := by
  have value : Refuses enumValue ((Leaf.enumValue name number).printed ++ rest) := by
    simp only [Leaf.printed, List.append_assoc, List.cons_append]
    unfold enumValue
    refine reads_name.bind_refuses ?_
    exact refuses_expect_bind fun _ _ => (integer_refuses tooLong).bind
  unfold entry
  refine reads_nextKind.bind_refuses ?_
  have starts : headKind ((Leaf.enumValue name number).printed ++ rest) =
      some (Lexeme.word name).kind := rfl
  rw [starts, entryFrom, if_neg (Lexeme.kind_word_ne_symbol _ _), entryAt_enumValue apart]
  exact value.map

theorem contents_eq_error (frames : Nat) {hasPackage : Bool} {t : Token} {ts mid : List Token}
    {header : Header} {e : Refusal}
    (next : statementAt hasPackage t (t :: ts) = .ok (.header header, mid))
    (failed : entry (regionOf header) mid = .error e) :
    ∃ failure, contents frames hasPackage (t :: ts) = .error failure := by
  rw [contents_cons, next]
  dsimp only
  by_cases crowded : frames < framesOf header
  · rw [blockOf_of_lt crowded]
    exact ⟨_, rfl⟩
  · have inner : bodyOf (frames - framesOf header) (regionOf header) mid = .error (.refused e) := by
      have same := content_bodyOf (frames - framesOf header) (regionOf header) mid
      rw [failed] at same
      exact map_eq_error.mp same
    rw [blockOf_of_error crowded inner]
    exact ⟨_, rfl⟩

end Grammar

/-- A file with one enum, which has one value. -/
def enumDocument (number : Int) : Document :=
  ⟨"", none, [.block (.enum "E") [.leaf (.enumValue "A" number)]]⟩

theorem enumDocument_wellFormed {numbers : Int → Prop} {number : Int} (allowed : numbers number) :
    (enumDocument number).WellFormed numbers where
  admitted := by
    simp [enumDocument, Node.kind, Header.kind, Grammar.admitsStatement]
  statements := by
    have fits : (Node.leaf (.enumValue "A" number)).FitsIn (Grammar.regionOf (.enum "E")) :=
      ⟨rfl, by simp [Grammar.regionOf, Grammar.Region.starters, Keyword.word]⟩
    have value : (Node.leaf (.enumValue "A" number)).WellFormed numbers := .leaf allowed
    intro n inside
    rw [List.mem_singleton.mp inside]
    exact .block trivial (by simpa using fits) (by simpa using value)
  package := Nat.zero_le 1

/-- An enum value with too many digits is refused. -/
theorem ofTokens_enumDocument {number : Int} (tooLong : ¬ IsReadable number) {tokens : List Token}
    (spelled : tokens.map Token.lexeme = (enumDocument number).printed) (finish : Position)
    (frames : Nat) : ∃ e, Document.ofTokens frames "" ⟨tokens, finish⟩ = .error e := by
  have printed : (enumDocument number).printed = .keyword .enum :: .word "E" :: .symbol .lbrace ::
      ((Leaf.enumValue "A" number).printed ++ [.symbol .rbrace]) := by
    simp [enumDocument, Document.printed, printedDialect, printedNodes, Node.printed,
      Header.printed]
  rw [printed] at spelled
  have opening : Grammar.ReadsStatement false _ (.header (.enum "E"))
      ((Leaf.enumValue "A" number).printed ++ [.symbol .rbrace]) :=
    Grammar.readsStatement_header rfl trivial
  obtain ⟨t, more, mid, rfl, next, spelled⟩ := opening.run spelled
  have apart : ∀ k ∈ Grammar.Region.enum.starters, "A" ≠ k.word := by decide
  obtain ⟨e, failed⟩ := Grammar.enumEntry_refuses apart tooLong spelled
  obtain ⟨failure, whole⟩ := Grammar.contents_eq_error frames next failed
  cases failure <;> exact ⟨_, by rw [Document.ofTokens, whole]⟩

/-- The least number that has too many digits. -/
def longNumber : Int := Nat.pow 10 maxDecimalDigits

/-- So not all that is printed is read: neither a number with too many digits nor, on a stack of a
thousand, more than half as many messages in each other. -/
theorem long_or_deep_not_read :
    (enumDocument longNumber).WellFormed (fun _ => True) ∧
    Document.ofTokens 1000 (enumDocument longNumber).uri
      ⟨(enumDocument longNumber).printed.map (·.placed ⟨1, 1⟩), ⟨1, 1⟩⟩ ≠
      .ok (enumDocument longNumber) ∧
    (deepDocument "" 501).WellFormed (fun _ => True) ∧
    Document.ofTokens 1000 (deepDocument "" 501).uri
      ⟨(deepDocument "" 501).printed.map (·.placed ⟨1, 1⟩), ⟨1, 1⟩⟩ ≠
      .ok (deepDocument "" 501) := by
  have tooLong : ¬ IsReadable longNumber := by
    unfold IsReadable longNumber
    rw [Int.natAbs_natCast]
    exact Nat.lt_irrefl _
  obtain ⟨e, failed⟩ := ofTokens_enumDocument tooLong (Lexeme.map_placed _ ⟨1, 1⟩) ⟨1, 1⟩ 1000
  obtain ⟨passed, read⟩ := fileRead_printed (deepDocument_wellFormed "" 501)
    (Lexeme.map_placed (deepDocument "" 501).printed ⟨1, 1⟩)
  have frames : (deepDocument "" 501).frames = 1002 := deepMessages_frames 501
  have noRoom := ofTokens_of_fileRead read ⟨1, 1⟩ 1000
  rw [frames, Grammar.ifRoom, if_neg (by decide)] at noRoom
  refine ⟨enumDocument_wellFormed trivial, ?_, deepDocument_wellFormed "" 501, ?_⟩
  · intro read
    exact absurd (failed.symm.trans read) (by simp)
  · intro read
    exact absurd (noRoom.symm.trans read) (by simp)

end ProtoNames
