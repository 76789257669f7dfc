import ProtoNames.Proofs.Numerals
import ProtoNames.Proofs.Reading
import ProtoNames.Proofs.WellFormed

/-!
What is printed is read.

For each production of the grammar: on the lexemes that a well-formed declaration is printed
as it gives the declaration back, and it stops exactly behind them, whatever follows. Where a
production reads on as long as it can, what follows is asked to end it: no dot behind a name,
and a delimiter other than a dot behind an option.
-/

namespace ProtoNames

open Number Text

namespace Grammar

open Reader

variable {name type word : String} {k : Keyword} {n : Int} {ls rest : List Lexeme} {s : Symbol}

/-- A delimiter other than a dot comes next. -/
def IsDelimited (ls : List Lexeme) : Prop := ∃ s rest, s ≠ .dot ∧ ls = .symbol s :: rest

theorem isDelimited_cons (other : s ≠ .dot) : IsDelimited (.symbol s :: rest) :=
  ⟨s, rest, other, rfl⟩

/-! ### Names -/

theorem headKind_spell (dotted : IsDotted name) (apart : ¬ BeginsWith k name) :
    headKind (spell name ++ rest) ≠ some (.keyword k) := by
  rcases spell_cases dotted with ⟨word, others, -, -, -, same⟩ | ⟨word, others, -, -, -, same⟩
  · have notWord : word ≠ k.word := by
      rintro rfl
      exact apart (congrArg List.head? same)
    simp [same, Lexeme.kind_word_eq_keyword_iff, notWord]
  · simp [same]

theorem reads_word (undelimited : IsUndelimited word) :
    Reads Reader.name (spell word ++ rest) word rest := by
  rw [undelimited.spell_eq]
  exact reads_name

theorem reads_dottedName (dotted : IsDotted name) (stops : headKind rest ≠ some (.symbol .dot)) :
    Reads dottedName (spell name ++ rest) name rest := by
  have others_ : ∀ others : List String, (∀ w ∈ others, IsUndelimited w) →
      Reads (afterEach .dot Reader.name)
        (others.flatMap (fun w => .symbol .dot :: spell w) ++ rest) others rest := by
    intro others areUndelimited
    exact reads_afterEach (fun w inside _ _ => reads_word (areUndelimited w inside)) stops
  unfold dottedName
  rcases spell_cases dotted with ⟨word, others, areUndelimited, undelimited, rfl, spelled⟩ |
    ⟨word, others, areUndelimited, undelimited, rfl, spelled⟩
  · rw [spelled, List.cons_append]
    have following := others_ others areUndelimited
    refine (reads_accept_other ?_).bind (reads_name.bind (following.bind (.pure _)))
    simp
  · rw [spelled, List.cons_append, List.cons_append]
    exact (reads_accept rfl).bind (reads_name.bind ((others_ others areUndelimited).bind (.pure _)))

/-! ### Numbers and constants -/

theorem withSign_natAbs : withSign (n < 0) n.natAbs = n := by
  unfold withSign
  by_cases negative : n < 0
  · rw [if_pos (decide_eq_true negative)]
    omega
  · rw [if_neg (by simpa using negative)]
    omega

theorem reads_sign (negative : Bool) {l : Lexeme} (other : l.kind ≠ .symbol .minus) :
    Reads (accept (.symbol .minus)) (printedSign negative ++ l :: rest) negative (l :: rest) := by
  cases negative with
  | true => exact reads_accept rfl
  | false => exact reads_accept_other (by simpa [printedSign] using other)

theorem readInt_natAbs (readable : IsReadable n) :
    readInt (toString n.natAbs) = .ok n.natAbs :=
  readInt_toString.trans (if_pos readable)

theorem reads_integer (readable : IsReadable n) : Reads integer (printedInt n ++ rest) n rest := by
  unfold integer printedInt
  rw [List.append_assoc]
  refine (reads_sign _ (by simp)).bind (reads_number_bind fun t text => ?_)
  rw [text, readInt_natAbs readable]
  refine (Reads.pure (n.natAbs : Int)).bind ?_
  rw [withSign_natAbs]
  exact .pure n

theorem reads_numberConstant (readable : IsReadable n) :
    Reads (numberConstant (n < 0)) (.number (toString n.natAbs) :: rest) (.number (.int n))
      rest := by
  unfold numberConstant
  refine reads_number_bind fun t text => ?_
  have signed : (if decide (n < 0) = true then -Number.int n.natAbs else .int n.natAbs) =
      .int n := by
    rw [← congrArg Number.int (@withSign_natAbs n), withSign, apply_ite Number.int]
    rfl
  rw [text, readNumber, readInt_natAbs readable]
  refine (Reads.pure (Number.int n.natAbs)).bind ?_
  rw [signed]
  exact .pure _

/-- A truth value is read by its name. -/
theorem reads_truth (b : Bool) (stops : headKind rest ≠ some (.symbol .dot)) :
    Reads (namedConstant false) (.word (if b then "true" else "false") :: rest) (.bool b)
      rest := by
  have undelimited : IsUndelimited (if b then "true" else "false") := by
    cases b <;> decide
  have name := reads_dottedName undelimited.isDotted stops
  rw [undelimited.spell_eq] at name
  unfold namedConstant
  refine reads_peek_bind fun next => name.bind ?_
  cases b with
  | true => exact .pure _
  | false => exact .pure _

/-- What is no string and no aggregate is a number or a name, with a sign allowed. -/
theorem reads_signed (negative : Bool) {l : Lexeme} {c : Constant} (other : l.kind ≠ .string)
    (other' : ∀ s, l.kind ≠ .symbol s)
    (reads : Reads (signedConstant negative (some l.kind)) (l :: ls) c rest) :
    Reads constant (printedSign negative ++ l :: ls) c rest := by
  have neither : headKind (printedSign negative ++ l :: ls) ≠ some .string ∧
      headKind (printedSign negative ++ l :: ls) ≠ some (.symbol .lbrace) := by
    cases negative with
    | true => simp [printedSign]
    | false => simp [printedSign, other, other']
  unfold constant
  refine reads_nextKind.bind ?_
  rw [constantAt, if_neg neither.1, if_neg neither.2]
  exact (reads_sign negative (other' _)).bind (reads_nextKind.bind reads)

theorem reads_constant {c : Constant} (wellFormed : c.WellFormed IsReadable)
    (stops : IsDelimited rest) : Reads constant (c.printed ++ rest) c rest := by
  obtain ⟨s, more, other, rfl⟩ := stops
  cases c with
  | number x =>
    cases x with
    | double x => exact absurd wellFormed id
    | int n =>
      rw [Constant.printed, printedInt, List.append_assoc]
      exact reads_signed _ (by simp) (by simp) (reads_numberConstant wellFormed)
  | bool b =>
    refine reads_signed false (by simp) (by simp) ?_
    rw [signedConstant, if_neg (by simp)]
    exact reads_truth b (by simpa using other)
  | text text =>
    have chunk : Reads (constantAt (some .string)) ([.string text] ++ .symbol s :: more)
        (.text text) (.symbol s :: more) := by
      refine reads_takeAll_bind (by simp) (by simp) fun ts spelled => ?_
      obtain ⟨t, rfl, same⟩ := List.map_eq_singleton_iff.mp spelled
      have whole : textOf "" [t] = text := congrArg Lexeme.text same
      rw [whole]
      exact .pure _
    exact reads_nextKind.bind chunk

/-! ### Options -/

theorem reads_optionPart {part : String} (isPart : IsOptionPart part) :
    Reads optionPart (spell part ++ rest) part rest := by
  unfold optionPart
  rcases isPart with undelimited | ⟨extension, dotted, rfl⟩
  · refine (reads_accept_other ?_).bind (reads_word undelimited)
    rw [undelimited.spell_eq, List.singleton_append]
    simp
  · simp only [spell_parentheses, List.cons_append, List.append_assoc]
    refine (reads_accept rfl).bind ((reads_dottedName dotted ?_).bind ?_)
    · simp
    · exact reads_symbol_bind fun _ => .pure _

theorem reads_setting {o : Setting} (wellFormed : o.WellFormed IsReadable)
    (stops : IsDelimited rest) : Reads setting (o.printed ++ rest) o rest := by
  obtain ⟨⟨parts, some_, areParts, joined⟩, value⟩ := wellFormed
  obtain ⟨first, others, rfl⟩ := List.exists_cons_of_ne_nil some_
  obtain ⟨isPart, areParts⟩ := List.forall_mem_cons.mp areParts
  unfold setting Setting.printed
  rw [joined, spell_joinDots, List.append_assoc, List.append_assoc]
  refine (reads_optionPart isPart).bind ((reads_afterEach ?_ ?_).bind ?_)
  · exact fun part inside _ _ => reads_optionPart (areParts part inside)
  · simp
  · refine reads_symbol_bind fun _ => (reads_constant value stops).bind ?_
    rw [← joined]
    exact .pure o

theorem reads_optionStatement {o : Setting} (wellFormed : o.WellFormed IsReadable) :
    Reads optionStatement ((Leaf.option o).printed ++ rest) (.option o) rest := by
  unfold optionStatement
  simp only [Leaf.printed, List.append_assoc, List.cons_append]
  refine reads_keyword_bind fun _ => (reads_setting wellFormed ?_).bind ?_
  · exact isDelimited_cons (by simp)
  · exact reads_symbol_bind fun _ => .pure _

theorem reads_noSettings (stops : headKind rest ≠ some (.symbol .lbracket)) :
    Reads bracketedSettings rest [] rest := by
  unfold bracketedSettings
  exact (reads_accept_other stops).bind (.pure _)

theorem reads_bracketedSettings {os : List Setting}
    (wellFormed : ∀ o ∈ os, o.WellFormed IsReadable)
    (stops : headKind rest ≠ some (.symbol .lbracket)) :
    Reads bracketedSettings (printedSettings os ++ rest) os rest := by
  cases os with
  | nil => exact reads_noSettings stops
  | cons first others =>
    unfold bracketedSettings
    obtain ⟨wellFormed, areWellFormed⟩ := List.forall_mem_cons.mp wellFormed
    simp only [printedSettings, List.append_assoc, List.cons_append]
    refine (reads_accept rfl).bind ((reads_setting wellFormed ?_).bind ?_)
    · cases others with
      | nil => exact isDelimited_cons (by simp)
      | cons next others => exact isDelimited_cons (by simp)
    · refine (reads_afterEach ?_ (by simp)).bind (reads_symbol_bind fun _ => .pure _)
      intro o inside more ends
      refine reads_setting (areWellFormed o inside) ?_
      rcases ends with rfl | ⟨others, rfl⟩
      · exact isDelimited_cons (by simp)
      · exact isDelimited_cons (by simp)

/-! ### Fields -/

theorem startsMap_of_spelled {l l' : Lexeme} {ts : List Token}
    (spelled : ts.map Token.lexeme = l :: l' :: ls) :
    startsMap ts = (l.kind == .keyword .map && l'.kind == .symbol .langle) := by
  obtain ⟨t, others, rfl, rfl, spelled'⟩ := List.map_eq_cons_iff.mp spelled
  obtain ⟨u, others', rfl, rfl, -⟩ := List.map_eq_cons_iff.mp spelled'
  rfl

theorem reads_mapType {key : String} (isKey : IsDotted key) (isType : IsDotted type) :
    Reads mapType (.keyword .map :: .symbol .langle :: spell key ++ .symbol .comma ::
      spell type ++ [.symbol .rangle] ++ rest) (some key, type) rest := by
  simp only [List.cons_append, List.append_assoc]
  unfold mapType
  refine reads_keyword_bind fun _ => reads_symbol_bind fun _ => (reads_dottedName isKey ?_).bind ?_
  · simp
  · refine reads_symbol_bind fun _ => (reads_dottedName isType ?_).bind ?_
    · simp
    · exact reads_symbol_bind fun _ => .pure _

/-- A type that is not followed by an angle bracket is no map, even if it is named like one. -/
theorem startsMap_of_plain (dotted : IsDotted type) {ts : List Token}
    (spelled : ts.map Token.lexeme = spell type ++ .word name :: rest) : ¬ startsMap ts = true := by
  rcases spell_cases dotted with ⟨word, others, -, -, -, same⟩ | ⟨word, others, -, -, -, same⟩
  · rw [same] at spelled
    cases others with
    | nil =>
      rw [startsMap_of_spelled spelled]
      simp
    | cons w others =>
      rw [startsMap_of_spelled spelled]
      simp
  · rw [same] at spelled
    rw [startsMap_of_spelled spelled]
    simp

theorem reads_fieldType {f : Field} (wellFormed : f.WellFormed IsReadable) :
    Reads fieldType (f.printedType ++ .word name :: rest) (f.mapKey, f.type)
      (.word name :: rest) := by
  intro ts spelled
  unfold Field.printedType at spelled
  cases isMap : f.mapKey with
  | some key =>
    simp only [isMap] at spelled
    have starts : startsMap ts = true := by
      simp only [List.cons_append, List.append_assoc] at spelled
      rw [startsMap_of_spelled spelled]
      simp
    rw [fieldType, if_pos starts]
    exact reads_mapType (wellFormed.key key isMap) wellFormed.type spelled
  | none =>
    simp only [isMap] at spelled
    rw [fieldType, if_neg (startsMap_of_plain wellFormed.type spelled)]
    exact (reads_dottedName wellFormed.type (by simp)).map spelled

theorem reads_field {f : Field} (wellFormed : f.WellFormed IsReadable) :
    Reads (field f.label) (f.printedBare ++ rest) { f with oneof := none } rest := by
  simp only [Field.printedBare, List.cons_append, List.append_assoc]
  unfold field
  refine (reads_fieldType wellFormed).bind (reads_name.bind (reads_symbol_bind fun _ => ?_))
  refine (reads_integer wellFormed.number).bind ?_
  refine (reads_bracketedSettings wellFormed.options (by simp)).bind ?_
  exact reads_symbol_bind fun _ => .pure _

theorem reads_label {l : Option Label}
    (other : l = none → ∀ k ∈ labelWords, headKind rest ≠ some (.keyword k)) :
    Reads label (printedLabel l ++ rest) l rest := by
  unfold label
  cases l with
  | none =>
    have other := other rfl
    refine (reads_accept_other (other _ (by decide))).bind ?_
    refine (reads_accept_other (other _ (by decide))).bind ?_
    exact (reads_accept_other (other _ (by decide))).bind (.pure _)
  | some l =>
    cases l with
    | optional => exact (reads_accept rfl).bind (.pure _)
    | required =>
      exact (reads_accept_other (by simp [printedLabel, Label.keyword])).bind
        ((reads_accept rfl).bind (.pure _))
    | repeated =>
      refine (reads_accept_other (by simp [printedLabel, Label.keyword])).bind ?_
      refine (reads_accept_other (by simp [printedLabel, Label.keyword])).bind ?_
      exact (reads_accept rfl).bind (.pure _)

/-- The type of a map begins with no other word, and every other type with its own. -/
theorem headKind_printedBare {f : Field} (dotted : IsDotted f.type) (notMap : k ≠ .map)
    (apart : f.mapKey = none → ¬ BeginsWith k f.type) :
    headKind (f.printedBare ++ rest) ≠ some (.keyword k) := by
  simp only [Field.printedBare, Field.printedType, List.append_assoc]
  cases isMap : f.mapKey with
  | some key => simp [notMap.symm]
  | none => exact headKind_spell dotted (apart isMap)

theorem reads_fieldOrGroup {f : Field} (wellFormed : f.WellFormed IsReadable)
    (apart : f.mapKey = none → ∀ k ∈ (if f.label.isSome then [.group] else memberStarters),
      ¬ BeginsWith k f.type) :
    Reads fieldOrGroup (f.printedAlone ++ rest) (.leaf (.field { f with oneof := none }))
      rest := by
  have notGroup : headKind (f.printedBare ++ rest) ≠ some (.keyword .group) := by
    refine headKind_printedBare wellFormed.type (by simp) fun isPlain => apart isPlain _ ?_
    cases f.label <;> simp [memberStarters]
  unfold fieldOrGroup Field.printedAlone
  rw [List.append_assoc]
  refine (reads_label ?_).bind (reads_nextKind.bind ?_)
  · intro none k isLabel
    have notMap : k ≠ .map := by
      rintro rfl
      exact absurd isLabel (by decide)
    refine headKind_printedBare wellFormed.type notMap fun isPlain => apart isPlain k ?_
    rw [none]
    exact List.mem_cons_of_mem _ isLabel
  · rw [fieldOrGroupAt, if_neg notGroup]
    exact (reads_field wellFormed).map

theorem reads_group {number : Int} {l : Option Label} (readable : IsReadable number) :
    Reads fieldOrGroup ((Header.group name number l).printed ++ .symbol .lbrace :: rest)
      (.header (.group name number l)) rest := by
  simp only [Header.printed, List.append_assoc, List.cons_append]
  unfold fieldOrGroup
  refine (reads_label ?_).bind (reads_nextKind.bind ?_)
  · intro _ k isLabel same
    have isGroup : k = .group := by simpa using same.symm
    rw [isGroup] at isLabel
    exact absurd isLabel (by decide)
  · rw [fieldOrGroupAt, if_pos (by simp)]
    refine Reads.map ?_
    unfold groupHeader
    refine reads_keyword_bind fun _ => reads_name.bind (reads_symbol_bind fun _ => ?_)
    refine (reads_integer readable).bind ?_
    refine (reads_noSettings (by simp)).bind ?_
    exact reads_symbol_bind fun _ => .pure _

/-! ### Statements of a file -/

theorem reads_dialectStatement {dialect : String} :
    Reads dialectStatement (printedDialect (some dialect) ++ rest) dialect rest := by
  unfold dialectStatement
  refine reads_keyword_bind fun _ => reads_symbol_bind fun _ => reads_string_bind fun t text => ?_
  refine reads_symbol_bind fun _ => ?_
  rw [text]
  exact .pure dialect

theorem reads_packageStatement (dotted : IsDotted name) :
    Reads packageStatement ((Leaf.package name).printed ++ rest) (.package name) rest := by
  simp only [Leaf.printed, List.append_assoc, List.cons_append]
  unfold packageStatement
  refine reads_keyword_bind fun _ => (reads_dottedName dotted (by simp)).bind ?_
  exact reads_symbol_bind fun _ => .pure _

theorem reads_importMode {mode : ImportMode} {path : String} :
    Reads importMode (mode.printed ++ .string path :: rest) mode (.string path :: rest) := by
  unfold importMode
  cases mode with
  | plain =>
    refine (reads_accept_other (by simp [ImportMode.printed])).bind ?_
    exact (reads_accept_other (by simp [ImportMode.printed])).bind (.pure _)
  | «public» => exact (reads_accept rfl).bind (.pure _)
  | weak =>
    refine (reads_accept_other (by simp [ImportMode.printed])).bind ?_
    exact (reads_accept rfl).bind (.pure _)

theorem reads_importStatement {i : Import} :
    Reads importStatement ((Leaf.importing i).printed ++ rest) (.importing i) rest := by
  simp only [Leaf.printed, List.append_assoc, List.cons_append]
  unfold importStatement
  refine reads_keyword_bind fun _ => reads_importMode.bind (reads_string_bind fun t text => ?_)
  refine reads_symbol_bind fun _ => ?_
  rw [text]
  exact .pure _

/-! ### Other declarations -/

theorem reads_enumValue (readable : IsReadable n) :
    Reads enumValue ((Leaf.enumValue name n).printed ++ rest) (.enumValue name n) rest := by
  simp only [Leaf.printed, List.append_assoc, List.cons_append]
  unfold enumValue
  refine reads_name.bind (reads_symbol_bind fun _ => (reads_integer readable).bind ?_)
  refine (reads_noSettings (by simp)).bind ?_
  exact reads_symbol_bind fun _ => .pure _

theorem reads_rpcType {streaming : Bool} (isType : IsRpcType streaming type) :
    Reads rpcType (printedRpcType streaming type ++ rest) (streaming, type) rest := by
  obtain ⟨dotted, apart⟩ := isType
  simp only [printedRpcType, List.append_assoc, List.cons_append]
  unfold rpcType
  have word : Reads (accept (.keyword .stream))
      ((if streaming then [.keyword .stream] else []) ++ (spell type ++ .symbol .rparen :: rest))
      streaming (spell type ++ .symbol .rparen :: rest) := by
    cases streaming with
    | true => exact reads_accept rfl
    | false => exact reads_accept_other (headKind_spell dotted (apart rfl))
  refine reads_symbol_bind fun _ => word.bind ((reads_dottedName dotted (by simp)).bind ?_)
  exact reads_symbol_bind fun _ => .pure _

theorem reads_rpc {r : Rpc} (input : IsRpcType r.clientStreaming r.input)
    (output : IsRpcType r.serverStreaming r.output) :
    Reads rpc ((Leaf.rpc r).printed ++ rest) (.rpc r) rest := by
  simp only [Leaf.printed, Rpc.printed, List.append_assoc, List.cons_append]
  unfold rpc
  refine reads_keyword_bind fun _ => reads_name.bind ((reads_rpcType input).bind ?_)
  refine reads_keyword_bind fun _ => (reads_rpcType output).bind (reads_nextKind.bind ?_)
  rw [headKind_cons, rpcEndAt, if_neg (by simp)]
  have ends : Reads (symbol .semicolon >>= fun _ => pure ()) (.symbol .semicolon :: rest) () rest :=
    reads_symbol_bind fun _ => .pure ()
  exact ends.bind (.pure _)

/-! ### Headers -/

theorem reads_namedHeader {k : Keyword} :
    Reads (namedHeader k) (.keyword k :: .word name :: .symbol .lbrace :: rest) name rest := by
  unfold namedHeader
  exact reads_keyword_bind fun _ => reads_name.bind (reads_symbol_bind fun _ => .pure _)

theorem reads_extendHeader {target : String} (dotted : IsDotted target) :
    Reads extendHeader ((Header.extend target).printed ++ .symbol .lbrace :: rest)
      (.extend target) rest := by
  unfold extendHeader
  refine reads_keyword_bind fun _ => (reads_dottedName dotted (by simp)).bind ?_
  exact reads_symbol_bind fun _ => .pure _

end Grammar

end ProtoNames
