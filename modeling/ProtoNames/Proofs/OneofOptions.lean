import ProtoNames.Proofs.Locality
import ProtoNames.Proofs.RoundTrip

/-!
Options that are put between the members of a oneof.

`BetweenMembers`, `InOneof`: reading a body, or a file, comes to a place between the members of
a oneof. What is read before such a place and after it does not depend on what stands there
(`entry_respelled`, `BodyRead.respelled`, `FileRead.respelled`). So whatever a oneof passes over
can be put there (`BetweenMembers.insert`, `InOneof.insert`), and an option is passed over if and
only if it has no semicolon but its last token (`parse_insert_option`).
-/

namespace ProtoNames

namespace Grammar

open Reader

/-! ### Entries by what is inside them -/

/-- The region that an entry opens, if any. -/
def Entry.inner? : Entry → Option Region
  | .header h => some (regionOf h)
  | .oneof _ => some .oneof
  | _ => none

/-- How many frames are taken by what is inside an entry. -/
def Entry.frames : Entry → Nat
  | .header h => framesOf h
  | .oneof _ => oneofFrames
  | _ => 0

/-- What an entry declares, given what is declared inside it. -/
def Entry.declared (e : Entry) (inside : List Node) : List Node :=
  match e with
  | .close => []
  | .skip => []
  | .leaf l => [.leaf l]
  | .header h => [.block h inside]
  | .oneof name => inside.map (markOneof name)

variable {r inner : Region} {ts mid inside after rest : List Token} {e : Entry} {t : Token}
  {nodes : List Node} {passed : List (List Token)} {needed : Nat}

theorem BodyRead.plain (next : entry r ts = .ok (e, mid)) (opensNone : e.inner? = none)
    (goesOn : e ≠ .close) (others : BodyRead needed r mid nodes passed rest) :
    ∃ passed', BodyRead needed r ts (e.declared [] ++ nodes) passed' rest := by
  cases e with
  | close => exact absurd rfl goesOn
  | skip =>
    obtain ⟨skipped, split⟩ := Shrinks.suffix next
    exact ⟨_, .skip next split others⟩
  | leaf l => exact ⟨_, .leaf next others⟩
  | header h => cases opensNone
  | oneof name => cases opensNone

theorem BodyRead.nested {deep : Nat} {within : List Node} {passed' : List (List Token)}
    (next : entry r ts = .ok (e, mid)) (opens : e.inner? = some inner)
    (body : BodyRead deep inner mid within passed inside)
    (closing : symbol .rbrace inside = .ok (t, after))
    (others : BodyRead needed r after nodes passed' rest) :
    BodyRead (max (e.frames + deep) needed) r ts (e.declared within ++ nodes) (passed ++ passed')
      rest := by
  cases e with
  | close => cases opens
  | skip => cases opens
  | leaf l => cases opens
  | header h =>
    cases opens
    exact .block next body closing others
  | oneof name =>
    cases opens
    exact .oneof next body closing others

/-- An entry that opens nothing is followed by the others. -/
theorem BodyRead.of_plain (read : BodyRead needed r ts nodes passed rest)
    (next : entry r ts = .ok (e, mid)) (opensNone : e.inner? = none) (goesOn : e ≠ .close) :
    ∃ nodes' passed', nodes = e.declared [] ++ nodes' ∧
      BodyRead needed r mid nodes' passed' rest := by
  cases read with
  | close next' =>
    cases next.symm.trans next'
    exact absurd rfl goesOn
  | skip next' _ others =>
    cases next.symm.trans next'
    exact ⟨_, _, rfl, others⟩
  | leaf next' others =>
    cases next.symm.trans next'
    exact ⟨_, _, rfl, others⟩
  | block next' | oneof next' =>
    cases next.symm.trans next'
    cases opensNone

/-- An entry that opens a region is followed by what is inside, a closing brace and the others. -/
theorem BodyRead.of_nested (read : BodyRead needed r ts nodes passed rest)
    (next : entry r ts = .ok (e, mid)) (opens : e.inner? = some inner) :
    ∃ deep needed' within nodes' passed₁ passed₂ inside t after,
      needed = max (e.frames + deep) needed' ∧ nodes = e.declared within ++ nodes' ∧
      BodyRead deep inner mid within passed₁ inside ∧ symbol .rbrace inside = .ok (t, after) ∧
      BodyRead needed' r after nodes' passed₂ rest := by
  cases read with
  | close next' | skip next' | leaf next' =>
    cases next.symm.trans next'
    cases opens
  | block next' body closing others | oneof next' body closing others =>
    cases next.symm.trans next'
    cases opens
    exact ⟨_, _, _, _, _, _, _, _, _, rfl, rfl, body, closing, others⟩

/-- There is one way to read a body. -/
theorem BodyRead.unique {needed' : Nat} {nodes' : List Node} {passed' : List (List Token)}
    {rest' : List Token} (read : BodyRead needed r ts nodes passed rest)
    (read' : BodyRead needed' r ts nodes' passed' rest') : nodes = nodes' ∧ rest = rest' := by
  have same := (bodyOf_of_bodyRead read (max needed needed')).symm.trans
    (bodyOf_of_bodyRead read' (max needed needed'))
  rw [ifRoom, ifRoom, if_pos (Nat.le_max_left ..), if_pos (Nat.le_max_right ..)] at same
  exact Prod.mk.inj (Except.ok.inj same)

/-! ### Entries elsewhere -/

/-- An entry is read from the lexemes that it takes, whatever follows them. Where a body ends,
the closing brace must follow. -/
theorem entry_respelled (next : entry r ts = .ok (e, mid)) (left : mid ≠ []) :
    ∃ taken, taken ++ mid = ts ∧ (e ≠ .close → taken ≠ []) ∧
      ∀ more, (e = .close → headKind more = headKind (mid.map Token.lexeme)) →
        Reads (entry r) (taken.map Token.lexeme ++ more) e more := by
  obtain ⟨k, ts', first, second⟩ := bind_eq_ok.mp next
  cases first
  cases ts with
  | nil =>
    cases second
    exact absurd rfl left
  | cons t others =>
    have second : entryFrom r (some t.kind) (t :: others) = .ok (e, mid) := second
    rw [entryFrom] at second
    by_cases closes : t.kind = .symbol .rbrace
    · rw [if_pos closes] at second
      cases second
      refine ⟨[], rfl, fun goesOn => absurd rfl goesOn, fun more same => reads_nextKind.bind ?_⟩
      have here : headKind more = some (.symbol .rbrace) :=
        (same rfl).trans (congrArg some closes)
      change Reads (entryFrom r (headKind more)) more .close more
      rw [here]
      exact .pure _
    rw [if_neg closes] at second
    have shorter := Takes.shorter second
    obtain ⟨taken, split, reads⟩ := Sealed.reads second left
    cases taken with
    | nil =>
      obtain rfl : mid = t :: others := split
      exact absurd shorter (Nat.lt_irrefl _)
    | cons u taken =>
      obtain ⟨rfl, -⟩ := List.cons.inj split
      exact ⟨u :: taken, split, fun _ => by simp, fun more _ => reads_entry rfl closes (reads more)⟩

theorem rbrace_respelled (closing : symbol .rbrace inside = .ok (t, after)) {more : List Lexeme}
    {ts' : List Token} (spelled : ts'.map Token.lexeme = t.lexeme :: more) :
    ∃ t' after', symbol .rbrace ts' = .ok (t', after') ∧ after'.map Token.lexeme = more := by
  obtain ⟨-, closes⟩ := symbol_eq_ok closing
  obtain ⟨t', after', rfl, here, spelled⟩ := List.map_eq_cons_iff.mp spelled
  have closes' : t'.kind = .symbol .rbrace := (congrArg Lexeme.kind here).trans closes
  exact ⟨t', after', if_pos (beq_iff_eq.mpr closes'), spelled⟩

theorem BodyRead.ne_nil (read : BodyRead needed r ts nodes passed rest) (left : rest ≠ []) :
    ts ≠ [] := by
  rintro rfl
  exact left (List.suffix_nil.mp read.suffix)

/-- A body is read from the lexemes up to its end, if a closing brace follows there. -/
theorem BodyRead.respelled (read : BodyRead needed r ts nodes passed rest) (left : rest ≠ []) :
    ∃ taken, taken ++ rest = ts ∧ ∀ more, headKind more = headKind (rest.map Token.lexeme) →
      ∀ ts' : List Token, ts'.map Token.lexeme = taken.map Token.lexeme ++ more →
        ∃ passed' rest',
          BodyRead needed r ts' nodes passed' rest' ∧ rest'.map Token.lexeme = more := by
  induction read with
  | close next =>
    obtain ⟨taken, rfl, -, reads⟩ := entry_respelled next left
    refine ⟨taken, rfl, fun more same ts' spelled => ?_⟩
    obtain ⟨rest', next', spelled⟩ := reads more (fun _ => same) spelled
    exact ⟨[], rest', .close next', spelled⟩
  | skip next _ others ih | leaf next others ih =>
    obtain ⟨taken', rfl, reads'⟩ := ih left
    obtain ⟨taken, split, -, reads⟩ := entry_respelled next (others.ne_nil left)
    refine ⟨taken ++ taken', by rw [List.append_assoc, split], fun more same ts' spelled => ?_⟩
    rw [List.map_append, List.append_assoc] at spelled
    obtain ⟨mid', next', spelled⟩ := reads _ (by simp) spelled
    obtain ⟨_, rest', others', spelled⟩ := reads' more same mid' spelled
    obtain ⟨_, whole⟩ := BodyRead.plain next' rfl (by simp) others'
    exact ⟨_, rest', whole, spelled⟩
  | @block _ _ r ts mid inside after rest header t _ _ _ _ next body closing others ihBody ih
  | @oneof _ _ r ts mid inside after rest name t _ _ _ _ next body closing others ihBody ih =>
    obtain ⟨taken', rfl, reads'⟩ := ih left
    obtain ⟨rfl, -⟩ := symbol_eq_ok closing
    obtain ⟨within, rfl, readsWithin⟩ := ihBody (by simp)
    obtain ⟨taken, rfl, -, reads⟩ := entry_respelled next (by simp)
    refine ⟨taken ++ (within ++ t :: taken'), by simp, fun more same ts' spelled => ?_⟩
    simp only [List.map_append, List.map_cons, List.append_assoc, List.cons_append] at spelled
    obtain ⟨mid', next', spelled⟩ := reads _ (by simp) spelled
    obtain ⟨_, inside', body', spelled⟩ :=
      readsWithin (t.lexeme :: (taken'.map Token.lexeme ++ more)) rfl mid' spelled
    obtain ⟨t', after', closing', spelled⟩ := rbrace_respelled closing spelled
    obtain ⟨_, rest', others', spelled⟩ := reads' more same after' spelled
    exact ⟨_, rest', .nested next' rfl body' closing' others', spelled⟩

theorem BodyRead.respelled_same (read : BodyRead needed r ts nodes passed rest) (left : rest ≠ [])
    {ts' : List Token} (spelled : ts'.map Token.lexeme = ts.map Token.lexeme) :
    ∃ passed' rest', BodyRead needed r ts' nodes passed' rest' ∧
      rest'.map Token.lexeme = rest.map Token.lexeme := by
  obtain ⟨taken, rfl, reads⟩ := read.respelled left
  rw [List.map_append] at spelled
  exact reads _ rfl ts' spelled

/-! ### Places between members -/

/-- Reading a region comes to a place between the members of a oneof, or before the first or
behind the last of them. -/
inductive BetweenMembers : Region → List Token → List Token → Prop
  | here {after : List Token} : BetweenMembers .oneof after after
  | past {r : Region} {ts mid after : List Token} {e : Entry} :
      entry r ts = .ok (e, mid) → e.inner? = none → e ≠ .close →
      BetweenMembers r mid after → BetweenMembers r ts after
  | inside {r inner : Region} {ts mid after : List Token} {e : Entry} :
      entry r ts = .ok (e, mid) → e.inner? = some inner →
      BetweenMembers inner mid after → BetweenMembers r ts after
  | beyond {r inner : Region} {ts mid inside rest after : List Token} {e : Entry} {t : Token}
      {needed : Nat} {nodes : List Node} {passed : List (List Token)} :
      entry r ts = .ok (e, mid) → e.inner? = some inner →
      BodyRead needed inner mid nodes passed inside → symbol .rbrace inside = .ok (t, rest) →
      BetweenMembers r rest after → BetweenMembers r ts after

/-- What a oneof passes over can stand between its members. -/
theorem BetweenMembers.insert (place : BetweenMembers r ts after)
    (read : BodyRead needed r ts nodes passed rest) (left : rest ≠ []) {added : List Lexeme}
    (ignored : ∀ more, Reads (entry .oneof) (added ++ more) .skip more) :
    ∃ before, before ++ after = ts ∧ (r = .oneof ∨ before ≠ []) ∧
      ∀ ts' : List Token,
        ts'.map Token.lexeme = before.map Token.lexeme ++ (added ++ after.map Token.lexeme) →
        ∃ passed' rest', BodyRead needed r ts' nodes passed' rest' ∧
          rest'.map Token.lexeme = rest.map Token.lexeme := by
  induction place generalizing needed nodes passed rest with
  | here =>
    refine ⟨[], rfl, .inl rfl, fun ts' spelled => ?_⟩
    obtain ⟨mid, next, spelled⟩ := ignored _ spelled
    obtain ⟨passed', rest', others, spelled⟩ := read.respelled_same left spelled
    obtain ⟨skipped, split⟩ := Shrinks.suffix next
    exact ⟨_, rest', .skip next split others, spelled⟩
  | past next opensNone goesOn _ ih =>
    obtain ⟨nodes', passed', rfl, others⟩ := read.of_plain next opensNone goesOn
    obtain ⟨before, rfl, -, inserted⟩ := ih others left
    obtain ⟨taken, rfl, nonempty, reads⟩ := entry_respelled next (others.ne_nil left)
    refine ⟨taken ++ before, List.append_assoc _ _ _, .inr (by simp [nonempty goesOn]),
      fun ts' spelled => ?_⟩
    rw [List.map_append, List.append_assoc] at spelled
    obtain ⟨mid', next', spelled⟩ := reads _ (fun ends => absurd ends goesOn) spelled
    obtain ⟨_, rest', others', spelled⟩ := inserted mid' spelled
    obtain ⟨_, whole⟩ := BodyRead.plain next' opensNone goesOn others'
    exact ⟨_, rest', whole, spelled⟩
  | @inside r inner ts mid after e next opens _ ih =>
    obtain ⟨deep, needed', within, nodes', passed₁, passed₂, inside, t, rest₁, rfl, rfl, body,
      closing, others⟩ := read.of_nested next opens
    have goesOn : e ≠ .close := by rintro rfl; cases opens
    obtain ⟨rfl, -⟩ := symbol_eq_ok closing
    obtain ⟨before, rfl, -, inserted⟩ := ih body (by simp)
    obtain ⟨taken, rfl, nonempty, reads⟩ := entry_respelled next (body.ne_nil (by simp))
    refine ⟨taken ++ before, List.append_assoc _ _ _, .inr (by simp [nonempty goesOn]),
      fun ts' spelled => ?_⟩
    rw [List.map_append, List.append_assoc] at spelled
    obtain ⟨mid', next', spelled⟩ := reads _ (fun ends => absurd ends goesOn) spelled
    obtain ⟨_, inside', body', spelled⟩ := inserted mid' spelled
    obtain ⟨t', rest₂, closing', spelled⟩ := rbrace_respelled closing spelled
    obtain ⟨_, rest', others', spelled⟩ := others.respelled_same left spelled
    exact ⟨_, rest', .nested next' opens body' closing' others', spelled⟩
  | @beyond r inner ts mid inside rest₁ after e t _ _ _ next opens met closed _ ih =>
    obtain ⟨deep, needed', within, nodes', passed₁, passed₂, inside, t, rest₁, rfl, rfl, body,
      closing, others⟩ := read.of_nested next opens
    obtain ⟨-, rfl⟩ := met.unique body
    cases closed.symm.trans closing
    have goesOn : e ≠ .close := by rintro rfl; cases opens
    have whole := (symbol_eq_ok closing).1
    obtain ⟨before, rfl, -, inserted⟩ := ih others left
    obtain ⟨group, split, readsGroup⟩ := body.respelled (by simp [whole])
    obtain ⟨taken, rfl, nonempty, reads⟩ := entry_respelled next (by simp [← split, whole])
    refine ⟨taken ++ (group ++ t :: before), by simp [← split, whole],
      .inr (by simp [nonempty goesOn]), fun ts' spelled => ?_⟩
    simp only [List.map_append, List.map_cons, List.append_assoc, List.cons_append] at spelled
    obtain ⟨mid', next', spelled⟩ := reads _ (fun ends => absurd ends goesOn) spelled
    obtain ⟨_, inside', body', spelled⟩ := readsGroup _ (by rw [whole]; rfl) mid' spelled
    obtain ⟨t', rest₂, closing', spelled⟩ := rbrace_respelled closing spelled
    obtain ⟨_, rest', others', spelled⟩ := inserted rest₂ spelled
    exact ⟨_, rest', .nested next' opens body' closing' others', spelled⟩

/-! ### Files -/

/-- The dialects that a statement states. -/
def Statement.dialects : Statement → List String
  | .dialect name => [name]
  | _ => []

/-- The nodes that a statement is, apart from blocks. -/
def Statement.declared : Statement → List Node
  | .leaf l => [.leaf l]
  | _ => []

/-- Whether a statement begins a block. -/
def Statement.isHeader : Statement → Bool
  | .header _ => true
  | _ => false

/-- Whether a statement is a package statement. -/
def Statement.isPackage : Statement → Bool
  | .leaf l => Grammar.isPackage l
  | _ => false

section Files

variable {hasPackage : Bool} {u : Token} {us : List Token} {s : Statement} {h : Header}
  {dialects : List String}

theorem FileRead.plain (next : statementAt hasPackage t (t :: us) = .ok (s, mid))
    (noHeader : s.isHeader = false)
    (others : FileRead needed (hasPackage || s.isPackage) mid dialects nodes passed) :
    FileRead needed hasPackage (t :: us) (s.dialects ++ dialects) (s.declared ++ nodes) passed := by
  cases s with
  | blank =>
    have others : FileRead needed hasPackage mid dialects nodes passed := by
      simpa [Statement.isPackage] using others
    exact .blank next others
  | dialect name =>
    have others : FileRead needed hasPackage mid dialects nodes passed := by
      simpa [Statement.isPackage] using others
    exact .dialect next others
  | leaf l => exact .leaf next others
  | header h => cases noHeader

theorem FileRead.of_plain (read : FileRead needed hasPackage (t :: us) dialects nodes passed)
    (next : statementAt hasPackage t (t :: us) = .ok (s, mid)) (noHeader : s.isHeader = false) :
    ∃ dialects' nodes', dialects = s.dialects ++ dialects' ∧ nodes = s.declared ++ nodes' ∧
      FileRead needed (hasPackage || s.isPackage) mid dialects' nodes' passed := by
  cases read with
  | blank next' others | dialect next' others =>
    cases next.symm.trans next'
    exact ⟨_, _, rfl, rfl, by simpa [Statement.isPackage] using others⟩
  | leaf next' others =>
    cases next.symm.trans next'
    exact ⟨_, _, rfl, rfl, others⟩
  | block next' =>
    cases next.symm.trans next'
    cases noHeader

theorem FileRead.of_block (read : FileRead needed hasPackage (t :: us) dialects nodes passed)
    (next : statementAt hasPackage t (t :: us) = .ok (.header h, mid)) :
    ∃ deep needed' within nodes' passed₁ passed₂ inside u after,
      needed = max (framesOf h + deep) needed' ∧ nodes = .block h within :: nodes' ∧
      BodyRead deep (regionOf h) mid within passed₁ inside ∧
      symbol .rbrace inside = .ok (u, after) ∧
      FileRead needed' hasPackage after dialects nodes' passed₂ := by
  cases read with
  | blank next' | dialect next' | leaf next' => cases next.symm.trans next'
  | block next' body closing others =>
    cases next.symm.trans next'
    exact ⟨_, _, _, _, _, _, _, _, _, rfl, rfl, body, closing, others⟩

/-- What a statement begins with matters by its lexeme alone. -/
theorem statementAt_congr (hasPackage : Bool) {t t' : Token} (same : t.lexeme = t'.lexeme) :
    statementAt hasPackage t = statementAt hasPackage t' := by
  have kind : t.kind = t'.kind := congrArg Lexeme.kind same
  have edition : startsEdition t = startsEdition t' := by
    rw [startsEdition, startsEdition, kind, text_eq_of_lexeme same]
  unfold statementAt
  rw [kind, edition]

/-- A statement is read from the lexemes that it takes, if a token of the same sort follows. -/
theorem statement_respelled (next : statementAt hasPackage t (t :: us) = .ok (s, mid)) :
    ∃ taken, taken ≠ [] ∧ taken ++ mid = t :: us ∧
      ∀ more, headKind more = headKind (mid.map Token.lexeme) →
        ∀ ts' : List Token, ts'.map Token.lexeme = taken.map Token.lexeme ++ more →
          ∃ t' us' mid', ts' = t' :: us' ∧ statementAt hasPackage t' (t' :: us') = .ok (s, mid') ∧
            mid'.map Token.lexeme = more := by
  have shorter := Takes.shorter next
  obtain ⟨taken, split, reads⟩ := Local.reads next
  cases taken with
  | nil =>
    obtain rfl : mid = t :: us := split
    exact absurd shorter (Nat.lt_irrefl _)
  | cons t₁ taken =>
    obtain ⟨rfl, -⟩ := List.cons.inj split
    refine ⟨t₁ :: taken, by simp, split, fun more same ts' spelled => ?_⟩
    obtain ⟨mid', next', left⟩ := reads more same spelled
    obtain ⟨t', us', rfl, here, -⟩ := List.map_eq_cons_iff.mp spelled
    rw [statementAt_congr hasPackage here.symm] at next'
    exact ⟨t', us', mid', rfl, next', left⟩

/-- A file is read wherever its tokens stand. -/
theorem FileRead.respelled (read : FileRead needed hasPackage ts dialects nodes passed)
    {ts' : List Token} (spelled : ts'.map Token.lexeme = ts.map Token.lexeme) :
    ∃ passed', FileRead needed hasPackage ts' dialects nodes passed' := by
  induction read generalizing ts' with
  | finish =>
    obtain rfl := List.map_eq_nil_iff.mp spelled
    exact ⟨[], .finish⟩
  | blank next _ ih | dialect next _ ih | leaf next _ ih =>
    obtain ⟨taken, -, split, reads⟩ := statement_respelled next
    rw [← split, List.map_append] at spelled
    obtain ⟨t', us', mid', rfl, next', spelled⟩ := reads _ rfl ts' spelled
    obtain ⟨passed', others'⟩ := ih spelled
    exact ⟨passed', .plain next' rfl (by simpa [Statement.isPackage] using others')⟩
  | block next body closing _ ih =>
    obtain ⟨taken, -, split, reads⟩ := statement_respelled next
    rw [← split, List.map_append] at spelled
    obtain ⟨t', us', mid', rfl, next', spelled⟩ := reads _ rfl ts' spelled
    obtain ⟨rfl, -⟩ := symbol_eq_ok closing
    obtain ⟨_, inside', body', spelled⟩ := body.respelled_same (by simp) spelled
    obtain ⟨u', after', closing', spelled⟩ := rbrace_respelled closing spelled
    obtain ⟨_, others'⟩ := ih spelled
    exact ⟨_, .block next' body' closing' others'⟩

theorem headKind_of_ne_nil {before : List Token} (nonempty : before ≠ []) (after : List Token)
    (more : List Lexeme) : headKind (before.map Token.lexeme ++ more) =
      headKind ((before ++ after).map Token.lexeme) := by
  rw [List.map_append]
  exact headKind_append_of_ne_nil (by simpa using nonempty) _ _

/-- Reading a file comes to a place between the members of a oneof, or before the first or behind
the last of them. -/
inductive InOneof : Bool → List Token → List Token → Prop
  | past {hasPackage : Bool} {t : Token} {us mid after : List Token} {s : Statement} :
      statementAt hasPackage t (t :: us) = .ok (s, mid) → s.isHeader = false →
      InOneof (hasPackage || s.isPackage) mid after → InOneof hasPackage (t :: us) after
  | inside {hasPackage : Bool} {t : Token} {us mid after : List Token} {h : Header} :
      statementAt hasPackage t (t :: us) = .ok (.header h, mid) →
      BetweenMembers (regionOf h) mid after → InOneof hasPackage (t :: us) after
  | beyond {hasPackage : Bool} {t u : Token} {us mid inside rest after : List Token} {h : Header}
      {needed : Nat} {nodes : List Node} {passed : List (List Token)} :
      statementAt hasPackage t (t :: us) = .ok (.header h, mid) →
      BodyRead needed (regionOf h) mid nodes passed inside → symbol .rbrace inside = .ok (u, rest) →
      InOneof hasPackage rest after → InOneof hasPackage (t :: us) after

/-- What a oneof passes over can stand between its members, and the file is read as before. -/
theorem InOneof.insert (place : InOneof hasPackage ts after)
    (read : FileRead needed hasPackage ts dialects nodes passed) {added : List Lexeme}
    (ignored : ∀ more, Reads (entry .oneof) (added ++ more) .skip more) :
    ∃ before, before ≠ [] ∧ before ++ after = ts ∧ ∀ ts' : List Token,
      ts'.map Token.lexeme = before.map Token.lexeme ++ (added ++ after.map Token.lexeme) →
      ∃ passed', FileRead needed hasPackage ts' dialects nodes passed' := by
  induction place generalizing needed dialects nodes passed with
  | past next noHeader _ ih =>
    obtain ⟨dialects', nodes', rfl, rfl, others⟩ := read.of_plain next noHeader
    obtain ⟨before, nonempty, rfl, inserted⟩ := ih others
    obtain ⟨taken, -, split, reads⟩ := statement_respelled next
    refine ⟨taken ++ before, by simp [nonempty], by rw [List.append_assoc, split],
      fun ts' spelled => ?_⟩
    rw [List.map_append, List.append_assoc] at spelled
    obtain ⟨t', us', mid', rfl, next', spelled⟩ :=
      reads _ (headKind_of_ne_nil nonempty _ _) ts' spelled
    obtain ⟨passed', others'⟩ := inserted mid' spelled
    exact ⟨passed', .plain next' noHeader others'⟩
  | @inside hasPackage t us mid after h next place =>
    obtain ⟨deep, needed', within, nodes', passed₁, passed₂, inside, u, rest, rfl, rfl, body,
      closing, others⟩ := read.of_block next
    obtain ⟨rfl, -⟩ := symbol_eq_ok closing
    obtain ⟨before, rfl, stands, inserted⟩ := place.insert body (by simp) ignored
    have nonempty : before ≠ [] := stands.resolve_left (by cases h <;> simp [regionOf])
    obtain ⟨taken, -, split, reads⟩ := statement_respelled next
    refine ⟨taken ++ before, by simp [nonempty], by rw [List.append_assoc, split],
      fun ts' spelled => ?_⟩
    rw [List.map_append, List.append_assoc] at spelled
    obtain ⟨t', us', mid', rfl, next', spelled⟩ :=
      reads _ (headKind_of_ne_nil nonempty _ _) ts' spelled
    obtain ⟨_, inside', body', spelled⟩ := inserted mid' spelled
    obtain ⟨u', rest', closing', spelled⟩ := rbrace_respelled closing spelled
    obtain ⟨_, others'⟩ := others.respelled spelled
    exact ⟨_, .block next' body' closing' others'⟩
  | @beyond hasPackage t u us mid inside rest after h _ _ _ next met closed _ ih =>
    obtain ⟨deep, needed', within, nodes', passed₁, passed₂, inside, u, rest, rfl, rfl, body,
      closing, others⟩ := read.of_block next
    obtain ⟨-, rfl⟩ := met.unique body
    cases closed.symm.trans closing
    have whole := (symbol_eq_ok closing).1
    obtain ⟨before, nonempty, rfl, inserted⟩ := ih others
    obtain ⟨group, splitGroup, readsGroup⟩ := body.respelled (by simp [whole])
    obtain ⟨taken, -, split, reads⟩ := statement_respelled next
    refine ⟨taken ++ (group ++ u :: before), by simp, by simp [← split, ← splitGroup, whole],
      fun ts' spelled => ?_⟩
    simp only [List.map_append, List.map_cons, List.append_assoc, List.cons_append] at spelled
    have same : headKind (group.map Token.lexeme ++ u.lexeme ::
        (before.map Token.lexeme ++ (added ++ after.map Token.lexeme))) =
        headKind (mid.map Token.lexeme) := by
      rw [← splitGroup, List.map_append, whole]
      exact headKind_append rfl
    obtain ⟨t', us', mid', rfl, next', spelled⟩ := reads _ same ts' spelled
    obtain ⟨_, inside', body', spelled⟩ := readsGroup _ (by rw [whole]; rfl) mid' spelled
    obtain ⟨u', rest', closing', spelled⟩ := rbrace_respelled closing spelled
    obtain ⟨_, others'⟩ := inserted rest' spelled
    exact ⟨_, .block next' body' closing' others'⟩

end Files

/-! ### Options -/

/-- What an option statement consists of. -/
theorem optionStatement_eq_ok {option : List Token} {l : Leaf}
    (accepted : optionStatement option = .ok (l, [])) :
    ∃ keyword inside semicolon, option = keyword :: (inside ++ [semicolon]) ∧
      keyword.kind = .keyword .option ∧ semicolon.kind = .symbol .semicolon := by
  obtain ⟨keyword, mid, first, second⟩ := bind_eq_ok.mp accepted
  obtain ⟨s, mid', third, fourth⟩ := bind_eq_ok.mp second
  obtain ⟨semicolon, mid'', fifth, sixth⟩ := bind_eq_ok.mp fourth
  cases sixth
  obtain ⟨rfl, begins⟩ := expect_eq_ok first
  obtain ⟨rfl, ends⟩ := symbol_eq_ok fifth
  obtain ⟨inside, rfl⟩ := Shrinks.suffix third
  exact ⟨keyword, inside, semicolon, rfl, begins, ends⟩

/-- An option without a semicolon in it is passed over between the members of a oneof. -/
theorem reads_oneofOption {keyword semicolon : Token} {inside : List Token}
    (begins : keyword.kind = .keyword .option) (ends : semicolon.kind = .symbol .semicolon)
    (plain : ∀ t ∈ inside, t.kind ≠ .symbol .semicolon) (more : List Lexeme) :
    Reads (entry .oneof) ((keyword :: (inside ++ [semicolon])).map Token.lexeme ++ more) .skip
      more := by
  have passes : (fun k => k == TokenKind.keyword .option) keyword.lexeme.kind = true :=
    beq_iff_eq.mpr begins
  have ends : semicolon.lexeme.kind = .symbol .semicolon := ends
  have spelled : (keyword :: (inside ++ [semicolon])).map Token.lexeme ++ more =
      keyword.lexeme :: (inside.map Token.lexeme ++ semicolon.lexeme :: more) := by simp
  have plain : ∀ l ∈ inside.map Token.lexeme, l.kind ≠ .symbol .semicolon :=
    List.forall_mem_map.mpr plain
  have skips : Reads (skipStatement .option)
      (keyword.lexeme :: (inside.map Token.lexeme ++ semicolon.lexeme :: more)) .skip more := by
    unfold skipStatement Reader.keyword expect
    refine reads_take_bind passes fun _ _ => ?_
    exact (reads_skipToSemicolon plain ends).bind (.pure _)
  rw [spelled]
  exact reads_entry (congrArg some begins) (by simp) skips

theorem plain_of_afterSemicolon {inside : List Token} {semicolon : Token}
    (whole : afterSemicolon (inside ++ [semicolon]) = []) :
    ∀ t ∈ inside, t.kind ≠ .symbol .semicolon := by
  induction inside with
  | nil => simp
  | cons t inside ih =>
    rw [List.cons_append, afterSemicolon] at whole
    split at whole
    · exact absurd whole (by simp)
    · next other => exact List.forall_mem_cons.mpr ⟨by simpa using other, ih whole⟩

/-- An option is passed over as a whole if and only if its only semicolon is the last token. -/
theorem entry_oneofOption_iff {option : List Token} {l : Leaf}
    (accepted : optionStatement option = .ok (l, [])) :
    entry .oneof option = .ok (.skip, []) ↔ ∀ t ∈ option.dropLast, t.kind ≠ .symbol .semicolon := by
  obtain ⟨keyword, inside, semicolon, rfl, begins, ends⟩ := optionStatement_eq_ok accepted
  have front : (keyword :: (inside ++ [semicolon])).dropLast = keyword :: inside := by
    rw [← List.cons_append, List.dropLast_concat]
  have noSemicolon : keyword.kind ≠ .symbol .semicolon := by simp [begins]
  rw [front, List.forall_mem_cons]
  constructor
  · intro whole
    have skips : skipStatement .option (keyword :: (inside ++ [semicolon])) = .ok (.skip, []) := by
      obtain ⟨k, mid, first, second⟩ := bind_eq_ok.mp whole
      cases first
      simpa [entryFrom, begins, entryAt, oneofEntryAt] using second
    obtain ⟨t, mid, first, second⟩ := bind_eq_ok.mp skips
    obtain ⟨_, mid', third, fourth⟩ := bind_eq_ok.mp second
    cases fourth
    obtain ⟨same, -⟩ := expect_eq_ok first
    cases same
    exact ⟨noSemicolon, plain_of_afterSemicolon (congrArg Prod.snd (Except.ok.inj third))⟩
  · rintro ⟨-, plain⟩
    obtain ⟨more, ran, left⟩ := reads_oneofOption begins ends plain [] (List.append_nil _).symm
    rwa [List.map_eq_nil_iff.mp left] at ran

end Grammar

/-- Options between the members of a oneof. An accepted option statement is passed over there as
a whole if and only if its only semicolon is its last token. If it is, then it can be put at any
place between the members, behind `before`: every text that spells the file with the option there
is read as the same document as the file without it. -/
theorem parse_insert_option {frames : Nat} {uri text : String} {d : Document}
    {after option : List Token} {l : Leaf} (parsed : Document.parse frames uri text = .ok d)
    (place : Grammar.InOneof false (tokenize text).tokens after)
    (accepted : Grammar.optionStatement option = .ok (l, [])) :
    (Grammar.entry .oneof option = .ok (.skip, []) ↔
      ∀ t ∈ option.dropLast, t.kind ≠ .symbol .semicolon) ∧
    ((∀ t ∈ option.dropLast, t.kind ≠ .symbol .semicolon) →
      ∃ before, before ++ after = (tokenize text).tokens ∧ ∀ text' : String,
        (tokenize text').tokens.map Token.lexeme =
          (before ++ option ++ after).map Token.lexeme →
        Document.parse frames uri text' = .ok d) := by
  refine ⟨Grammar.entry_oneofOption_iff accepted, fun plain => ?_⟩
  obtain ⟨keyword, inside, semicolon, rfl, begins, ends⟩ := Grammar.optionStatement_eq_ok accepted
  have plain : ∀ t ∈ inside, t.kind ≠ .symbol .semicolon := fun t here =>
    plain t (by rw [← List.cons_append, List.dropLast_concat]; exact List.mem_cons_of_mem _ here)
  obtain ⟨c, read, rfl⟩ := Document.parse_eq_ok_iff.mp parsed
  obtain ⟨needed, enough, passed, whole⟩ := Grammar.fileRead_of_ok read
  obtain ⟨before, -, split, inserted⟩ :=
    place.insert whole (Grammar.reads_oneofOption begins ends plain)
  refine ⟨before, split, fun text' spelled => ?_⟩
  rw [List.map_append, List.map_append, List.append_assoc] at spelled
  obtain ⟨passed', whole'⟩ := inserted _ spelled
  have read' := (Grammar.contents_of_fileRead whole' frames).trans (if_pos enough)
  exact Document.parse_eq_ok_iff.mpr ⟨c, read', rfl⟩

/-- A message with one member in a oneof. -/
def oneofText : String := "message M { oneof o { int32 y = 1; } }"

/-- What it is read as. -/
def oneofDocument : Document :=
  ⟨"", none, [.block (.message "M")
    [.leaf (.field ⟨"int32", "y", 1, none, none, some "o", []⟩)]]⟩

/-- The place before the member. -/
theorem inOneof_oneofText : Grammar.InOneof false (tokenize oneofText).tokens
    ((tokenize oneofText).tokens.drop 6) := by
  have split : (tokenize oneofText).tokens =
      ⟨.keyword .message, "message", ⟨1, 1⟩⟩ :: (tokenize oneofText).tokens.tail := by
    decide +kernel
  have message : Grammar.statementAt false ⟨.keyword .message, "message", ⟨1, 1⟩⟩
      (⟨.keyword .message, "message", ⟨1, 1⟩⟩ :: (tokenize oneofText).tokens.tail) =
      .ok (.header (.message "M"), (tokenize oneofText).tokens.drop 3) := by
    decide +kernel
  have oneof : Grammar.entry .message ((tokenize oneofText).tokens.drop 3) =
      .ok (.oneof "o", (tokenize oneofText).tokens.drop 6) := by
    decide +kernel
  have place := Grammar.InOneof.inside message (.inside oneof rfl .here)
  rwa [← split] at place

/-- An option whose value is in braces, without a semicolon in these. -/
def plainOption : List Token := (tokenize "option (x) = { a: 1, b: 2 };").tokens

/-- It can stand in front of the member. -/
theorem parse_insert_option_plain :
    Document.parse 1000 "" "message M { oneof o { option (x) = { a: 1, b: 2 }; int32 y = 1; } }" =
      .ok oneofDocument := by
  have parsed : Document.parse 1000 "" oneofText = .ok oneofDocument := by decide +kernel
  have accepted : Grammar.optionStatement plainOption =
      .ok (.option ⟨"(x)", .text "{ a 1 , b 2 }"⟩, []) := by
    decide +kernel
  obtain ⟨-, inserted⟩ := parse_insert_option parsed inOneof_oneofText accepted
  obtain ⟨before, split, same⟩ := inserted (by decide +kernel)
  have front : before = (tokenize oneofText).tokens.take 6 :=
    List.append_cancel_right (split.trans (List.take_append_drop 6 _).symm)
  exact same _ (by rw [front]; decide +kernel)

/-- The same option with a semicolon inside its braces. -/
def splitOption : List Token := (tokenize "option (x) = { a: 1; b: 2 };").tokens

/-- It is accepted as a statement of a message, but a file with it in front of the member of a
oneof is refused, at the number behind that semicolon. -/
theorem split_option_refused :
    Grammar.entry .message splitOption = .ok (.leaf (.option ⟨"(x)", .text "{ a 1 ; b 2 }"⟩), []) ∧
    Document.parse 1000 "" oneofText = .ok oneofDocument ∧
    (tokenize "message M { oneof o { option (x) = { a: 1; b: 2 }; int32 y = 1; } }").tokens.map
        Token.lexeme =
      ((tokenize oneofText).tokens.take 6 ++ splitOption ++
        (tokenize oneofText).tokens.drop 6).map Token.lexeme ∧
    Document.parse 1000 "" "message M { oneof o { option (x) = { a: 1; b: 2 }; int32 y = 1; } }" =
      .error (.refused ⟨⟨1, 47⟩, some ⟨.number, "2", ⟨1, 47⟩⟩, .expected .name⟩) := by
  refine ⟨by decide +kernel, by decide +kernel, by decide +kernel, by decide +kernel⟩

end ProtoNames
