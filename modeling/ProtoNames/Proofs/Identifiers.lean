import Mathlib.Data.List.TakeWhile
import ProtoNames.Proofs.WellFormed

/-!
What declarations are named by.

* `isWordy_scan`: a token that can be a name is a word, of letters, digits and underscores.
* `Spells` says that a reader gives something of a kind on such tokens. It composes along
  `>>=`, since readers leave a part of the tokens that they are given.
* `namedByWords_of_parse`: so every declaration that a text spells is named by a word.
-/

namespace ProtoNames

open Text Scan

/-! ### Tokens -/

/-- A word: a letter or an underscore, and then letters, digits and underscores. -/
def IsWord (name : String) : Prop :=
  ∃ c cs, name.toList = c :: cs ∧ startsWord c = true ∧ ∀ x ∈ cs, continuesWord x = true

/-- If a token can be a name, it is a word. -/
def Token.IsWordy (t : Token) : Prop := t.kind.isName = true → IsWord t.text

theorem Token.isWordy_of_kind {t : Token} (other : t.kind.isName = false) : t.IsWordy := by
  intro isName
  exact absurd (other.symm.trans isName) (by simp)

theorem continuesWord_of_startsWord {c : Char} (starts : startsWord c = true) :
    continuesWord c = true := by
  rcases Bool.or_eq_true_iff.mp starts with letter | underscore
  · have alphanumeric : isAlphanumeric c = true := by
      unfold isLetter at letter
      unfold isAlphanumeric
      split at letter
      · next ascii => simp [ascii, Char.isAlphanum, letter]
      · next ascii => simp [ascii, isLetter, letter]
    simp [continuesWord, alphanumeric]
  · simp [continuesWord, underscore]

theorem isWordy_readWord {here : Position} {c : Char} {cs : List Char}
    (starts : startsWord c = true) : (readWord here c cs).token.IsWordy := by
  intro _
  refine ⟨c, cs.takeWhile continuesWord, ?_, starts, fun x inside => ?_⟩
  · simp [readWord]
  · exact List.mem_takeWhile_imp inside

theorem kind_readString (here : Position) (quote : Char) (cs : List Char) :
    (readString here quote cs).token.kind = .string := by
  simp only [readString]
  split
  · rfl
  · split <;> rfl

/-- What holds of every token as it is read holds of the tokens of a text. -/
theorem forall_mem_scan {P : Token → Prop}
    (string : ∀ here quote cs, P (readString here quote cs).token)
    (number : ∀ here c cs, startsNumber c cs = true → P (readNumber here c cs).token)
    (word : ∀ here c cs, startsWord c = true → P (readWord here c cs).token)
    (symbol : ∀ here c s, P ⟨.symbol s, String.singleton c, here⟩)
    (here : Position) (cs : List Char) : ∀ t ∈ (scan here cs).tokens, P t := by
  fun_induction scan here cs with
  | case1 => exact List.forall_mem_nil _
  | case2 _ _ _ _ ih => exact ih
  | case3 _ _ _ _ _ ih => exact ih
  | case4 _ _ _ _ _ _ _ ih => exact ih
  | case5 _ _ _ _ _ _ _ _ _ ih => exact ih
  | case6 here c rest _ _ _ _ _ _ piece ih =>
    exact List.forall_mem_cons.mpr ⟨string here c rest, ih⟩
  | case7 here c rest _ _ _ _ _ starts _ piece ih =>
    exact List.forall_mem_cons.mpr ⟨number here c rest starts, ih⟩
  | case8 here c rest _ _ _ _ _ _ starts _ piece ih =>
    exact List.forall_mem_cons.mpr ⟨word here c rest starts, ih⟩
  | case9 here c rest _ _ _ _ _ _ _ s _ ih =>
    exact List.forall_mem_cons.mpr ⟨symbol here c s, ih⟩
  | case10 _ _ _ _ _ _ _ _ _ _ _ ih => exact ih

/-- Strings, numbers and delimiters are no names, and words consist of what continues words. -/
theorem isWordy_scan (here : Position) (cs : List Char) :
    ∀ t ∈ (scan here cs).tokens, t.IsWordy := by
  refine forall_mem_scan (fun here quote cs => ?_) (fun here c cs _ => ?_)
    (fun here c cs starts => isWordy_readWord starts) (fun here c s => ?_) here cs
  · refine Token.isWordy_of_kind ?_
    rw [kind_readString]
    rfl
  · exact Token.isWordy_of_kind rfl
  · exact Token.isWordy_of_kind rfl

/-! ### What readers give -/

namespace Reader

variable {α β : Type} {p : Reader α} {P : α → Prop} {Q : β → Prop}

/-- All that a reader gives has a property, if the tokens that can be names are words. -/
def Spells (p : Reader α) (P : α → Prop) : Prop :=
  ∀ ⦃ts a rest⦄, (∀ t ∈ ts, t.IsWordy) → p ts = .ok (a, rest) → P a

theorem Gives.spells (h : Gives p P) : Spells p P := fun _ _ _ _ ran => h ran

theorem Spells.pure {a : α} (h : P a) : Spells (pure a) P := (Gives.pure h).spells

theorem wordy_rest [Shrinks p] {ts rest : List Token} {a : α} (wordy : ∀ t ∈ ts, t.IsWordy)
    (ran : p ts = .ok (a, rest)) : ∀ t ∈ rest, t.IsWordy :=
  fun t inside => wordy t ((Shrinks.suffix ran).subset inside)

theorem Spells.bind [Shrinks p] {f : α → Reader β} (first : Spells p P)
    (onwards : ∀ a, P a → Spells (f a) Q) : Spells (p >>= f) Q := by
  intro ts b rest wordy gives
  obtain ⟨a, mid, ran, ran'⟩ := bind_eq_ok.mp gives
  exact onwards a (first wordy ran) (wordy_rest wordy ran) ran'

/-- What comes first may be anything. -/
theorem Spells.after [Shrinks p] {f : α → Reader β} (onwards : ∀ a, Spells (f a) Q) :
    Spells (p >>= f) Q := by
  have anything : Gives p fun _ => True := gives_of_forall fun _ => trivial
  exact anything.spells.bind fun a _ => onwards a

theorem Spells.map [Shrinks p] {f : α → β} (h : Spells p fun a => Q (f a)) :
    Spells (f <$> p) Q := by
  rw [← bind_pure_comp]
  exact h.bind fun a holds => .pure holds

theorem spells_ite {c : Prop} [Decidable c] {p q : Reader α} (h : Spells p P)
    (h' : Spells q P) : Spells (if c then p else q) P := by
  split
  · exact h
  · exact h'

theorem spells_name : Spells name IsWord := by
  intro ts word rest wordy gives
  obtain ⟨t, mid, taken, gives⟩ := bind_eq_ok.mp gives
  cases gives
  cases ts with
  | nil => cases taken
  | cons first more =>
    simp only [take] at taken
    split at taken
    · next isName =>
      cases taken
      exact wordy _ List.mem_cons_self isName
    · cases taken

end Reader

/-! ### What the grammar gives -/

/-- If a declaration has a name, it is a word. -/
def Node.IsNamedByWord (n : Node) : Prop := ∀ name, n.name? = some name → IsWord name

/-- All declarations in a node are named by words. -/
inductive Node.NamedByWords : Node → Prop
  | intro {n : Node} : n.IsNamedByWord → (∀ m ∈ n.body, m.NamedByWords) → NamedByWords n

theorem Node.NamedByWords.here {n : Node} : n.NamedByWords → n.IsNamedByWord
  | .intro named _ => named

theorem Node.NamedByWords.body {n : Node} : n.NamedByWords → ∀ m ∈ n.body, m.NamedByWords
  | .intro _ inside => inside

theorem Node.namedByWords_leaf {l : Leaf} (named : (Node.leaf l).IsNamedByWord) :
    (Node.leaf l).NamedByWords :=
  .intro named fun _ inside => absurd inside List.not_mem_nil

theorem Node.namedByWords_block {header : Header} {body : List Node}
    (named : (Node.block header []).IsNamedByWord) (inside : ∀ m ∈ body, m.NamedByWords) :
    (Node.block header body).NamedByWords := by
  refine .intro ?_ inside
  cases header <;> exact named

namespace Grammar

open Reader Node

/-- What an entry declares is named by a word. -/
def Entry.IsNamedByWord : Entry → Prop
  | .leaf l => (Node.leaf l).IsNamedByWord
  | .header h => (Node.block h []).IsNamedByWord
  | _ => True

theorem isNamedByWord_of_kind {l : Leaf}
    (nameless : l.kind = .option ∨ l.kind = .package ∨ l.kind = .importing) :
    (Node.leaf l).IsNamedByWord := by
  intro name named
  cases l <;> simp [Node.name?, Leaf.kind] at named nameless

/-! ### Leaves and headers -/

theorem field_spells (label : Option Label) :
    Spells (field label) fun f => (Node.leaf (.field f)).IsNamedByWord := by
  unfold field
  refine .after fun ⟨mapKey, type⟩ => spells_name.bind fun name isWord => ?_
  refine .after fun _ => .after fun _ => .after fun _ => .after fun _ => .pure ?_
  rintro _ ⟨⟩
  exact isWord

theorem enumValue_spells : Spells enumValue fun l => (Node.leaf l).IsNamedByWord := by
  unfold enumValue
  refine spells_name.bind fun name isWord => ?_
  refine .after fun _ => .after fun _ => .after fun _ => .after fun _ => .pure ?_
  rintro _ ⟨⟩
  exact isWord

theorem rpc_spells : Spells rpc fun l => (Node.leaf l).IsNamedByWord := by
  unfold rpc
  refine .after fun _ => spells_name.bind fun name isWord => ?_
  refine .after fun ⟨_, _⟩ => .after fun _ => .after fun ⟨_, _⟩ => .after fun _ => ?_
  refine .after fun _ => .pure ?_
  rintro _ ⟨⟩
  exact isWord

theorem namedHeader_spells (k : Keyword) : Spells (namedHeader k) IsWord := by
  unfold namedHeader
  exact .after fun _ => spells_name.bind fun name isWord => .after fun _ => .pure isWord

theorem extendHeader_spells : Spells extendHeader fun h => (Node.block h []).IsNamedByWord := by
  unfold extendHeader
  refine .after fun _ => .after fun _ => .after fun _ => .pure ?_
  rintro _ ⟨⟩

theorem groupHeader_spells (label : Option Label) :
    Spells (groupHeader label) fun h => (Node.block h []).IsNamedByWord := by
  unfold groupHeader
  refine .after fun _ => spells_name.bind fun name isWord => ?_
  refine .after fun _ => .after fun _ => .after fun _ => .after fun _ => .pure ?_
  rintro _ ⟨⟩
  exact isWord

/-! ### Entries -/

theorem skipStatement_spells (k : Keyword) : Spells (skipStatement k) Entry.IsNamedByWord := by
  unfold skipStatement
  exact .after fun _ => .after fun _ => .pure trivial

theorem optionEntry_spells : Spells (Entry.leaf <$> optionStatement) Entry.IsNamedByWord :=
  .map fun _ _ _ _ gives => isNamedByWord_of_kind (.inl (optionStatement_gives gives))

theorem fieldOrGroup_spells : Spells fieldOrGroup Entry.IsNamedByWord := by
  unfold fieldOrGroup fieldOrGroupAt
  refine .after fun label => .after fun next => spells_ite ?_ ?_
  · exact .map (groupHeader_spells label)
  · exact .map (field_spells label)

/-- A header that is a keyword and a word. -/
theorem namedEntry_spells {k : Keyword} {header : String → Header}
    (named : ∀ name, (Node.block (header name) []).name? = some name) :
    Spells ((Entry.header ∘ header) <$> namedHeader k) Entry.IsNamedByWord := by
  refine .map fun _ word _ wordy gives => ?_
  intro name hasName
  cases (named word).symm.trans hasName
  exact namedHeader_spells k wordy gives

theorem messageEntryAt_spells (k : TokenKind) :
    Spells (messageEntryAt k) Entry.IsNamedByWord := by
  unfold messageEntryAt
  split
  · exact namedEntry_spells fun _ => rfl
  · exact namedEntry_spells fun _ => rfl
  · exact .map extendHeader_spells
  · exact optionEntry_spells
  · exact .map (gives_of_forall fun _ => trivial).spells
  · exact skipStatement_spells _
  · exact skipStatement_spells _
  · exact fieldOrGroup_spells

theorem oneofEntryAt_spells (k : TokenKind) : Spells (oneofEntryAt k) Entry.IsNamedByWord := by
  unfold oneofEntryAt
  split
  · exact skipStatement_spells _
  · exact fieldOrGroup_spells

theorem enumEntryAt_spells (k : TokenKind) : Spells (enumEntryAt k) Entry.IsNamedByWord := by
  unfold enumEntryAt
  split
  · exact optionEntry_spells
  · exact skipStatement_spells _
  · exact .map enumValue_spells

theorem serviceEntryAt_spells (k : TokenKind) :
    Spells (serviceEntryAt k) Entry.IsNamedByWord := by
  unfold serviceEntryAt
  split
  · exact .map rpc_spells
  · exact optionEntry_spells
  · exact (gives_refuse _).spells

theorem entry_spells (r : Region) : Spells (entry r) Entry.IsNamedByWord := by
  unfold entry
  refine .after fun k => ?_
  cases k with
  | none => exact .pure trivial
  | some k =>
    unfold entryFrom entryAt lonelySemicolon
    refine spells_ite (.pure trivial) (spells_ite (.after fun _ => .pure trivial) ?_)
    cases r with
    | message => exact messageEntryAt_spells k
    | oneof => exact oneofEntryAt_spells k
    | extend => exact fieldOrGroup_spells
    | enum => exact enumEntryAt_spells k
    | service => exact serviceEntryAt_spells k

/-! ### Bodies -/

theorem namedByWords_markOneof {oneof : String} {n : Node} (h : n.NamedByWords) :
    (markOneof oneof n).NamedByWords := by
  cases h with
  | intro named inside =>
    unfold markOneof
    split
    · exact .intro named inside
    · exact .intro named inside

/-- What is left behind a body goes into the induction, since other bodies are read from it. -/
theorem bodyOf_namedByWords {frames : Nat} {r : Region} {ts : List Token} {body : Body ts}
    (wordy : ∀ t ∈ ts, t.IsWordy) (h : bodyOf frames r ts = .ok body) :
    (∀ n ∈ body.nodes, n.NamedByWords) ∧ ∀ t ∈ body.rest, t.IsWordy := by
  fun_induction bodyOf frames r ts with
  | case1 => cases h
  | case2 frames r ts rest next =>
    cases h
    exact ⟨fun n inside => absurd inside List.not_mem_nil, wordy_rest wordy next⟩
  | case3 frames r ts rest next lt ih =>
    obtain ⟨others, read, rfl⟩ := map_eq_ok.mp h
    exact ih (wordy_rest wordy next) read
  | case4 frames r ts l rest next lt ih =>
    obtain ⟨others, read, rfl⟩ := map_eq_ok.mp h
    obtain ⟨named, wordy'⟩ := ih (wordy_rest wordy next) read
    exact ⟨List.forall_mem_cons.mpr ⟨namedByWords_leaf (entry_spells r wordy next), named⟩, wordy'⟩
  | case5 | case6 | case7 => cases h
  | case8 frames r ts header rest next lt room inner inside le t after closing shorter ihInner ih =>
    obtain ⟨others, read, rfl⟩ := map_eq_ok.mp h
    obtain ⟨named, wordy'⟩ := ihInner (wordy_rest wordy next) inside
    obtain ⟨named', wordy'⟩ := ih (wordy_rest wordy' closing) read
    have here := namedByWords_block (entry_spells r wordy next) named
    exact ⟨List.forall_mem_cons.mpr ⟨here, named'⟩, wordy'⟩
  | case9 | case10 | case11 => cases h
  | case12 frames r ts name rest next lt room inner inside le t after closing shorter ihInner ih =>
    obtain ⟨others, read, rfl⟩ := map_eq_ok.mp h
    obtain ⟨named, wordy'⟩ := ihInner (wordy_rest wordy next) inside
    obtain ⟨named', wordy'⟩ := ih (wordy_rest wordy' closing) read
    refine ⟨List.forall_mem_append.mpr ⟨?_, named'⟩, wordy'⟩
    exact List.forall_mem_map.mpr fun n member => namedByWords_markOneof (named n member)

/-! ### Files -/

/-- What a statement declares is named by a word. -/
def Statement.IsNamedByWord : Statement → Prop
  | .leaf l => (Node.leaf l).IsNamedByWord
  | .header h => (Node.block h []).IsNamedByWord
  | _ => True

/-- A header that is a keyword and a word. -/
theorem namedStatement_spells {k : Keyword} {header : String → Header}
    (named : ∀ name, (Node.block (header name) []).name? = some name) :
    Spells ((Statement.header ∘ header) <$> namedHeader k) Statement.IsNamedByWord := by
  refine .map fun _ word _ wordy gives => ?_
  intro name hasName
  cases (named word).symm.trans hasName
  exact namedHeader_spells k wordy gives

theorem statementAt_spells (hasPackage : Bool) (t : Token) :
    Spells (statementAt hasPackage t) Statement.IsNamedByWord := by
  unfold statementAt
  split
  · exact .map (gives_of_forall fun _ => trivial).spells
  · exact .map (gives_of_forall fun _ => trivial).spells
  · exact spells_ite (gives_refuse _).spells (.map fun _ _ _ _ gives =>
      isNamedByWord_of_kind (.inr (.inl (packageStatement_gives gives))))
  · exact .map fun _ _ _ _ gives =>
      isNamedByWord_of_kind (.inr (.inr (importStatement_gives gives)))
  · exact .map fun _ _ _ _ gives => isNamedByWord_of_kind (.inl (optionStatement_gives gives))
  · exact namedStatement_spells fun _ => rfl
  · exact namedStatement_spells fun _ => rfl
  · exact .map extendHeader_spells
  · exact namedStatement_spells fun _ => rfl
  · exact spells_ite (.map (gives_of_forall fun _ => trivial).spells) (gives_refuse _).spells

theorem contents_namedByWords {frames : Nat} {hasPackage : Bool} {ts : List Token}
    {c : Contents} (wordy : ∀ t ∈ ts, t.IsWordy) (h : contents frames hasPackage ts = .ok c) :
    ∀ n ∈ c.nodes, n.NamedByWords := by
  fun_induction contents frames hasPackage ts generalizing c with
  | case1 =>
    cases h
    exact fun n inside => absurd inside List.not_mem_nil
  | case2 => cases h
  | case3 hasPackage t more rest next lt ih => exact ih (wordy_rest wordy next) h
  | case4 hasPackage t more name rest next lt ih =>
    obtain ⟨others, read, rfl⟩ := map_eq_ok.mp h
    have named := ih (wordy_rest wordy next) read
    exact named
  | case5 hasPackage t more l rest next lt ih =>
    obtain ⟨others, read, rfl⟩ := map_eq_ok.mp h
    have here := namedByWords_leaf (statementAt_spells hasPackage t wordy next)
    exact List.forall_mem_cons.mpr ⟨here, ih (wordy_rest wordy next) read⟩
  | case6 | case7 | case8 => cases h
  | case9 hasPackage t more header rest next lt room inner inside le s after closing shorter ih =>
    obtain ⟨others, read, rfl⟩ := map_eq_ok.mp h
    obtain ⟨named, wordy'⟩ := bodyOf_namedByWords (wordy_rest wordy next) inside
    have here := namedByWords_block (statementAt_spells hasPackage t wordy next) named
    exact List.forall_mem_cons.mpr ⟨here, ih (wordy_rest wordy' closing) read⟩

end Grammar

/-- All declarations in a document are named by words. -/
def Document.NamedByWords (d : Document) : Prop := ∀ n ∈ d.statements, n.NamedByWords

/-- All declarations that a text spells are named by words. -/
theorem Document.namedByWords_of_parse {frames : Nat} {uri text : String} {d : Document}
    (h : Document.parse frames uri text = .ok d) : d.NamedByWords := by
  obtain ⟨c, read, rfl⟩ := Document.parse_eq_ok_iff.mp h
  exact Grammar.contents_namedByWords (isWordy_scan _ _) read

end ProtoNames
