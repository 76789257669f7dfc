import ProtoNames.Proofs.Nesting
import ProtoNames.Schema.Printing

/-!
Documents that can be printed and read again.

A document is well formed if it keeps to the grammar's nesting, its names have no delimiters
where there should be none, at most one package is stated, and no declaration begins with a
word that begins another production at its place. All other words can be names, keywords as
well. Which integers are allowed is a parameter.
-/

namespace ProtoNames

open Number Text

/-- An integer that can be read back: it has at most 4300 decimal digits. -/
def IsReadable (n : Int) : Prop := n.natAbs < Nat.pow 10 maxDecimalDigits

/-! ### Names -/

/-- A name without delimiters. -/
def IsUndelimited (name : String) : Prop :=
  name ≠ "" ∧ ∀ c ∈ name.toList, Symbol.ofChar? c = none

instance (name : String) : Decidable (IsUndelimited name) :=
  decidable_of_iff (name ≠ "" ∧ name.toList.all fun c => (Symbol.ofChar? c).isNone) (by
    simp [IsUndelimited])

/-- Words joined by dots. A dot in front makes the name absolute. -/
def IsDotted (name : String) : Prop :=
  ∃ words, words ≠ [] ∧ (∀ w ∈ words, IsUndelimited w) ∧
    (name = joinDots words ∨ name = joinDots ("" :: words))

/-- One part of an option's name: a word, or the name of an extension in parentheses. -/
def IsOptionPart (part : String) : Prop :=
  IsUndelimited part ∨ ∃ extension, IsDotted extension ∧ part = "(" ++ extension ++ ")"

/-- Parts joined by dots. -/
def IsOptionName (name : String) : Prop :=
  ∃ parts, parts ≠ [] ∧ (∀ p ∈ parts, IsOptionPart p) ∧ name = joinDots parts

/-- The first word of a name is a keyword. -/
def BeginsWith (k : Keyword) (name : String) : Prop := (spell name).head? = some (.keyword k)

instance (k : Keyword) (name : String) : Decidable (BeginsWith k name) :=
  inferInstanceAs (Decidable ((spell name).head? = some (.keyword k)))

/-! ### Declarations -/

namespace Grammar

/-- The words that begin an entry of a region which is no field or group. -/
def Region.starters : Region → List Keyword
  | .message => [.message, .enum, .extend, .option, .oneof, .reserved, .extensions]
  | .oneof => [.option]
  | .extend => []
  | .enum => [.option, .reserved]
  | .service => [.rpc, .option]

/-- The words that are labels. -/
def labelWords : List Keyword := [.optional, .required, .repeated]

/-- The words that begin a group, or a field or group with a label. -/
def memberStarters : List Keyword := .group :: labelWords

end Grammar

open Grammar

section WellFormed

variable (numbers : Int → Prop)

/-- A constant that is no double, with an integer that is allowed. -/
def Constant.WellFormed : Constant → Prop
  | .number (.int n) => numbers n
  | .number (.double _) => False
  | .bool _ => True
  | .text _ => True

/-- An option with a name that can be read and such a constant. -/
def Setting.WellFormed (o : Setting) : Prop := IsOptionName o.name ∧ o.value.WellFormed numbers

/-- A field with types that can be read, wherever it stands. -/
structure Field.WellFormed (f : Field) : Prop where
  type : IsDotted f.type
  key : ∀ key, f.mapKey = some key → IsDotted key
  number : numbers f.number
  options : ∀ o ∈ f.options, o.WellFormed numbers

/-- A type that can be read, and is not taken for a stream. -/
def IsRpcType (streaming : Bool) (type : String) : Prop :=
  IsDotted type ∧ (streaming = false → ¬ BeginsWith .stream type)

/-- A declaration without a body that can be read, wherever it stands. -/
def Leaf.WellFormed : Leaf → Prop
  | .package name => IsDotted name
  | .importing _ => True
  | .option o => o.WellFormed numbers
  | .field f => f.WellFormed numbers
  | .enumValue _ n => numbers n
  | .rpc r => IsRpcType r.clientStreaming r.input ∧ IsRpcType r.serverStreaming r.output

/-- A header that can be read, wherever it stands. -/
def Header.WellFormed : Header → Prop
  | .group _ n _ => numbers n
  | .extend target => IsDotted target
  | _ => True

/-- The words that the type of a field in a region cannot begin with. After a label this is
only the word of a group. -/
def Field.excluded (r : Region) (f : Field) : List Keyword :=
  if f.label.isSome then [.group]
  else (if f.oneof.isSome then Region.oneof else r).starters ++ memberStarters

/-- A field is not taken for anything else. Oneofs stand in messages only. -/
structure Field.FitsIn (r : Region) (f : Field) : Prop where
  oneof : f.oneof.isSome = true → r = .message
  type : f.mapKey = none → ∀ k ∈ f.excluded r, ¬ BeginsWith k f.type

/-- A declaration can stand in a region, and is not taken for anything else there. -/
def Node.FitsIn (r : Region) (n : Node) : Prop :=
  r.admits n.kind = true ∧
    match n with
    | .leaf (.field f) => f.FitsIn r
    | .leaf (.enumValue name _) => ∀ k ∈ r.starters, name ≠ k.word
    | _ => True

/-- A declaration can be read with all that is declared inside it. -/
inductive Node.WellFormed : Node → Prop
  | leaf {l : Leaf} : l.WellFormed numbers → WellFormed (.leaf l)
  | block {header : Header} {body : List Node} : header.WellFormed numbers →
      (∀ n ∈ body, n.FitsIn (regionOf header)) → (∀ n ∈ body, n.WellFormed) →
      WellFormed (.block header body)

/-- A document consists of statements that can be read, with one package at most. -/
structure Document.WellFormed (d : Document) : Prop where
  admitted : ∀ n ∈ d.statements, admitsStatement n.kind = true
  statements : ∀ n ∈ d.statements, n.WellFormed numbers
  package : d.statements.countP (·.kind == .package) ≤ 1

end WellFormed

/-! ### Spelling -/

variable {c : Char} {s : Symbol} {name word : String} {cs rest acc : List Char}

theorem Symbol.ofChar?_char (s : Symbol) : Symbol.ofChar? s.char = some s := by
  cases s <;> rfl

/-- A delimiter stands for itself, and what is spelled on either side does not depend on what
is on the other. -/
theorem spellFrom_append_symbol (s : Symbol) :
    spellFrom acc (cs ++ s.char :: rest) = spellFrom acc cs ++ .symbol s :: spellFrom [] rest := by
  induction cs generalizing acc with
  | nil => simp [spellFrom, Symbol.ofChar?_char]
  | cons c cs ih =>
    rw [List.cons_append, spellFrom, spellFrom]
    split
    · rw [ih, List.append_assoc, List.cons_append]
    · exact ih

theorem spell_append_symbol (s : Symbol) (before after : String) :
    spell (before ++ String.singleton s.char ++ after) =
      spell before ++ .symbol s :: spell after := by
  simp only [spell, String.toList_append, String.toList_singleton, List.append_assoc,
    List.singleton_append, spellFrom_append_symbol]

/-- Joined names are spelled one after the other, with dots between them. -/
theorem spell_joinDots (first : String) (others : List String) :
    spell (joinDots (first :: others)) =
      spell first ++ others.flatMap fun name => .symbol .dot :: spell name := by
  induction others generalizing first with
  | nil => simp [joinDots, joined]
  | cons next others ih =>
    have cut := spell_append_symbol .dot first (joinDots (next :: others))
    rw [ih next] at cut
    exact cut

theorem spell_empty : spell "" = [] := rfl

theorem spell_parentheses (name : String) :
    spell ("(" ++ name ++ ")") = .symbol .lparen :: spell name ++ [.symbol .rparen] := by
  have inner := @spellFrom_append_symbol name.toList [] [] .rparen
  have whole : ("(" ++ name ++ ")").toList =
      Symbol.lparen.char :: (name.toList ++ Symbol.rparen.char :: []) := by
    simp [Symbol.char]
  rw [spell, whole, spellFrom, Symbol.ofChar?_char, inner]
  rfl

theorem spellFrom_of_word (free : ∀ c ∈ cs, Symbol.ofChar? c = none) :
    spellFrom acc cs = wordOf (acc ++ cs) := by
  induction cs generalizing acc with
  | nil => simp [spellFrom]
  | cons c cs ih =>
    obtain ⟨here, free⟩ := List.forall_mem_cons.mp free
    simp only [spellFrom, here, ih free, List.append_assoc, List.singleton_append]

theorem IsUndelimited.spell_eq (h : IsUndelimited word) : spell word = [.word word] := by
  obtain ⟨some_, free⟩ := h
  rw [spell, spellFrom_of_word free, List.nil_append]
  cases chars : word.toList with
  | nil => exact absurd (String.toList_eq_nil_iff.mp chars) some_
  | cons c cs => rw [wordOf, ← chars, String.ofList_toList]

theorem IsUndelimited.isDotted (undelimited : IsUndelimited word) : IsDotted word := by
  refine ⟨[word], by simp, ?_, .inl rfl⟩
  intro w inside
  rw [List.mem_singleton.mp inside]
  exact undelimited

/-- A dotted name is printed as a word or as a dot, and something. -/
theorem spell_cases (dotted : IsDotted name) :
    (∃ word others, (∀ w ∈ others, IsUndelimited w) ∧ IsUndelimited word ∧
      name = joinDots (word :: others) ∧
        spell name = .word word :: others.flatMap fun w => .symbol .dot :: spell w) ∨
    (∃ word others, (∀ w ∈ others, IsUndelimited w) ∧ IsUndelimited word ∧
      name = joinDots ("" :: word :: others) ∧ spell name =
        .symbol .dot :: .word word :: others.flatMap fun w => .symbol .dot :: spell w) := by
  obtain ⟨words, some_, areUndelimited, rfl | rfl⟩ := dotted
  · obtain ⟨word, others, rfl⟩ := List.exists_cons_of_ne_nil some_
    obtain ⟨undelimited, areUndelimited⟩ := List.forall_mem_cons.mp areUndelimited
    refine .inl ⟨word, others, areUndelimited, undelimited, rfl, ?_⟩
    rw [spell_joinDots, undelimited.spell_eq, List.singleton_append]
  · obtain ⟨word, others, rfl⟩ := List.exists_cons_of_ne_nil some_
    obtain ⟨undelimited, areUndelimited⟩ := List.forall_mem_cons.mp areUndelimited
    refine .inr ⟨word, others, areUndelimited, undelimited, rfl, ?_⟩
    rw [spell_joinDots, List.flatMap_cons, undelimited.spell_eq, spell_empty, List.nil_append,
      List.cons_append, List.singleton_append]

end ProtoNames
