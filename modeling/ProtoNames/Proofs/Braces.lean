import Mathlib.Algebra.BigOperators.Group.List.Basic
import Mathlib.Algebra.Ring.Int.Defs
import Mathlib.Data.List.TakeWhile
import Mathlib.Tactic.SplitIfs
import ProtoNames.Proofs.Bodies

/-!
Braces in files that are read.

A production takes as many closing braces as opening ones, and never closes more than it has
opened: `Balances`, or `MayRunOut` if it may come to the end of the text inside a braced value.
Headers take one opening brace more, which is closed behind the body. Only the statements that
are passed over up to a semicolon may take anything.

* `BodyRead.accounts`, `FileRead.accounts`: so all that is out of balance in a body or a file is in
  these statements (`parse_accounts`).
-/

namespace ProtoNames

/-! ### Counting -/

/-- The opening braces among some tokens. -/
def openings (ts : List Token) : Nat := ts.countP (·.kind = .symbol .lbrace)

/-- The closing braces among some tokens. -/
def closings (ts : List Token) : Nat := ts.countP (·.kind = .symbol .rbrace)

/-- By how much there are more opening braces than closing ones. -/
def excess (ts : List Token) : Int := openings ts - closings ts

/-- No beginning of some tokens closes more braces than it opens, and all of them close what
they open. -/
structure Balanced (ts : List Token) : Prop where
  never_below : ∀ front back, front ++ back = ts → closings front ≤ openings front
  settled : openings ts = closings ts

section Counting

variable {t brace closing : Token} {ts more inside : List Token}

@[simp] theorem openings_nil : openings [] = 0 := rfl

@[simp] theorem closings_nil : closings [] = 0 := rfl

@[simp] theorem openings_append : openings (ts ++ more) = openings ts + openings more :=
  List.countP_append

@[simp] theorem closings_append : closings (ts ++ more) = closings ts + closings more :=
  List.countP_append

@[simp] theorem excess_append : excess (ts ++ more) = excess ts + excess more := by
  simp only [excess, openings_append, closings_append]
  omega

theorem openings_cons :
    openings (t :: ts) = openings ts + if t.kind = .symbol .lbrace then 1 else 0 := by
  simp [openings, List.countP_cons]

theorem closings_cons :
    closings (t :: ts) = closings ts + if t.kind = .symbol .rbrace then 1 else 0 := by
  simp [closings, List.countP_cons]

theorem excess_lbrace (opens : brace.kind = .symbol .lbrace) : excess [brace] = 1 := by
  simp [excess, openings_cons, closings_cons, opens]

theorem excess_rbrace (closes : closing.kind = .symbol .rbrace) : excess [closing] = -1 := by
  simp [excess, openings_cons, closings_cons, closes]

theorem balanced_nil : Balanced [] where
  never_below front back whole := by
    obtain ⟨rfl, -⟩ := List.append_eq_nil_iff.mp whole
    exact Nat.le_refl 0
  settled := rfl

theorem Balanced.append (h : Balanced ts) (h' : Balanced more) : Balanced (ts ++ more) where
  never_below front back whole := by
    rcases List.append_eq_append_iff.mp whole with ⟨rest, split, -⟩ | ⟨begun, rfl, split⟩
    · exact h.never_below front rest split.symm
    · have below := h'.never_below begun back split.symm
      rw [openings_append, closings_append, h.settled]
      exact Nat.add_le_add_left below _
  settled := by rw [openings_append, closings_append, h.settled, h'.settled]

theorem Balanced.excess_eq (h : Balanced ts) : excess ts = 0 := by
  rw [excess, h.settled]
  exact Int.sub_self _

/-- A token that is no brace. -/
theorem balanced_singleton (notOpen : t.kind ≠ .symbol .lbrace)
    (notClosed : t.kind ≠ .symbol .rbrace) : Balanced [t] where
  never_below front back whole := by
    cases front with
    | nil => exact Nat.le_refl 0
    | cons u front =>
      obtain ⟨rfl, left⟩ := List.cons.inj whole
      obtain ⟨rfl, -⟩ := List.append_eq_nil_iff.mp left
      simp [closings_cons, notClosed]
  settled := by simp [openings_cons, closings_cons, notOpen, notClosed]

theorem balanced_of_forall
    (noBrace : ∀ t ∈ ts, t.kind ≠ .symbol .lbrace ∧ t.kind ≠ .symbol .rbrace) : Balanced ts := by
  induction ts with
  | nil => exact balanced_nil
  | cons t ts ih =>
    obtain ⟨⟨notOpen, notClosed⟩, others⟩ := List.forall_mem_cons.mp noBrace
    exact (balanced_singleton notOpen notClosed).append (ih others)

/-- What closes one brace more than it opens, behind an opening brace. -/
theorem balanced_cons (opens : brace.kind = .symbol .lbrace)
    (below : ∀ front back, front ++ back = ts → closings front ≤ openings front + 1)
    (closes : closings ts = openings ts + 1) : Balanced (brace :: ts) where
  never_below front back whole := by
    cases front with
    | nil => exact Nat.le_refl 0
    | cons u front =>
      obtain ⟨rfl, left⟩ := List.cons.inj whole
      have below := below front back left
      simpa [openings_cons, closings_cons, opens] using below
  settled := by simp [openings_cons, closings_cons, opens, closes]

/-- What is balanced stays so in braces. -/
theorem Balanced.wrap (h : Balanced inside) (opens : brace.kind = .symbol .lbrace)
    (closes : closing.kind = .symbol .rbrace) : Balanced (brace :: (inside ++ [closing])) := by
  refine balanced_cons opens (fun front back whole => ?_) ?_
  · rcases List.append_eq_append_iff.mp whole with ⟨rest, split, -⟩ | ⟨begun, rfl, split⟩
    · exact Nat.le_succ_of_le (h.never_below front rest split.symm)
    · have one : closings begun ≤ closings [closing] := by
        rw [split, closings_append]
        exact Nat.le_add_right _ _
      have last : closings [closing] = 1 := by simp [closings_cons, closes]
      rw [openings_append, closings_append, h.settled]
      omega
  · simp [openings_cons, closings_cons, closes, h.settled]

end Counting

/-! ### Readers -/

namespace Reader

variable {α β : Type}

/-- What `p` takes is balanced. -/
class Balances (p : Reader α) : Prop where
  balanced : ∀ ⦃ts a rest⦄, p ts = .ok (a, rest) → ∃ taken, taken ++ rest = ts ∧ Balanced taken

/-- What `p` takes is balanced, unless `p` takes all that there is. -/
class MayRunOut (p : Reader α) : Prop where
  balanced : ∀ ⦃ts a rest⦄, p ts = .ok (a, rest) → rest ≠ [] →
    ∃ taken, taken ++ rest = ts ∧ Balanced taken

/-- What `p` takes is balanced up to its last token, an opening brace. -/
class OpensBrace (p : Reader α) : Prop where
  opens : ∀ ⦃ts a rest⦄, p ts = .ok (a, rest) → ∃ front brace, front ++ brace :: rest = ts ∧
    Balanced front ∧ brace.kind = .symbol .lbrace

instance (priority := low) {p : Reader α} [Balances p] : MayRunOut p where
  balanced _ _ _ h _ := Balances.balanced h

instance (a : α) : Balances (pure a : Reader α) where
  balanced _ _ _ h := by
    cases h
    exact ⟨[], rfl, balanced_nil⟩

instance {p : Reader α} {f : α → Reader β} [Balances p] [∀ a, Balances (f a)] :
    Balances (p >>= f) where
  balanced ts b rest h := by
    obtain ⟨a, mid, first, second⟩ := bind_eq_ok.mp h
    obtain ⟨taken, rfl, even⟩ := Balances.balanced first
    obtain ⟨taken', rfl, even'⟩ := Balances.balanced second
    exact ⟨taken ++ taken', List.append_assoc _ _ _, even.append even'⟩

/-- If something is taken behind `p`, then `p` has not run out. -/
instance (priority := low) {p : Reader α} {f : α → Reader β} [MayRunOut p]
    [∀ a, Balances (f a)] [∀ a, Takes (f a)] : Balances (p >>= f) where
  balanced ts b rest h := by
    obtain ⟨a, mid, first, second⟩ := bind_eq_ok.mp h
    have left : mid ≠ [] := List.ne_nil_of_length_pos (Nat.zero_lt_of_lt (Takes.shorter second))
    obtain ⟨taken, rfl, even⟩ := MayRunOut.balanced first left
    obtain ⟨taken', rfl, even'⟩ := Balances.balanced second
    exact ⟨taken ++ taken', List.append_assoc _ _ _, even.append even'⟩

instance (priority := low) {p : Reader α} {f : α → Reader β} [MayRunOut p]
    [∀ a, MayRunOut (f a)] [∀ a, Shrinks (f a)] : MayRunOut (p >>= f) where
  balanced ts b rest h left := by
    obtain ⟨a, mid, first, second⟩ := bind_eq_ok.mp h
    obtain ⟨taken', rfl, even'⟩ := MayRunOut.balanced second left
    obtain ⟨taken, rfl, even⟩ := MayRunOut.balanced first (by simp [left])
    exact ⟨taken ++ taken', List.append_assoc _ _ _, even.append even'⟩

instance {p : Reader α} {f : α → Reader β} [MayRunOut p] [∀ a, OpensBrace (f a)] :
    OpensBrace (p >>= f) where
  opens ts b rest h := by
    obtain ⟨a, mid, first, second⟩ := bind_eq_ok.mp h
    obtain ⟨front, brace, rfl, even', opens⟩ := OpensBrace.opens second
    obtain ⟨taken, rfl, even⟩ := MayRunOut.balanced first (by simp)
    exact ⟨taken ++ front, brace, List.append_assoc _ _ _, even.append even', opens⟩

instance {p : Reader α} {f : α → β} [Balances p] : Balances (f <$> p) := by
  rw [← bind_pure_comp]; infer_instance

instance (priority := low) {p : Reader α} {f : α → β} [Shrinks p] [MayRunOut p] :
    MayRunOut (f <$> p) := by
  rw [← bind_pure_comp]; infer_instance

instance {c : Prop} [Decidable c] {p q : Reader α} [Balances p] [Balances q] :
    Balances (if c then p else q) := by
  split <;> infer_instance

instance {c : Prop} [Decidable c] {p q : Reader α} [MayRunOut p] [MayRunOut q] :
    MayRunOut (if c then p else q) := by
  split <;> infer_instance

/-! ### Tokens -/

instance : Balances peek where
  balanced ts _ _ h := by
    cases h
    exact ⟨[], rfl, balanced_nil⟩

instance : Balances nextKind where
  balanced ts _ _ h := by
    cases h
    exact ⟨[], rfl, balanced_nil⟩

instance (found : Option Token) (fault : Fault) : Balances (refuseAt found fault : Reader α) where
  balanced _ _ _ h := by cases h

instance (fault : Fault) : Balances (refuse fault : Reader α) where
  balanced _ _ _ h := by cases h

theorem balances_take {test : TokenKind → Bool} {fault : Fault}
    (noBrace : ∀ k, test k = true → k ≠ .symbol .lbrace ∧ k ≠ .symbol .rbrace) :
    Balances (take test fault) where
  balanced ts t rest h := by
    obtain ⟨rfl, passes⟩ := take_eq_ok h
    obtain ⟨notOpen, notClosed⟩ := noBrace _ passes
    exact ⟨[t], rfl, balanced_singleton notOpen notClosed⟩

/-- A sort of token that is no brace. -/
class Plain (k : TokenKind) : Prop where
  ne : k ≠ .symbol .lbrace ∧ k ≠ .symbol .rbrace

instance : Plain .identifier := ⟨by simp⟩
instance : Plain .number := ⟨by simp⟩
instance : Plain .string := ⟨by simp⟩
instance (k : Keyword) : Plain (.keyword k) := ⟨by simp⟩
instance : Plain (.symbol .lparen) := ⟨by simp⟩
instance : Plain (.symbol .rparen) := ⟨by simp⟩
instance : Plain (.symbol .lbracket) := ⟨by simp⟩
instance : Plain (.symbol .rbracket) := ⟨by simp⟩
instance : Plain (.symbol .langle) := ⟨by simp⟩
instance : Plain (.symbol .rangle) := ⟨by simp⟩
instance : Plain (.symbol .semicolon) := ⟨by simp⟩
instance : Plain (.symbol .equals) := ⟨by simp⟩
instance : Plain (.symbol .comma) := ⟨by simp⟩
instance : Plain (.symbol .dot) := ⟨by simp⟩
instance : Plain (.symbol .minus) := ⟨by simp⟩

instance (k : TokenKind) [Plain k] : Balances (expect k) :=
  balances_take fun _ same => beq_iff_eq.mp same ▸ Plain.ne

instance (k : Keyword) : Balances (keyword k) := by unfold keyword; infer_instance

instance (s : Symbol) [Plain (.symbol s)] : Balances (symbol s) := by
  unfold symbol; infer_instance

instance : Balances name := by
  have names : Balances (take TokenKind.isName (.expected .name)) := by
    refine balances_take fun k isName => ?_
    cases k <;> simp_all [TokenKind.isName]
  unfold name
  infer_instance

instance (k : TokenKind) [Plain k] : Balances (accept k) where
  balanced ts b rest h := by
    cases ts with
    | nil =>
      cases h
      exact ⟨[], rfl, balanced_nil⟩
    | cons t more =>
      simp only [accept] at h
      split at h
      · next same =>
        cases h
        obtain ⟨notOpen, notClosed⟩ := Plain.ne (k := k)
        rw [← beq_iff_eq.mp same] at notOpen notClosed
        exact ⟨[t], rfl, balanced_singleton notOpen notClosed⟩
      · cases h
        exact ⟨[], rfl, balanced_nil⟩

instance (k : TokenKind) [Plain k] : Balances (takeAll k) where
  balanced ts same rest h := by
    cases h
    refine ⟨_, List.takeWhile_append_dropWhile, balanced_of_forall fun t inside => ?_⟩
    have same := List.mem_takeWhile_imp inside
    rw [beq_iff_eq.mp same]
    exact Plain.ne

theorem balanced_of_afterEachOf (separator : Symbol) [Plain (.symbol separator)] (p : Reader α)
    [Shrinks p] [MayRunOut p] (ts : List Token) :
    ∀ ⦃a rest⦄, afterEachOf separator p ts = .ok (a, rest) → rest ≠ [] →
      ∃ taken, taken ++ rest = ts ∧ Balanced taken := by
  fun_induction afterEachOf separator p ts with
  | case1 =>
    rintro a rest ⟨⟩ left
    exact ⟨[], rfl, balanced_nil⟩
  | case2 => rintro a rest ⟨⟩
  | case3 t rest same a more ok le ih =>
    intro b last h left
    obtain ⟨⟨others, final⟩, read, result⟩ := Grammar.map_eq_ok.mp h
    cases result
    obtain ⟨taken', rfl, even'⟩ := ih read left
    obtain ⟨taken, rfl, even⟩ := MayRunOut.balanced ok (by simp [left])
    obtain ⟨notOpen, notClosed⟩ := Plain.ne (k := .symbol separator)
    rw [← beq_iff_eq.mp same] at notOpen notClosed
    exact ⟨[t] ++ taken ++ taken', by simp,
      ((balanced_singleton notOpen notClosed).append even).append even'⟩
  | case4 t rest same a more ok longer => exact absurd (Shrinks.length_le ok) longer
  | case5 t rest =>
    rintro a last ⟨⟩ left
    exact ⟨[], rfl, balanced_nil⟩

instance (separator : Symbol) [Plain (.symbol separator)] (p : Reader α) [Shrinks p]
    [MayRunOut p] : MayRunOut (afterEach separator p) where
  balanced _ _ _ h left := balanced_of_afterEachOf separator p _ h left

instance (a : α) : OpensBrace (symbol .lbrace >>= fun _ => pure a) where
  opens ts b rest h := by
    obtain ⟨brace, mid, first, second⟩ := bind_eq_ok.mp h
    cases second
    obtain ⟨rfl, opens⟩ := symbol_eq_ok first
    exact ⟨[], brace, rfl, balanced_nil, opens⟩

instance {p : Reader α} {f : α → β} [OpensBrace p] : OpensBrace (f <$> p) where
  opens ts b rest h := by
    obtain ⟨a, first, -⟩ := mapped_eq_ok.mp h
    exact OpensBrace.opens first

end Reader

/-! ### Productions -/

namespace Grammar

open Reader Number

instance {α : Type} (t : Token) (value : Except LiteralError α) :
    Balances (valueOf t value) := by
  cases value <;> (unfold valueOf; infer_instance)

instance : MayRunOut dottedName := by unfold dottedName; infer_instance

instance : Balances integer := by unfold integer; infer_instance

/-- Unless it runs out, a braced group closes what is open. -/
theorem counts_of_braced {depth : Nat} {ts : List Token} (left : (braced depth ts).2 ≠ []) :
    (∀ front back, front ++ back = (braced depth ts).1 →
      closings front ≤ openings front + depth) ∧
    closings (braced depth ts).1 = openings (braced depth ts).1 + depth := by
  fun_induction braced depth ts with
  | case1 ts =>
    refine ⟨fun front back whole => ?_, rfl⟩
    obtain ⟨rfl, -⟩ := List.append_eq_nil_iff.mp whole
    exact Nat.le_refl 0
  | case2 => exact absurd rfl left
  | case3 depth t rest inside after read ih =>
    rw [read] at ih
    obtain ⟨below, closes⟩ := ih left
    have other : ¬ (Symbol.lbrace = Symbol.rbrace) := by decide
    refine ⟨fun front back whole => ?_, ?_⟩
    · cases front with
      | nil => simp
      | cons u front =>
        obtain ⟨rfl, within⟩ := List.cons.inj whole
        have below := below front back within
        rw [openings_cons, closings_cons]
        split_ifs at below ⊢ <;> simp_all <;> omega
    · dsimp only at closes ⊢
      rw [openings_cons, closings_cons, closes]
      split_ifs <;> simp_all <;> omega

instance : MayRunOut aggregate where
  balanced ts a rest h left := by
    obtain ⟨brace, mid, first, second⟩ := bind_eq_ok.mp h
    obtain ⟨inside, after, third, fourth⟩ := bind_eq_ok.mp second
    cases fourth
    have read : braced 1 mid = (inside, rest) := Except.ok.inj third
    obtain ⟨rfl, opens⟩ := symbol_eq_ok first
    have split := braced_append 1 mid
    have counts := @counts_of_braced 1 mid (by rwa [read])
    rw [read] at split counts
    obtain ⟨below, closes⟩ := counts
    exact ⟨brace :: inside, congrArg (brace :: ·) split, balanced_cons opens below closes⟩

instance (negative : Bool) : Balances (numberConstant negative) := by
  unfold numberConstant; infer_instance

instance (negative : Bool) : MayRunOut (namedConstant negative) := by
  unfold namedConstant; infer_instance

instance (negative : Bool) (k : Option TokenKind) : MayRunOut (signedConstant negative k) := by
  unfold signedConstant; infer_instance

instance (k : Option TokenKind) : MayRunOut (constantAt k) := by
  unfold constantAt; infer_instance

instance : MayRunOut constant := by unfold constant; infer_instance

instance : MayRunOut optionPart := by unfold optionPart; infer_instance

instance : MayRunOut setting := by unfold setting; infer_instance

instance : Balances optionStatement := by unfold optionStatement; infer_instance

instance : Balances bracketedSettings := by unfold bracketedSettings; infer_instance

instance : Balances dialectStatement := by unfold dialectStatement; infer_instance

instance : Balances editionStatement := by unfold editionStatement; infer_instance

instance : Balances packageStatement := by unfold packageStatement; infer_instance

instance : Balances importMode := by unfold importMode; infer_instance

instance : Balances importStatement := by unfold importStatement; infer_instance

instance : Balances label := by unfold label; infer_instance

set_option synthInstance.maxSize 256 in
instance : Balances mapType := by unfold mapType; infer_instance

instance : MayRunOut fieldType where
  balanced ts a rest h left := by
    unfold fieldType at h
    split at h
    · exact Balances.balanced h
    · exact MayRunOut.balanced h left

instance (label : Option Label) : Balances (field label) := by unfold field; infer_instance

instance : Balances enumValue := by unfold enumValue; infer_instance

instance : Balances rpcType := by unfold rpcType; infer_instance

instance (k : Option TokenKind) : MayRunOut (rpcEndAt k) := by unfold rpcEndAt; infer_instance

set_option synthInstance.maxSize 512 in
instance : MayRunOut rpc := by unfold rpc; infer_instance

instance (k : Keyword) : OpensBrace (namedHeader k) := by unfold namedHeader; infer_instance

instance : OpensBrace extendHeader := by unfold extendHeader; infer_instance

instance (label : Option Label) : OpensBrace (groupHeader label) := by
  unfold groupHeader; infer_instance

/-! ### Entries -/

/-- A statement that is passed over: a semicolon on its own, or a keyword and all that follows
up to the next semicolon. -/
def PassedOver (s : List Token) : Prop :=
  ∃ semicolon, semicolon.kind = .symbol .semicolon ∧ (s = [semicolon] ∨
    ∃ keyword inside, s = keyword :: (inside ++ [semicolon]) ∧
      (∃ k ∈ [Keyword.option, .reserved, .extensions], keyword.kind = .keyword k) ∧
      ∀ t ∈ inside, t.kind ≠ .symbol .semicolon)

/-- What an entry takes: a statement that is passed over, something balanced, or something
balanced up to the brace that opens a body. -/
def Entry.Spans : Entry → List Token → Prop
  | .close, taken => Balanced taken
  | .skip, taken => PassedOver taken
  | .leaf _, taken => Balanced taken
  | .header _, taken | .oneof _, taken =>
    ∃ front brace, front ++ [brace] = taken ∧ Balanced front ∧ brace.kind = .symbol .lbrace

/-- Unless it comes to the end of the text, `p` takes what its entry is said to take. -/
def Spends (p : Reader Entry) : Prop :=
  ∀ ⦃ts e rest⦄, p ts = .ok (e, rest) → rest ≠ [] → ∃ taken, taken ++ rest = ts ∧ e.Spans taken

section Entries

variable {α : Type} {p : Reader α}

theorem spends_refuse (fault : Fault) : Spends (refuse fault) := by
  intro ts e rest h
  cases h

theorem spends_leaf [MayRunOut p] {f : α → Leaf} : Spends ((.leaf ∘ f) <$> p) := by
  intro ts e rest h left
  obtain ⟨a, first, rfl⟩ := mapped_eq_ok.mp h
  exact MayRunOut.balanced first left

theorem opened_of_ok [OpensBrace p] {ts rest : List Token} {a : α} (h : p ts = .ok (a, rest)) :
    ∃ taken, taken ++ rest = ts ∧ ∃ front brace, front ++ [brace] = taken ∧ Balanced front ∧
      brace.kind = .symbol .lbrace := by
  obtain ⟨front, brace, rfl, even, opens⟩ := OpensBrace.opens h
  exact ⟨front ++ [brace], List.append_cons .. |>.symm, front, brace, rfl, even, opens⟩

theorem spends_header [OpensBrace p] {f : α → Header} : Spends ((.header ∘ f) <$> p) := by
  intro ts e rest h left
  obtain ⟨a, first, rfl⟩ := mapped_eq_ok.mp h
  exact opened_of_ok first

theorem spends_oneof {p : Reader String} [OpensBrace p] : Spends (.oneof <$> p) := by
  intro ts e rest h left
  obtain ⟨a, first, rfl⟩ := mapped_eq_ok.mp h
  exact opened_of_ok first

theorem spends_skipStatement {k : Keyword}
    (passed : k ∈ [Keyword.option, .reserved, .extensions]) : Spends (skipStatement k) := by
  intro ts e rest h left
  obtain ⟨t, mid, first, second⟩ := bind_eq_ok.mp h
  obtain ⟨_, after, third, fourth⟩ := bind_eq_ok.mp second
  cases fourth
  have whole : afterSemicolon mid = rest := congrArg Prod.snd (Except.ok.inj third)
  obtain ⟨inside, semicolon, rfl, same, plain⟩ := afterSemicolon_eq whole left
  obtain ⟨rfl, begins⟩ := expect_eq_ok first
  exact ⟨t :: (inside ++ [semicolon]), by simp, semicolon, same,
    .inr ⟨t, inside, rfl, ⟨k, passed, begins⟩, plain⟩⟩

theorem spends_lonelySemicolon : Spends lonelySemicolon := by
  intro ts e rest h left
  obtain ⟨t, mid, first, second⟩ := bind_eq_ok.mp h
  cases second
  obtain ⟨rfl, same⟩ := symbol_eq_ok first
  exact ⟨[t], rfl, t, same, .inl rfl⟩

theorem Spends.after [MayRunOut p] {f : α → Reader Entry} [∀ a, Shrinks (f a)]
    (h : ∀ a, Spends (f a)) (declares : ∀ a, Gives (f a) (· ≠ .skip)) : Spends (p >>= f) := by
  intro ts e rest run left
  obtain ⟨a, mid, first, second⟩ := bind_eq_ok.mp run
  obtain ⟨taken, rfl, spans⟩ := h a second left
  obtain ⟨before, rfl, even⟩ := MayRunOut.balanced first (by simp [left])
  refine ⟨before ++ taken, List.append_assoc _ _ _, ?_⟩
  cases e with
  | close => exact even.append spans
  | skip => exact absurd rfl (declares a second)
  | leaf => exact even.append spans
  | header | oneof =>
    obtain ⟨front, brace, rfl, even', opens⟩ := spans
    exact ⟨before ++ front, brace, List.append_assoc _ _ _, even.append even', opens⟩

theorem spends_fieldOrGroup : Spends fieldOrGroup := by
  unfold fieldOrGroup
  have declares (label : Option Label) (next : Option TokenKind) :
      Gives (fieldOrGroupAt label next) (· ≠ .skip) :=
    gives_ite (fun _ => .map (gives_of_forall fun _ => by simp))
      fun _ => .map (gives_of_forall fun _ => by simp)
  have at_ (label : Option Label) (next : Option TokenKind) :
      Spends (fieldOrGroupAt label next) := by
    unfold fieldOrGroupAt
    split
    · exact spends_header
    · exact spends_leaf
  exact .after (fun label => .after (at_ label) (declares label))
    fun label => .bind (declares label)

theorem spends_entryAt (r : Region) (k : TokenKind) : Spends (entryAt r k) := by
  unfold entryAt
  split
  · exact spends_lonelySemicolon
  cases r with
  | message =>
    dsimp only
    unfold messageEntryAt
    split
    · exact spends_header
    · exact spends_header
    · exact spends_header
    · exact spends_leaf
    · exact spends_oneof
    · exact spends_skipStatement (by simp)
    · exact spends_skipStatement (by simp)
    · exact spends_fieldOrGroup
  | oneof =>
    dsimp only
    unfold oneofEntryAt
    split
    · exact spends_skipStatement (by simp)
    · exact spends_fieldOrGroup
  | extend => exact spends_fieldOrGroup
  | enum =>
    dsimp only
    unfold enumEntryAt
    split
    · exact spends_leaf
    · exact spends_skipStatement (by simp)
    · exact spends_leaf
  | service =>
    dsimp only
    unfold serviceEntryAt
    split
    · exact spends_leaf
    · exact spends_leaf
    · exact spends_refuse _

theorem spends_entry (r : Region) : Spends (entry r) := by
  intro ts e rest h left
  obtain ⟨k, mid, first, second⟩ := bind_eq_ok.mp h
  obtain rfl : ts = mid := congrArg Prod.snd (Except.ok.inj first)
  cases k with
  | none =>
    cases second
    exact ⟨[], rfl, balanced_nil⟩
  | some k =>
    rw [entryFrom] at second
    by_cases closes : k = .symbol .rbrace
    · rw [if_pos closes] at second
      cases second
      exact ⟨[], rfl, balanced_nil⟩
    · rw [if_neg closes] at second
      exact spends_entryAt r k second left

end Entries

/-! ### Bodies and files -/

/-- All that is out of balance in `taken` is in the statements `passed`. -/
structure Accounts (passed : List (List Token)) (taken : List Token) : Prop where
  overs : ∀ s ∈ passed, PassedOver s
  excess : excess taken = (passed.map excess).sum
  balanced : (∀ s ∈ passed, Balanced s) → Balanced taken

section Accounts

variable {passed passed' : List (List Token)} {taken taken' : List Token}

theorem accounts_of_balanced (h : Balanced taken) : Accounts [] taken where
  overs := by simp
  excess := h.excess_eq
  balanced _ := h

theorem PassedOver.accounts (h : PassedOver taken) : Accounts [taken] taken where
  overs := List.forall_mem_singleton.mpr h
  excess := by simp
  balanced all := all taken List.mem_cons_self

theorem Accounts.append (h : Accounts passed taken) (h' : Accounts passed' taken') :
    Accounts (passed ++ passed') (taken ++ taken') where
  overs := List.forall_mem_append.mpr ⟨h.overs, h'.overs⟩
  excess := by rw [excess_append, h.excess, h'.excess, List.map_append, List.sum_append]
  balanced all := by
    obtain ⟨first, second⟩ := List.forall_mem_append.mp all
    exact (h.balanced first).append (h'.balanced second)

theorem Accounts.wrap {brace closing : Token} (h : Accounts passed taken)
    (opens : brace.kind = .symbol .lbrace) (closes : closing.kind = .symbol .rbrace) :
    Accounts passed (brace :: (taken ++ [closing])) where
  overs := h.overs
  excess := by
    have split : brace :: (taken ++ [closing]) = [brace] ++ taken ++ [closing] := by simp
    rw [split, excess_append, excess_append, excess_lbrace opens, excess_rbrace closes, h.excess]
    omega
  balanced all := (h.balanced all).wrap opens closes

end Accounts

/-- A body, behind the brace that opens it and with the one that closes it. -/
theorem Accounts.block {passed passed' : List (List Token)} {taken taken' front : List Token}
    {brace closing : Token} (h : Accounts passed taken) (h' : Accounts passed' taken')
    (even : Balanced front) (opens : brace.kind = .symbol .lbrace)
    (closes : closing.kind = .symbol .rbrace) :
    Accounts (passed ++ passed')
      (front ++ (brace :: (taken ++ [closing]) ++ taken')) :=
  (accounts_of_balanced even).append ((h.wrap opens closes).append h')

/-- All that is out of balance in a body is in the statements that are passed over in it. -/
theorem BodyRead.accounts {needed : Nat} {r : Region} {ts rest : List Token} {nodes : List Node}
    {passed : List (List Token)} (h : BodyRead needed r ts nodes passed rest) (left : rest ≠ []) :
    ∃ taken, taken ++ rest = ts ∧ Accounts passed taken := by
  induction h with
  | close next =>
    obtain ⟨taken, split, even⟩ := spends_entry _ next left
    exact ⟨taken, split, accounts_of_balanced even⟩
  | skip next split _ ih =>
    obtain ⟨taken, rfl, accounts⟩ := ih left
    obtain ⟨skipped, split', inside⟩ := spends_entry _ next (by simp [left])
    obtain rfl := List.append_cancel_right (split'.trans split.symm)
    exact ⟨skipped ++ taken, by rw [← split, List.append_assoc], inside.accounts.append accounts⟩
  | leaf next _ ih =>
    obtain ⟨taken', rfl, accounts⟩ := ih left
    obtain ⟨taken, rfl, even⟩ := spends_entry _ next (by simp [left])
    exact ⟨taken ++ taken', List.append_assoc _ _ _, (accounts_of_balanced even).append accounts⟩
  | block next _ closing _ ihInner ih | oneof next _ closing _ ihInner ih =>
    obtain ⟨taken', rfl, accounts'⟩ := ih left
    obtain ⟨rfl, closes⟩ := symbol_eq_ok closing
    obtain ⟨taken, rfl, accounts⟩ := ihInner (by simp)
    obtain ⟨_, rfl, front, brace, rfl, even, opens⟩ := spends_entry _ next (by simp)
    exact ⟨_, by simp, accounts.block accounts' even opens closes⟩

/-- What a statement of a file takes. -/
def Statement.Spans : Statement → List Token → Prop
  | .header _, taken =>
    ∃ front brace, front ++ [brace] = taken ∧ Balanced front ∧ brace.kind = .symbol .lbrace
  | _, taken => Balanced taken

/-- `p` takes what its statement is said to take. -/
def Leads (p : Reader Statement) : Prop :=
  ∀ ⦃ts s rest⦄, p ts = .ok (s, rest) → ∃ taken, taken ++ rest = ts ∧ s.Spans taken

theorem leads_refuse (fault : Fault) : Leads (refuse fault) := by
  intro ts s rest h
  cases h

theorem leads_map {α : Type} {p : Reader α} [Balances p] {f : α → Statement}
    (noHeader : ∀ a taken, Balanced taken → (f a).Spans taken) : Leads (f <$> p) := by
  intro ts s rest h
  obtain ⟨a, first, rfl⟩ := mapped_eq_ok.mp h
  obtain ⟨taken, split, even⟩ := Balances.balanced first
  exact ⟨taken, split, noHeader a taken even⟩

theorem leads_header {α : Type} {p : Reader α} [OpensBrace p] {f : α → Header} :
    Leads ((.header ∘ f) <$> p) := by
  intro ts s rest h
  obtain ⟨a, first, rfl⟩ := mapped_eq_ok.mp h
  exact opened_of_ok first

theorem leads_statementAt (hasPackage : Bool) (t : Token) : Leads (statementAt hasPackage t) := by
  have plain : ∀ taken, Balanced taken → Balanced taken := fun _ even => even
  unfold statementAt
  split
  · exact leads_map fun _ => plain
  · exact leads_map fun _ => plain
  · split
    · exact leads_refuse _
    · exact leads_map fun _ => plain
  · exact leads_map fun _ => plain
  · exact leads_map fun _ => plain
  · exact leads_header
  · exact leads_header
  · exact leads_header
  · exact leads_header
  · split
    · exact leads_map fun _ => plain
    · exact leads_refuse _

/-- All that is out of balance in a file is in the statements that are passed over in it. -/
theorem FileRead.accounts {needed : Nat} {hasPackage : Bool} {ts : List Token}
    {dialects : List String} {nodes : List Node} {passed : List (List Token)}
    (h : FileRead needed hasPackage ts dialects nodes passed) : Accounts passed ts := by
  induction h with
  | finish => exact accounts_of_balanced balanced_nil
  | blank next _ ih | dialect next _ ih | leaf next _ ih =>
    obtain ⟨taken, split, even⟩ := leads_statementAt _ _ next
    rw [← split]
    exact (accounts_of_balanced even).append ih
  | block next inner closing _ ih =>
    obtain ⟨rfl, closes⟩ := symbol_eq_ok closing
    obtain ⟨taken, rfl, accounts⟩ := inner.accounts (by simp)
    obtain ⟨_, split, front, brace, rfl, even, opens⟩ := leads_statementAt _ _ next
    have whole := accounts.block ih even opens closes
    rw [← split]
    simpa using whole

end Grammar

/-- How the braces of an accepted file come out. Each of its statements is read as a whole or
passed over up to a semicolon. All that is out of balance is in the latter: by as many braces as
they open too much or too little, the file does, and if each of them is balanced, so is the
file. -/
theorem parse_accounts {frames : Nat} {uri text : String} {d : Document}
    (parsed : Document.parse frames uri text = .ok d) :
    ∃ needed ≤ frames, ∃ dialects passed,
      Grammar.FileRead needed false (tokenize text).tokens dialects d.statements passed ∧
      (∀ s ∈ passed, Grammar.PassedOver s) ∧
      excess (tokenize text).tokens = (passed.map excess).sum ∧
      ((∀ s ∈ passed, Balanced s) → Balanced (tokenize text).tokens) := by
  obtain ⟨c, read, rfl⟩ := Document.parse_eq_ok_iff.mp parsed
  obtain ⟨needed, enough, passed, whole⟩ := Grammar.fileRead_of_ok read
  have accounts := whole.accounts
  exact ⟨needed, enough, c.dialects, passed, whole, accounts.overs, accounts.excess,
    accounts.balanced⟩

/-- A message whose closing brace is passed over together with an import behind it. -/
def swallowingText : String := "message M { reserved 1 } import \"x.proto\"; \x7d"

/-- What is read: the import is in no statement. -/
def swallowingDocument : Document := ⟨"", none, [.block (.message "M") []]⟩

/-- One statement that is passed over closes a brace too much, and so does the file. -/
theorem parse_accounts_swallowing :
    Document.parse 1000 "" swallowingText = .ok swallowingDocument ∧
    ∃ passed : List (List Token), (∀ s ∈ passed, Grammar.PassedOver s) ∧
      (passed.map excess).sum = -1 ∧ ¬ ∀ s ∈ passed, Balanced s := by
  have parsed : Document.parse 1000 "" swallowingText = .ok swallowingDocument := by decide +kernel
  have one : excess (tokenize swallowingText).tokens = -1 := by decide +kernel
  obtain ⟨-, -, dialects, passed, -, overs, total, balanced⟩ := parse_accounts parsed
  refine ⟨parsed, passed, overs, total.symm.trans one, fun all => ?_⟩
  have even := (balanced all).excess_eq
  rw [one] at even
  exact absurd even (by decide)

/-- So a file with more closing braces than opening ones is accepted. -/
theorem swallowing_not_balanced :
    Document.parse 1000 "" swallowingText = .ok swallowingDocument ∧
    openings (tokenize swallowingText).tokens = 1 ∧
    closings (tokenize swallowingText).tokens = 2 ∧
    ¬ Balanced (tokenize swallowingText).tokens := by
  have one : openings (tokenize swallowingText).tokens = 1 := by decide +kernel
  have two : closings (tokenize swallowingText).tokens = 2 := by decide +kernel
  refine ⟨by decide +kernel, one, two, fun even => ?_⟩
  have settled := even.settled
  rw [one, two] at settled
  exact absurd settled (by decide)

end ProtoNames
