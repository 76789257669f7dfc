import ProtoNames.Proofs.Bodies

/-!
Where a text is refused.

`Blames p`: if the reader `p` refuses at a token, it has been given that token. It composes
along `>>=`, since readers leave a part of what they are given, and holds of every production.
So a text is refused at one of its own tokens, or at its end (`found_mem_of_parse`).
-/

namespace ProtoNames

open Number

namespace Reader

variable {α β : Type}

/-- A refusal names one of some tokens, or the end of the text. -/
def Refusal.Within (r : Refusal) (ts : List Token) : Prop := ∀ t, r.found = some t → t ∈ ts

/-- If `p` refuses at a token, this is one that it was given. -/
class Blames (p : Reader α) : Prop where
  within : ∀ ⦃ts r⦄, p ts = .error r → Refusal.Within r ts

theorem bind_eq_error_iff {p : Reader α} {f : α → Reader β} {ts : List Token} {r : Refusal} :
    (p >>= f) ts = .error r ↔
      p ts = .error r ∨ ∃ a mid, p ts = .ok (a, mid) ∧ f a mid = .error r := by
  change (p ts >>= fun x => f x.1 x.2) = _ ↔ _
  match p ts with
  | .error e => simp [bind, Except.bind]
  | .ok (a, mid) =>
    constructor
    · intro h
      exact .inr ⟨a, mid, rfl, h⟩
    · rintro (failed | ⟨_, _, first, second⟩)
      · cases failed
      · cases first
        exact second

theorem Refusal.within_head (ts : List Token) (fault : Fault) : Refusal.Within ⟨ts.head?, fault⟩ ts :=
  fun _ found => List.mem_of_mem_head? found

theorem Refusal.Within.mono {r : Refusal} {ts more : List Token} (h : Refusal.Within r ts)
    (sub : ts ⊆ more) : Refusal.Within r more :=
  fun t found => sub (h t found)

instance (a : α) : Blames (pure a : Reader α) where
  within _ _ h := by cases h

instance {p : Reader α} {f : α → Reader β} [Shrinks p] [Blames p] [∀ a, Blames (f a)] :
    Blames (p >>= f) where
  within ts r h := by
    rcases bind_eq_error_iff.mp h with first | ⟨a, mid, first, second⟩
    · exact Blames.within first
    · exact (Blames.within second).mono (Shrinks.suffix first).subset

instance {p : Reader α} {f : α → β} [Shrinks p] [Blames p] : Blames (f <$> p) := by
  rw [← bind_pure_comp]; infer_instance

instance {c : Prop} [Decidable c] {p q : Reader α} [Blames p] [Blames q] :
    Blames (if c then p else q) := by
  split <;> infer_instance

instance : Blames peek where
  within _ _ h := by cases h

instance : Blames nextKind where
  within _ _ h := by cases h

instance (fault : Fault) : Blames (refuse fault : Reader α) where
  within ts _ h := by
    cases h
    exact Refusal.within_head ts fault

instance (test : TokenKind → Bool) (fault : Fault) : Blames (take test fault) where
  within ts r h := by
    cases ts with
    | nil =>
      cases h
      rintro t ⟨⟩
    | cons t more =>
      simp only [take] at h
      split at h
      · cases h
      · cases h
        exact Refusal.within_head (t :: more) fault

instance (k : TokenKind) : Blames (expect k) := by unfold expect; infer_instance

instance (k : Keyword) : Blames (keyword k) := by unfold keyword; infer_instance

instance (s : Symbol) : Blames (symbol s) := by unfold symbol; infer_instance

instance : Blames name := by unfold name; infer_instance

instance (k : TokenKind) : Blames (accept k) where
  within ts r h := by
    cases ts with
    | nil => cases h
    | cons t more =>
      simp only [accept] at h
      split at h <;> cases h

instance (k : TokenKind) : Blames (takeAll k) where
  within _ _ h := by cases h

theorem within_of_afterEachOf (separator : Symbol) (p : Reader α) [Shrinks p] [Blames p]
    (ts : List Token) :
    ∀ ⦃r⦄, afterEachOf separator p ts = .error r → Refusal.Within r ts := by
  fun_induction afterEachOf separator p ts with
  | case1 => rintro r ⟨⟩
  | case2 t rest _ e refused =>
    rintro r ⟨⟩
    exact (Blames.within refused).mono (List.subset_cons_self t rest)
  | case3 t rest _ a more ok le ih =>
    intro r h
    have inside : more ⊆ t :: rest :=
      ((Shrinks.suffix ok).trans (List.suffix_cons t rest)).subset
    cases onwards : afterEachOf separator p more with
    | error e =>
      rw [onwards] at h
      cases h
      exact (ih onwards).mono inside
    | ok others =>
      rw [onwards] at h
      cases h
  | case4 => rintro r ⟨⟩
  | case5 => rintro r ⟨⟩

instance (separator : Symbol) (p : Reader α) [Shrinks p] [Blames p] :
    Blames (afterEach separator p) where
  within _ _ h := within_of_afterEachOf separator p _ h

/-- A token that was taken may be blamed later on. -/
theorem blames_expect_bind {k : TokenKind} {f : Token → Reader β}
    (onwards : ∀ t ts r, f t ts = .error r → Refusal.Within r (t :: ts)) :
    Blames (expect k >>= f) where
  within ts r h := by
    rcases bind_eq_error_iff.mp h with first | ⟨t, mid, first, second⟩
    · exact Blames.within first
    · cases ts with
      | nil => cases first
      | cons u more =>
        simp only [expect, take] at first
        split at first
        · cases first
          exact onwards _ _ r second
        · cases first

end Reader

namespace Grammar

open Reader

/-! ### Numbers and constants -/

theorem within_of_valueOf {α β : Type} {t : Token} {value : Except LiteralError α}
    {f : α → Reader β} [∀ a, Blames (f a)] {ts : List Token} {r : Refusal}
    (h : (valueOf t value >>= f) ts = .error r) : Refusal.Within r (t :: ts) := by
  cases value with
  | ok a =>
    rcases bind_eq_error_iff.mp h with first | ⟨b, mid, first, second⟩
    · cases first
    · cases first
      exact (Blames.within second).mono (List.subset_cons_self t ts)
  | error e =>
    rcases bind_eq_error_iff.mp h with first | ⟨b, mid, first, second⟩
    · cases first
      rintro _ ⟨⟩
      exact List.mem_cons_self
    · cases first

instance : Blames dottedName := by unfold dottedName; infer_instance

instance (negative : Bool) : Blames (numberConstant negative) := by
  unfold numberConstant
  exact blames_expect_bind fun _ _ _ h => within_of_valueOf h

instance : Blames integer := by
  unfold integer
  have number (negative : Bool) : Blames (expect .number >>= fun t =>
      valueOf t (readInt t.text) >>= fun n => (pure (withSign negative n) : Reader Int)) :=
    blames_expect_bind fun _ _ _ h => within_of_valueOf h
  infer_instance

instance : Blames bracedRest where
  within _ _ h := by cases h

instance : Blames aggregate := by unfold aggregate; infer_instance

/-- A sign is refused at the token behind it, which is next. -/
instance (negative : Bool) : Blames (namedConstant negative) where
  within ts r h := by
    unfold namedConstant at h
    rcases bind_eq_error_iff.mp h with first | ⟨next, mid, first, second⟩
    · cases first
    cases first
    rcases bind_eq_error_iff.mp second with first | ⟨word, mid, first, second⟩
    · exact Blames.within first
    split at second
    · cases second
    · split at second
      · cases second
      · split at second
        · cases second
          exact Refusal.within_head ts _
        · split at second
          · cases second
          · split at second <;> cases second

instance (negative : Bool) (k : Option TokenKind) : Blames (signedConstant negative k) := by
  unfold signedConstant; infer_instance

instance (k : Option TokenKind) : Blames (constantAt k) := by
  unfold constantAt; infer_instance

instance : Blames constant := by unfold constant; infer_instance

/-! ### Productions -/

instance : Blames optionPart := by unfold optionPart; infer_instance

instance : Blames setting := by unfold setting; infer_instance

instance : Blames optionStatement := by unfold optionStatement; infer_instance

instance : Blames bracketedSettings := by unfold bracketedSettings; infer_instance

instance : Blames dialectStatement := by unfold dialectStatement; infer_instance

instance : Blames editionStatement := by unfold editionStatement; infer_instance

instance : Blames packageStatement := by unfold packageStatement; infer_instance

instance : Blames importMode := by unfold importMode; infer_instance

instance : Blames importStatement := by unfold importStatement; infer_instance

instance : Blames label := by unfold label; infer_instance

set_option synthInstance.maxSize 256 in
instance : Blames mapType := by unfold mapType; infer_instance

instance : Blames fieldType where
  within ts r h := by
    unfold fieldType at h
    split at h
    · exact Blames.within h
    · exact Blames.within h

instance (label : Option Label) : Blames (field label) := by unfold field; infer_instance

instance : Blames enumValue := by unfold enumValue; infer_instance

instance : Blames rpcType := by unfold rpcType; infer_instance

instance (k : Option TokenKind) : Blames (rpcEndAt k) := by unfold rpcEndAt; infer_instance

instance : Blames rpc := by unfold rpc; infer_instance

instance (k : Keyword) : Blames (namedHeader k) := by unfold namedHeader; infer_instance

instance : Blames extendHeader := by unfold extendHeader; infer_instance

set_option synthInstance.maxSize 256 in
instance (label : Option Label) : Blames (groupHeader label) := by
  unfold groupHeader; infer_instance

instance : Blames skipToSemicolon where
  within _ _ h := by cases h

instance (k : Keyword) : Blames (skipStatement k) := by unfold skipStatement; infer_instance

instance (label : Option Label) (k : Option TokenKind) : Blames (fieldOrGroupAt label k) := by
  unfold fieldOrGroupAt; infer_instance

instance : Blames fieldOrGroup := by unfold fieldOrGroup; infer_instance

instance (k : TokenKind) : Blames (messageEntryAt k) := by
  unfold messageEntryAt; split <;> infer_instance

instance (k : TokenKind) : Blames (oneofEntryAt k) := by
  unfold oneofEntryAt; split <;> infer_instance

instance (k : TokenKind) : Blames (enumEntryAt k) := by
  unfold enumEntryAt; split <;> infer_instance

instance (k : TokenKind) : Blames (serviceEntryAt k) := by
  unfold serviceEntryAt; split <;> infer_instance

instance : Blames lonelySemicolon := by unfold lonelySemicolon; infer_instance

instance (r : Region) (k : TokenKind) : Blames (entryAt r k) := by
  unfold entryAt; cases r <;> infer_instance

instance (r : Region) (k : Option TokenKind) : Blames (entryFrom r k) := by
  cases k <;> (unfold entryFrom; infer_instance)

instance (r : Region) : Blames (entry r) := by unfold entry; infer_instance

instance (hasPackage : Bool) (t : Token) : Blames (statementAt hasPackage t) := by
  unfold statementAt; split <;> infer_instance

/-! ### Bodies and files -/

/-- Where a body is refused, it is at one of its tokens, or at the end. -/
theorem bodyOf_within {frames : Nat} {r : Region} {ts : List Token} {e : Refusal}
    (h : bodyOf frames r ts = .error (.refused e)) : Refusal.Within e ts := by
  fun_induction bodyOf frames r ts with
  | case1 frames r ts failure refused =>
    cases h
    exact Blames.within refused
  | case2 => cases h
  | case3 frames r ts rest next lt ih | case4 frames r ts l rest next lt ih =>
    exact (ih (map_eq_error.mp h)).mono (Shrinks.suffix next).subset
  | case5 | case9 => cases h
  | case6 frames r ts header rest next lt room failure refused ih
  | case10 frames r ts name rest next lt room failure refused ih =>
    cases h
    exact (ih refused).mono (Shrinks.suffix next).subset
  | case7 frames r ts header rest next lt room inner inside le failure refused ih
  | case11 frames r ts name rest next lt room inner inside le failure refused ih =>
    cases h
    obtain ⟨_, _, passed, read⟩ := bodyRead_of_ok inside
    exact (Blames.within refused).mono (read.suffix.trans (Shrinks.suffix next)).subset
  | case8 frames r ts header rest next lt room inner inside le t after closing shorter ihInner ih
  | case12 frames r ts name rest next lt room inner inside le t after closing shorter ihInner ih =>
    obtain ⟨_, _, passed, read⟩ := bodyRead_of_ok inside
    have left := (Shrinks.suffix closing).trans (read.suffix.trans (Shrinks.suffix next))
    exact (ih (map_eq_error.mp h)).mono left.subset

/-- Where a file is refused, it is at one of its tokens, or at the end. -/
theorem contents_within {frames : Nat} {hasPackage : Bool} {ts : List Token} {e : Refusal}
    (h : contents frames hasPackage ts = .error (.refused e)) : Refusal.Within e ts := by
  fun_induction contents frames hasPackage ts with
  | case1 => cases h
  | case2 hasPackage t more failure refused =>
    cases h
    exact Blames.within refused
  | case3 hasPackage t more rest next lt ih =>
    exact (ih h).mono (Shrinks.suffix next).subset
  | case4 hasPackage t more name rest next lt ih =>
    exact (ih (map_eq_error.mp h)).mono (Shrinks.suffix next).subset
  | case5 hasPackage t more l rest next lt ih =>
    exact (ih (map_eq_error.mp h)).mono (Shrinks.suffix next).subset
  | case6 => cases h
  | case7 hasPackage t more header rest next lt room failure refused =>
    cases h
    exact (bodyOf_within refused).mono (Shrinks.suffix next).subset
  | case8 hasPackage t more header rest next lt room inner inside le failure refused =>
    cases h
    obtain ⟨_, _, passed, read⟩ := bodyRead_of_ok inside
    exact (Blames.within refused).mono (read.suffix.trans (Shrinks.suffix next)).subset
  | case9 hasPackage t more header rest next lt room inner inside le s after closing shorter ih =>
    obtain ⟨_, _, passed, read⟩ := bodyRead_of_ok inside
    have left := (Shrinks.suffix closing).trans (read.suffix.trans (Shrinks.suffix next))
    exact (ih (map_eq_error.mp h)).mono left.subset

end Grammar

/-- If a text is refused at a token, this is one of its tokens, and its place is given. -/
theorem Document.found_mem_of_parse {frames : Nat} {uri text : String} {e : ParseError} {t : Token}
    (refused : Document.parse frames uri text = .error (.refused e))
    (found : e.refusal.found = some t) :
    t ∈ (tokenize text).tokens ∧ e.position = t.position := by
  unfold Document.parse Document.ofTokens at refused
  cases read : Grammar.contents frames false (tokenize text).tokens with
  | ok c => simp [read] at refused
  | error failure =>
    cases failure with
    | tooDeep => simp [read] at refused
    | refused r =>
      simp only [read, Except.error.injEq, ReadFailure.refused.injEq] at refused
      subst refused
      dsimp only at found
      exact ⟨Grammar.contents_within read t found, by simp [found]⟩

end ProtoNames
