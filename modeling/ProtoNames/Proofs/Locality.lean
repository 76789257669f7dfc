import Mathlib.Data.List.TakeWhile
import ProtoNames.Proofs.Bodies
import ProtoNames.Proofs.Reading

/-!
What a production is read as depends on little.

`Local p`: what the reader `p` gives depends on the lexemes that it takes, wherever these stand,
and on the sort of the token behind them. `Sealed p`: not even on that token, if there is one.
Both compose along `>>=`. All productions are local, and those that end with a delimiter of
their own, as entries of bodies do, are sealed.
-/

namespace ProtoNames

theorem headKind_append {front more more' : List Lexeme} (same : headKind more = headKind more') :
    headKind (front ++ more) = headKind (front ++ more') := by
  cases front with
  | nil => exact same
  | cons => rfl

theorem headKind_append_of_ne_nil {front : List Lexeme} (nonempty : front ≠ [])
    (more more' : List Lexeme) : headKind (front ++ more) = headKind (front ++ more') := by
  cases front with
  | nil => exact absurd rfl nonempty
  | cons => rfl

namespace Reader

variable {α β : Type}

/-- What `p` gives depends on the lexemes that it takes and on the sort of the next token. -/
class Local (p : Reader α) : Prop where
  reads : ∀ ⦃ts a rest⦄, p ts = .ok (a, rest) → ∃ taken, taken ++ rest = ts ∧
    ∀ more, headKind more = headKind (rest.map Token.lexeme) →
      Reads p (taken.map Token.lexeme ++ more) a more

/-- What `p` gives depends on the lexemes that it takes, unless it takes all that there is. -/
class Sealed (p : Reader α) : Prop where
  reads : ∀ ⦃ts a rest⦄, p ts = .ok (a, rest) → rest ≠ [] → ∃ taken, taken ++ rest = ts ∧
    ∀ more, Reads p (taken.map Token.lexeme ++ more) a more

/-! ### Sequences -/

instance (a : α) : Local (pure a : Reader α) where
  reads _ _ _ h := by
    cases h
    exact ⟨[], rfl, fun _ _ => .pure a⟩

instance (a : α) : Sealed (pure a : Reader α) where
  reads _ _ _ h _ := by
    cases h
    exact ⟨[], rfl, fun _ => .pure a⟩

instance {p : Reader α} {f : α → Reader β} [Local p] [∀ a, Local (f a)] : Local (p >>= f) where
  reads ts b rest h := by
    obtain ⟨a, mid, first, second⟩ := bind_eq_ok.mp h
    obtain ⟨taken, rfl, reads⟩ := Local.reads first
    obtain ⟨taken', rfl, reads'⟩ := Local.reads second
    refine ⟨taken ++ taken', List.append_assoc _ _ _, fun more same => ?_⟩
    rw [List.map_append, List.append_assoc]
    refine (reads _ ?_).bind (reads' more same)
    rw [List.map_append]
    exact headKind_append same

/-- Behind a local part, something sealed that takes a token decides what is next. -/
instance (priority := low) {p : Reader α} {f : α → Reader β} [Local p] [∀ a, Sealed (f a)]
    [∀ a, Takes (f a)] : Sealed (p >>= f) where
  reads ts b rest h left := by
    obtain ⟨a, mid, first, second⟩ := bind_eq_ok.mp h
    obtain ⟨taken, rfl, reads⟩ := Local.reads first
    have shorter := Takes.shorter second
    obtain ⟨taken', rfl, reads'⟩ := Sealed.reads second left
    have nonempty : taken'.map Token.lexeme ≠ [] := by
      rintro empty
      rw [List.map_eq_nil_iff.mp empty] at shorter
      exact absurd shorter (Nat.lt_irrefl _)
    refine ⟨taken ++ taken', List.append_assoc _ _ _, fun more => ?_⟩
    rw [List.map_append, List.append_assoc]
    refine (reads _ ?_).bind (reads' more)
    rw [List.map_append]
    exact headKind_append_of_ne_nil nonempty _ _

instance {p : Reader α} {f : α → Reader β} [Sealed p] [∀ a, Sealed (f a)] [∀ a, Shrinks (f a)] :
    Sealed (p >>= f) where
  reads ts b rest h left := by
    obtain ⟨a, mid, first, second⟩ := bind_eq_ok.mp h
    obtain ⟨taken', rfl, reads'⟩ := Sealed.reads second left
    obtain ⟨taken, rfl, reads⟩ := Sealed.reads first (by simp [left])
    refine ⟨taken ++ taken', List.append_assoc _ _ _, fun more => ?_⟩
    rw [List.map_append, List.append_assoc]
    exact (reads _).bind (reads' more)

instance {p : Reader α} {f : α → β} [Local p] : Local (f <$> p) := by
  rw [← bind_pure_comp]; infer_instance

instance {p : Reader α} {f : α → β} [Sealed p] : Sealed (f <$> p) := by
  rw [← bind_pure_comp]; infer_instance

instance {c : Prop} [Decidable c] {p q : Reader α} [Local p] [Local q] :
    Local (if c then p else q) := by
  split <;> infer_instance

instance {c : Prop} [Decidable c] {p q : Reader α} [Sealed p] [Sealed q] :
    Sealed (if c then p else q) := by
  split <;> infer_instance

/-! ### Tokens -/

/-- Where `p` gives something, `q` gives the same. -/
def Follows (p q : Reader α) : Prop := ∀ ⦃ts x⦄, p ts = .ok x → q ts = .ok x

theorem Follows.refl (p : Reader α) : Follows p p := fun _ _ h => h

theorem follows_refuseAt (found : Option Token) (fault : Fault) (q : Reader α) :
    Follows (refuseAt found fault) q := by
  intro ts x h
  cases h

theorem Follows.bind {p : Reader α} {f g : α → Reader β} (h : ∀ a, Follows (f a) (g a)) :
    Follows (p >>= f) (p >>= g) := by
  rintro ts ⟨b, rest⟩ ran
  obtain ⟨a, mid, first, second⟩ := bind_eq_ok.mp ran
  exact bind_eq_ok.mpr ⟨a, mid, first, h a second⟩

theorem follows_ite {c : Prop} [Decidable c] {p p' q q' : Reader α} (h : Follows p p')
    (h' : Follows q q') : Follows (if c then p else q) (if c then p' else q') := by
  split
  · exact h
  · exact h'

theorem Reads.follow {p q : Reader α} {ls rest : List Lexeme} {a : α} (h : Reads p ls a rest)
    (follows : Follows p q) : Reads q ls a rest := by
  intro ts spelled
  obtain ⟨more, ran, left⟩ := h spelled
  exact ⟨more, follows ran, left⟩

section Take

variable {test : TokenKind → Bool} {fault : Fault} {k : TokenKind} {f : Token → Reader β}

/-- A token may be used for what it spells. -/
theorem local_take_bind [∀ t, Local (f t)]
    (spells : ∀ t t', t.lexeme = t'.lexeme → Follows (f t) (f t')) :
    Local (take test fault >>= f) where
  reads ts b rest h := by
    obtain ⟨t, mid, first, second⟩ := bind_eq_ok.mp h
    obtain ⟨rfl, passes⟩ := take_eq_ok first
    obtain ⟨taken, rfl, reads⟩ := Local.reads second
    refine ⟨t :: taken, rfl, fun more same => ?_⟩
    exact reads_take_bind (l := t.lexeme) passes fun t' spelled =>
      (reads more same).follow (spells t t' spelled.symm)

theorem sealed_take_bind [∀ t, Sealed (f t)]
    (spells : ∀ t t', t.lexeme = t'.lexeme → Follows (f t) (f t')) :
    Sealed (take test fault >>= f) where
  reads ts b rest h left := by
    obtain ⟨t, mid, first, second⟩ := bind_eq_ok.mp h
    obtain ⟨rfl, passes⟩ := take_eq_ok first
    obtain ⟨taken, rfl, reads⟩ := Sealed.reads second left
    refine ⟨t :: taken, rfl, fun more => ?_⟩
    exact reads_take_bind (l := t.lexeme) passes fun t' spelled =>
      (reads more).follow (spells t t' spelled.symm)

end Take

section Delimiters

variable {q : Reader β}

instance (k : TokenKind) [Local q] : Local (expect k >>= fun _ => q) :=
  local_take_bind fun _ _ _ => .refl q

instance (k : TokenKind) [Sealed q] : Sealed (expect k >>= fun _ => q) :=
  sealed_take_bind fun _ _ _ => .refl q

instance (k : Keyword) [Local q] : Local (keyword k >>= fun _ => q) := by
  unfold keyword; infer_instance

instance (k : Keyword) [Sealed q] : Sealed (keyword k >>= fun _ => q) := by
  unfold keyword; infer_instance

instance (s : Symbol) [Local q] : Local (symbol s >>= fun _ => q) := by
  unfold symbol; infer_instance

instance (s : Symbol) [Sealed q] : Sealed (symbol s >>= fun _ => q) := by
  unfold symbol; infer_instance

end Delimiters

theorem text_eq_of_lexeme {t t' : Token} (same : t.lexeme = t'.lexeme) : t.text = t'.text :=
  congrArg Lexeme.text same

instance : Local name :=
  local_take_bind fun t t' same => by
    rw [text_eq_of_lexeme same]
    exact .refl _

instance (k : TokenKind) : Local (accept k) where
  reads ts b rest h := by
    cases ts with
    | nil =>
      cases h
      refine ⟨[], rfl, fun more same => reads_accept_other ?_⟩
      intro here
      cases same.symm.trans here
    | cons t others =>
      simp only [accept] at h
      split at h
      · next here =>
        cases h
        exact ⟨[t], rfl, fun more _ => reads_accept (beq_iff_eq.mp here)⟩
      · next other =>
        cases h
        refine ⟨[], rfl, fun more same => reads_accept_other ?_⟩
        intro here
        exact other (beq_iff_eq.mpr (Option.some.inj (same.symm.trans here)))

instance : Local nextKind where
  reads ts k rest h := by
    cases h
    refine ⟨[], rfl, fun more same => ?_⟩
    rw [kind_head_of_spelled rfl, ← same]
    exact reads_nextKind

instance (found : Option Token) (fault : Fault) : Local (refuseAt found fault : Reader α) where
  reads _ _ _ h := by cases h

instance (fault : Fault) : Local (refuse fault : Reader α) where
  reads _ _ _ h := by cases h

instance (fault : Fault) : Sealed (refuse fault : Reader α) where
  reads _ _ _ h := by cases h

/-- The next token may be used where something is refused. -/
theorem local_peek_bind {f : Option Token → Reader β} [∀ t, Local (f t)]
    (blind : ∀ t t', Follows (f t) (f t')) : Local (peek >>= f) where
  reads ts b rest h := by
    obtain ⟨t, mid, first, second⟩ := bind_eq_ok.mp h
    cases first
    obtain ⟨taken, split, reads⟩ := Local.reads second
    exact ⟨taken, split, fun more same =>
      reads_peek_bind fun t' => (reads more same).follow (blind _ t')⟩

/-! ### Repetitions -/

theorem reads_afterEach_nil {p : Reader α} {s : Symbol} {ls : List Lexeme}
    (other : headKind ls ≠ some (.symbol s)) : Reads (afterEach s p) ls [] ls := by
  intro ts spelled
  refine ⟨ts, afterEachOf_stop ?_, spelled⟩
  rwa [kind_head_of_spelled spelled]

theorem Reads.afterEach_cons {p : Reader α} [Shrinks p] {s : Symbol} {l : Lexeme}
    {ls mid rest : List Lexeme} {a : α} {items : List α} (separator : l.kind = .symbol s)
    (item : Reads p ls a mid) (others : Reads (afterEach s p) mid items rest) :
    Reads (afterEach s p) (l :: ls) (a :: items) rest := by
  intro ts spelled
  obtain ⟨t, ts, rfl, here, spelled⟩ := List.map_eq_cons_iff.mp spelled
  obtain ⟨between, ran, spelled⟩ := item spelled
  obtain ⟨more, ran', left⟩ := others spelled
  have separator : t.kind = .symbol s := (congrArg Lexeme.kind here).trans separator
  unfold afterEach at ran'
  refine ⟨more, ?_, left⟩
  rw [afterEach, afterEachOf_step separator ran, ran']
  rfl

theorem local_of_afterEachOf (separator : Symbol) (p : Reader α) [Shrinks p] [Local p]
    (ts : List Token) : ∀ ⦃items rest⦄, afterEachOf separator p ts = .ok (items, rest) →
      ∃ taken, taken ++ rest = ts ∧ ∀ more, headKind more = headKind (rest.map Token.lexeme) →
        Reads (afterEach separator p) (taken.map Token.lexeme ++ more) items more := by
  fun_induction afterEachOf separator p ts with
  | case1 =>
    rintro items rest ⟨⟩
    refine ⟨[], rfl, fun more same => reads_afterEach_nil fun here => ?_⟩
    cases same.symm.trans here
  | case2 => rintro items rest ⟨⟩
  | case3 t rest here a more ok le ih =>
    intro items last h
    obtain ⟨⟨others, final⟩, read, result⟩ := Grammar.map_eq_ok.mp h
    cases result
    obtain ⟨taken', rfl, reads'⟩ := ih read
    obtain ⟨taken, rfl, reads⟩ := Local.reads ok
    refine ⟨t :: (taken ++ taken'), by simp, fun more same => ?_⟩
    rw [List.map_cons, List.map_append, List.cons_append, List.append_assoc]
    refine .afterEach_cons (beq_iff_eq.mp here) (reads _ ?_) (reads' more same)
    rw [List.map_append]
    exact headKind_append same
  | case4 t rest here a more ok longer => exact absurd (Shrinks.length_le ok) longer
  | case5 t rest other =>
    rintro items last ⟨⟩
    refine ⟨[], rfl, fun more same => reads_afterEach_nil fun here => ?_⟩
    exact other (beq_iff_eq.mpr (Option.some.inj (same.symm.trans here)))

instance (separator : Symbol) (p : Reader α) [Shrinks p] [Local p] :
    Local (afterEach separator p) where
  reads _ _ _ h := local_of_afterEachOf separator p _ h

/-- Tokens that are taken together may be used for what they spell. -/
theorem local_takeAll_bind {k : TokenKind} {f : List Token → Reader β} [∀ us, Local (f us)]
    (spells : ∀ us us', us.map Token.lexeme = us'.map Token.lexeme → Follows (f us) (f us')) :
    Local (takeAll k >>= f) where
  reads ts b rest h := by
    obtain ⟨us, mid, first, second⟩ := bind_eq_ok.mp h
    cases first
    obtain ⟨taken, split, reads⟩ := Local.reads second
    refine ⟨ts.takeWhile (·.kind == k) ++ taken, ?_, fun more same => ?_⟩
    · rw [List.append_assoc, split, List.takeWhile_append_dropWhile]
    rw [List.map_append, List.append_assoc]
    refine reads_takeAll_bind ?_ ?_ fun us spelled =>
      (reads more same).follow (spells _ us spelled.symm)
    · intro l inside
      obtain ⟨t, here, rfl⟩ := List.mem_map.mp inside
      have same := List.mem_takeWhile_imp here
      exact beq_iff_eq.mp same
    · rw [headKind_append same, ← List.map_append, split]
      intro here
      have ends := List.head?_dropWhile_not (fun t : Token => t.kind == k) ts
      rw [← kind_head_of_spelled rfl] at here
      cases left : (ts.dropWhile (·.kind == k)).head? with
      | none => simp [left] at here
      | some t => simp_all

end Reader

/-! ### Braced groups -/

namespace Grammar

open Reader Number

variable {α β : Type}

/-- A braced group is read as such wherever it stands. What follows does not matter, unless the
group runs out. -/
theorem braced_respelled {depth : Nat} {ts inside after : List Token}
    (read : braced depth ts = (inside, after)) {more : List Lexeme} (runsOut : after = [] → more = [])
    {ts' : List Token} (spelled : ts'.map Token.lexeme = inside.map Token.lexeme ++ more) :
    ∃ inside' after', braced depth ts' = (inside', after') ∧
      inside'.map Token.lexeme = inside.map Token.lexeme ∧ after'.map Token.lexeme = more := by
  fun_induction braced depth ts generalizing inside after ts' with
  | case1 ts =>
    cases read
    exact ⟨[], ts', by rw [braced], rfl, spelled⟩
  | case2 =>
    cases read
    obtain rfl := runsOut rfl
    obtain rfl := List.map_eq_nil_iff.mp spelled
    exact ⟨[], [], by simp [braced], rfl, rfl⟩
  | case3 depth t rest within beyond next ih =>
    cases read
    obtain ⟨t', ts', rfl, here, spelled⟩ := List.map_eq_cons_iff.mp spelled
    obtain ⟨inside', after', read, same, left⟩ := ih next runsOut spelled
    have kind : t'.kind = t.kind := congrArg Lexeme.kind here
    refine ⟨t' :: inside', after', ?_, by simp [here, same], left⟩
    rw [braced, kind, read]

theorem aggregate_respelled {ts group rest : List Token} (read : aggregate ts = .ok (group, rest)) :
    group ++ rest = ts ∧ ∀ more, (rest = [] → more = []) → ∀ ts' : List Token,
      ts'.map Token.lexeme = group.map Token.lexeme ++ more →
      ∃ group' rest', aggregate ts' = .ok (group', rest') ∧
        group'.map Token.lexeme = group.map Token.lexeme ∧ rest'.map Token.lexeme = more := by
  obtain ⟨opening, mid, first, second⟩ := bind_eq_ok.mp read
  obtain ⟨inside, after, third, fourth⟩ := bind_eq_ok.mp second
  cases fourth
  have closed : braced 1 mid = (inside, rest) := Except.ok.inj third
  obtain ⟨rfl, opens⟩ := symbol_eq_ok first
  refine ⟨?_, fun more runsOut ts' spelled => ?_⟩
  · have split := braced_append 1 mid
    rw [closed] at split
    exact congrArg (opening :: ·) split
  · obtain ⟨opening', ts', rfl, here, spelled⟩ := List.map_eq_cons_iff.mp spelled
    obtain ⟨inside', rest', closed', same, left⟩ := braced_respelled closed runsOut spelled
    have opens' : opening'.kind = .symbol .lbrace := (congrArg Lexeme.kind here).trans opens
    have taken : symbol .lbrace (opening' :: ts') = .ok (opening', ts') :=
      if_pos (beq_iff_eq.mpr opens')
    refine ⟨opening' :: inside', rest', ?_, by simp [here, same], left⟩
    exact bind_eq_ok.mpr ⟨opening', ts', taken,
      bind_eq_ok.mpr ⟨inside', rest', congrArg Except.ok closed', rfl⟩⟩

/-- A braced group may be used for what it spells. -/
theorem local_aggregate_bind {f : List Token → Reader β} [∀ us, Local (f us)]
    (spells : ∀ us us', us.map Token.lexeme = us'.map Token.lexeme → Follows (f us) (f us')) :
    Local (aggregate >>= f) where
  reads ts b rest h := by
    obtain ⟨group, mid, first, second⟩ := bind_eq_ok.mp h
    obtain ⟨rfl, respelled⟩ := aggregate_respelled first
    obtain ⟨taken, rfl, reads⟩ := Local.reads second
    refine ⟨group ++ taken, List.append_assoc _ _ _, fun more same ts' spelled => ?_⟩
    rw [List.map_append, List.append_assoc] at spelled
    have runsOut : taken ++ rest = [] → taken.map Token.lexeme ++ more = [] := by
      intro none_
      obtain ⟨rfl, rfl⟩ := List.append_eq_nil_iff.mp none_
      cases more with
      | nil => rfl
      | cons => cases same
    obtain ⟨group', mid', ran, same', spelled'⟩ := respelled _ runsOut ts' spelled
    obtain ⟨rest', ran', left⟩ := (reads more same).follow (spells _ _ same'.symm) spelled'
    exact ⟨rest', bind_eq_ok.mpr ⟨group', mid', ran, ran'⟩, left⟩

instance {q : Reader β} [Sealed q] [Shrinks q] : Sealed (aggregate >>= fun _ => q) where
  reads ts b rest h left := by
    obtain ⟨group, mid, first, second⟩ := bind_eq_ok.mp h
    obtain ⟨rfl, respelled⟩ := aggregate_respelled first
    obtain ⟨taken, rfl, reads⟩ := Sealed.reads second left
    refine ⟨group ++ taken, List.append_assoc _ _ _, fun more ts' spelled => ?_⟩
    rw [List.map_append, List.append_assoc] at spelled
    have goesOn : taken ++ rest = [] → taken.map Token.lexeme ++ more = [] := by
      simp [left]
    obtain ⟨group', mid', ran, -, spelled'⟩ := respelled _ goesOn ts' spelled
    obtain ⟨rest', ran', left⟩ := reads more spelled'
    exact ⟨rest', bind_eq_ok.mpr ⟨group', mid', ran, ran'⟩, left⟩

/-! ### Productions -/

instance : Local dottedName := by unfold dottedName; infer_instance

theorem local_valueOf (value : String → Except LiteralError α) (g : α → β) :
    Local (expect .number >>= fun t => valueOf t (value t.text) >>= fun a => pure (g a)) := by
  have reads (t : Token) : Local (valueOf t (value t.text) >>= fun a => (pure (g a) : Reader β)) := by
    cases value t.text <;> (unfold valueOf; infer_instance)
  refine local_take_bind fun t t' same => ?_
  rw [text_eq_of_lexeme same]
  cases value t'.text with
  | ok a => exact .refl _
  | error e =>
    -- only the refusal tells where the number stands
    rintro ts x ⟨⟩

instance : Local integer := by
  have number (negative : Bool) := local_valueOf readInt (withSign negative)
  unfold integer
  infer_instance

instance (negative : Bool) : Local (numberConstant negative) :=
  local_valueOf Number.readNumber fun n => Constant.number (if negative then -n else n)

instance (negative : Bool) : Local (namedConstant negative) := by
  unfold namedConstant
  refine local_peek_bind fun next next' => .bind fun word => ?_
  refine follows_ite (.refl _) (follows_ite (.refl _) (follows_ite ?_ (.refl _)))
  exact follows_refuseAt _ _ _

theorem textOf_eq {us us' : List Token} (same : us.map Token.lexeme = us'.map Token.lexeme)
    (separator : String) : textOf separator us = textOf separator us' := by
  have texts (us : List Token) : us.map (·.text) = (us.map Token.lexeme).map Lexeme.text := by
    rw [List.map_map]
    rfl
  rw [textOf, textOf, texts us, texts us', same]

instance (negative : Bool) (k : Option TokenKind) : Local (signedConstant negative k) := by
  unfold signedConstant; infer_instance

instance (k : Option TokenKind) : Local (constantAt k) := by
  have chunks : Local (takeAll .string >>= fun us => pure (Constant.text (textOf "" us))) :=
    local_takeAll_bind fun us us' same => by
      rw [textOf_eq same]
      exact .refl _
  have group : Local (aggregate >>= fun us => pure (Constant.text (textOf " " us))) :=
    local_aggregate_bind fun us us' same => by
      rw [textOf_eq same]
      exact .refl _
  unfold constantAt
  infer_instance

instance : Local constant := by unfold constant; infer_instance

instance : Local optionPart := by unfold optionPart; infer_instance

instance : Local setting := by unfold setting; infer_instance

instance : Local optionStatement := by unfold optionStatement; infer_instance

instance : Sealed optionStatement := by unfold optionStatement; infer_instance

instance : Local bracketedSettings := by unfold bracketedSettings; infer_instance

instance : Local dialectStatement := by
  have named : Local (expect .string >>= fun t => symbol .semicolon >>= fun _ => pure t.text) :=
    local_take_bind fun t t' same => by
      rw [text_eq_of_lexeme same]
      exact .refl _
  unfold dialectStatement
  infer_instance

instance : Local editionStatement := by unfold editionStatement; infer_instance

instance : Local packageStatement := by unfold packageStatement; infer_instance

instance : Local importMode := by unfold importMode; infer_instance

instance : Local importStatement := by
  have path (mode : ImportMode) : Local (expect .string >>= fun t =>
      symbol .semicolon >>= fun _ => pure (Leaf.importing ⟨t.text, mode⟩)) :=
    local_take_bind fun t t' same => by
      rw [text_eq_of_lexeme same]
      exact .refl _
  unfold importStatement
  infer_instance

instance : Local label := by unfold label; infer_instance

set_option synthInstance.maxSize 256 in
instance : Local mapType := by unfold mapType; infer_instance

theorem startsMap_of_mapType {ts rest : List Token} {a : Option String × String}
    (h : mapType ts = .ok (a, rest)) : startsMap ts = true := by
  obtain ⟨t, mid, first, second⟩ := bind_eq_ok.mp h
  obtain ⟨u, mid', third, -⟩ := bind_eq_ok.mp second
  obtain ⟨rfl, isMap⟩ := expect_eq_ok first
  obtain ⟨rfl, opens⟩ := symbol_eq_ok third
  simp [startsMap, isMap, opens]

/-- Whether a map type comes next is seen from the first two tokens. -/
theorem startsMap_respelled {taken rest ts : List Token} {more : List Lexeme} (nonempty : taken ≠ [])
    (same : headKind more = headKind (rest.map Token.lexeme))
    (spelled : ts.map Token.lexeme = taken.map Token.lexeme ++ more) :
    startsMap ts = startsMap (taken ++ rest) := by
  have byKinds (t : Token) (us : List Token) : startsMap (t :: us) =
      (t.kind == .keyword .map && us.head?.map (·.kind) == some (.symbol .langle)) := by
    cases us with
    | nil => simp [startsMap]
    | cons u us => rfl
  obtain ⟨t, taken, rfl⟩ := List.exists_cons_of_ne_nil nonempty
  obtain ⟨t', ts, rfl, here, spelled⟩ := List.map_eq_cons_iff.mp spelled
  have kind : t'.kind = t.kind := congrArg Lexeme.kind here
  have next : ts.head?.map (·.kind) = (taken ++ rest).head?.map (·.kind) := by
    rw [kind_head_of_spelled spelled, kind_head_of_spelled rfl, List.map_append]
    exact headKind_append same
  rw [List.cons_append, byKinds, byKinds, kind, next]

instance : Local fieldType where
  reads ts a rest h := by
    unfold fieldType at h
    split at h
    · obtain ⟨taken, rfl, reads⟩ := Local.reads h
      refine ⟨taken, rfl, fun more same ts' spelled => ?_⟩
      obtain ⟨rest', ran, left⟩ := reads more same spelled
      exact ⟨rest', by rw [fieldType, if_pos (startsMap_of_mapType ran), ran], left⟩
    · next noMap =>
      have shorter := Takes.shorter h
      obtain ⟨taken, rfl, reads⟩ := Local.reads h
      have nonempty : taken ≠ [] := by
        rintro rfl
        exact absurd shorter (Nat.lt_irrefl _)
      refine ⟨taken, rfl, fun more same ts' spelled => ?_⟩
      obtain ⟨rest', ran, left⟩ := reads more same spelled
      have noMap' := startsMap_respelled nonempty same spelled
      exact ⟨rest', by rw [fieldType, noMap', if_neg noMap, ran], left⟩

instance (label : Option Label) : Sealed (field label) := by unfold field; infer_instance

instance : Sealed enumValue := by unfold enumValue; infer_instance

instance : Local rpcType := by unfold rpcType; infer_instance

instance (k : Option TokenKind) : Sealed (rpcEndAt k) := by unfold rpcEndAt; infer_instance

set_option synthInstance.maxSize 512 in
instance : Sealed rpc := by unfold rpc; infer_instance

instance (k : Keyword) : Local (namedHeader k) := by unfold namedHeader; infer_instance

instance (k : Keyword) : Sealed (namedHeader k) := by unfold namedHeader; infer_instance

instance : Local extendHeader := by unfold extendHeader; infer_instance

instance : Sealed extendHeader := by unfold extendHeader; infer_instance

set_option synthInstance.maxSize 256 in
instance (label : Option Label) : Sealed (groupHeader label) := by
  unfold groupHeader; infer_instance

/-! ### Entries and statements -/

theorem reads_skipToSemicolon {inside more : List Lexeme} {l : Lexeme}
    (plain : ∀ l ∈ inside, l.kind ≠ .symbol .semicolon) (closes : l.kind = .symbol .semicolon) :
    Reads skipToSemicolon (inside ++ l :: more) () more := by
  intro ts spelled
  induction inside generalizing ts with
  | nil =>
    obtain ⟨t, ts, rfl, here, spelled⟩ := List.map_eq_cons_iff.mp spelled
    have closes : t.kind = .symbol .semicolon := (congrArg Lexeme.kind here).trans closes
    refine ⟨ts, ?_, spelled⟩
    rw [skipToSemicolon, afterSemicolon, if_pos (beq_iff_eq.mpr closes)]
  | cons first inside ih =>
    obtain ⟨t, ts, rfl, here, spelled⟩ := List.map_eq_cons_iff.mp spelled
    obtain ⟨other, plain⟩ := List.forall_mem_cons.mp plain
    have other : t.kind ≠ .symbol .semicolon := (congrArg Lexeme.kind here).trans_ne other
    obtain ⟨rest, ran, left⟩ := ih plain spelled
    refine ⟨rest, ?_, left⟩
    rw [skipToSemicolon, afterSemicolon, if_neg (by simpa using other)]
    exact ran

instance : Sealed skipToSemicolon where
  reads ts _ rest h left := by
    have whole : afterSemicolon ts = rest := congrArg Prod.snd (Except.ok.inj h)
    obtain ⟨inside, semicolon, rfl, closes, plain⟩ := afterSemicolon_eq whole left
    refine ⟨inside ++ [semicolon], by simp, fun more => ?_⟩
    rw [List.map_append, List.append_assoc]
    exact reads_skipToSemicolon (by simpa [Token.lexeme] using plain) closes

instance (k : Keyword) : Sealed (skipStatement k) := by unfold skipStatement; infer_instance

instance (label : Option Label) (k : Option TokenKind) : Sealed (fieldOrGroupAt label k) := by
  unfold fieldOrGroupAt; infer_instance

instance : Sealed fieldOrGroup := by unfold fieldOrGroup; infer_instance

instance : Sealed lonelySemicolon := by unfold lonelySemicolon; infer_instance

instance (r : Region) (k : TokenKind) : Sealed (entryAt r k) := by
  unfold entryAt messageEntryAt oneofEntryAt enumEntryAt serviceEntryAt
  split
  · infer_instance
  · split
    · split <;> infer_instance
    · split <;> infer_instance
    · infer_instance
    · split <;> infer_instance
    · split <;> infer_instance

instance (hasPackage : Bool) (t : Token) : Local (statementAt hasPackage t) := by
  have blank : Local ((fun _ => Statement.blank) <$> symbol .semicolon) := by
    rw [← bind_pure_comp]
    infer_instance
  unfold statementAt
  split <;> infer_instance

end Grammar

end ProtoNames
