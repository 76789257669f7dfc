import ProtoNames.Token.Lexeme
import ProtoNames.Token.Reader

/-!
What readers do on tokens that spell given lexemes.

`Reads p ls a rest`: on any tokens that spell `ls`, wherever these stand, the reader `p` gives
`a` and stops where the tokens go on with `rest`. It composes along `>>=`, so a production
reads what its parts read one after the other.
-/

namespace ProtoNames

/-- The kind of the first lexeme. -/
def headKind (ls : List Lexeme) : Option TokenKind := ls.head?.map (·.kind)

@[simp] theorem headKind_cons (l : Lexeme) (ls : List Lexeme) :
    headKind (l :: ls) = some l.kind := rfl

namespace Reader

variable {α β : Type} {p : Reader α} {f : α → Reader β} {a : α} {b : β} {k : TokenKind}
  {l : Lexeme} {ls mid rest : List Lexeme} {s : Symbol} {text : String}

/-- On tokens spelling `ls` the reader gives `a`, and what it leaves spells `rest`. -/
def Reads (p : Reader α) (ls : List Lexeme) (a : α) (rest : List Lexeme) : Prop :=
  ∀ ⦃ts : List Token⦄, ts.map Token.lexeme = ls →
    ∃ more, p ts = .ok (a, more) ∧ more.map Token.lexeme = rest

/-! ### Sequences -/

theorem Reads.pure (a : α) : Reads (pure a) ls a ls := by
  intro ts spelled
  exact ⟨ts, rfl, spelled⟩

theorem Reads.bind (first : Reads p ls a mid) (then_ : Reads (f a) mid b rest) :
    Reads (p >>= f) ls b rest := by
  intro ts spelled
  obtain ⟨between, ran, spelled⟩ := first spelled
  obtain ⟨more, ran', spelled⟩ := then_ spelled
  exact ⟨more, bind_eq_ok.mpr ⟨a, between, ran, ran'⟩, spelled⟩

theorem Reads.map {g : α → β} (h : Reads p ls a rest) : Reads (g <$> p) ls (g a) rest := by
  rw [← bind_pure_comp]
  exact h.bind (.pure _)

/-- On tokens spelling `ls` the reader refuses. -/
def Refuses (p : Reader α) (ls : List Lexeme) : Prop :=
  ∀ ⦃ts : List Token⦄, ts.map Token.lexeme = ls → ∃ e, p ts = .error e

theorem Refuses.bind (first : Refuses p ls) : Refuses (p >>= f) ls := by
  intro ts spelled
  obtain ⟨e, failed⟩ := first spelled
  exact ⟨e, by simp [Bind.bind, StateT.bind, failed, Except.bind]⟩

theorem Refuses.map {g : α → β} (h : Refuses p ls) : Refuses (g <$> p) ls := by
  rw [← bind_pure_comp]
  exact h.bind

theorem bind_eq_error {ts between : List Token} {e : Refusal} (ran : p ts = .ok (a, between))
    (failed : f a between = .error e) : (p >>= f) ts = .error e := by
  simp [Bind.bind, StateT.bind, ran, failed, Except.bind]

theorem Reads.bind_refuses (first : Reads p ls a mid) (then_ : Refuses (f a) mid) :
    Refuses (p >>= f) ls := by
  intro ts spelled
  obtain ⟨between, ran, spelled⟩ := first spelled
  obtain ⟨e, failed⟩ := then_ spelled
  exact ⟨e, bind_eq_error ran failed⟩

/-! ### Single tokens -/

theorem take_of_spelled {test : TokenKind → Bool} {fault : Fault} {ts : List Token}
    (passes : test l.kind = true) (spelled : ts.map Token.lexeme = l :: ls) :
    ∃ t more, take test fault ts = .ok (t, more) ∧ t.lexeme = l ∧ more.map Token.lexeme = ls := by
  obtain ⟨t, more, rfl, rfl, left⟩ := List.map_eq_cons_iff.mp spelled
  exact ⟨t, more, if_pos passes, rfl, left⟩

theorem expect_of_spelled {ts : List Token} (spelled : ts.map Token.lexeme = l :: ls) :
    ∃ t more, expect l.kind ts = .ok (t, more) ∧ t.lexeme = l ∧ more.map Token.lexeme = ls := by
  have passes : (fun k => k == l.kind) l.kind = true := beq_self_eq_true _
  exact take_of_spelled passes spelled

/-- A token of the right sort is taken. What follows may depend on the token. -/
theorem reads_take_bind {test : TokenKind → Bool} {fault : Fault} {f : Token → Reader β}
    (passes : test l.kind = true)
    (then_ : ∀ t : Token, t.lexeme = l → Reads (f t) ls b rest) :
    Reads (take test fault >>= f) (l :: ls) b rest := by
  intro ts spelled
  obtain ⟨t, between, taken, here, spelled⟩ := take_of_spelled passes spelled
  obtain ⟨more, ran, left⟩ := then_ t here spelled
  exact ⟨more, bind_eq_ok.mpr ⟨t, between, taken, ran⟩, left⟩

theorem reads_expect_bind {f : Token → Reader β}
    (then_ : ∀ t : Token, t.lexeme = l → Reads (f t) ls b rest) :
    Reads (expect l.kind >>= f) (l :: ls) b rest :=
  reads_take_bind (beq_self_eq_true _) then_

theorem reads_symbol_bind {f : Token → Reader β} (then_ : ∀ t, Reads (f t) ls b rest) :
    Reads (symbol s >>= f) (.symbol s :: ls) b rest :=
  reads_expect_bind fun t _ => then_ t

theorem reads_keyword_bind {w : Keyword} {f : Token → Reader β}
    (then_ : ∀ t, Reads (f t) ls b rest) :
    Reads (keyword w >>= f) (.keyword w :: ls) b rest := by
  have taken := @reads_expect_bind _ _ (.keyword w) _ _ f fun t _ => then_ t
  rw [Lexeme.kind_keyword] at taken
  exact taken

theorem reads_number_bind {f : Token → Reader β}
    (then_ : ∀ t : Token, t.text = text → Reads (f t) ls b rest) :
    Reads (expect .number >>= f) (.number text :: ls) b rest :=
  reads_expect_bind fun t same => then_ t (congrArg Lexeme.text same)

theorem reads_string_bind {f : Token → Reader β}
    (then_ : ∀ t : Token, t.text = text → Reads (f t) ls b rest) :
    Reads (expect .string >>= f) (.string text :: ls) b rest :=
  reads_expect_bind fun t same => then_ t (congrArg Lexeme.text same)

theorem reads_name : Reads name (.word text :: rest) text rest := by
  refine reads_take_bind (Lexeme.isName_word text) fun t same => ?_
  have : t.text = text := congrArg Lexeme.text same
  rw [this]
  exact .pure text

theorem reads_accept (same : l.kind = k) : Reads (accept k) (l :: rest) true rest := by
  intro ts spelled
  obtain ⟨t, ts, rfl, here, spelled⟩ := List.map_eq_cons_iff.mp spelled
  have same' : (t.kind == k) = true := by
    rw [← same, ← here]
    exact beq_self_eq_true _
  exact ⟨ts, if_pos same', spelled⟩

theorem kind_head_of_spelled {ts : List Token} (spelled : ts.map Token.lexeme = ls) :
    ts.head?.map (·.kind) = headKind ls := by
  rw [headKind, ← spelled, List.head?_map, Option.map_map]
  rfl

theorem kind_ne_of_head {t : Token} {ts : List Token}
    (other : (t :: ts).head?.map (·.kind) ≠ some k) : ¬ (t.kind == k) = true := by
  intro same
  exact other (congrArg some (beq_iff_eq.mp same))

theorem reads_accept_other (other : headKind ls ≠ some k) :
    Reads (accept k) ls false ls := by
  intro ts spelled
  rw [← kind_head_of_spelled spelled] at other
  refine ⟨ts, ?_, spelled⟩
  cases ts with
  | nil => rfl
  | cons t ts => exact if_neg (kind_ne_of_head other)

theorem reads_nextKind : Reads nextKind ls (headKind ls) ls := by
  intro ts spelled
  rw [← kind_head_of_spelled spelled]
  exact ⟨ts, rfl, spelled⟩

theorem reads_peek_bind {f : Option Token → Reader β} (then_ : ∀ t, Reads (f t) ls b rest) :
    Reads (peek >>= f) ls b rest := by
  intro ts spelled
  obtain ⟨more, ran, left⟩ := then_ ts.head? spelled
  exact ⟨more, bind_eq_ok.mpr ⟨_, ts, rfl, ran⟩, left⟩

/-- If a token of the right sort makes the rest refuse, everything refuses. -/
theorem refuses_expect_bind {f : Token → Reader β}
    (then_ : ∀ t : Token, t.lexeme = l → Refuses (f t) ls) :
    Refuses (expect l.kind >>= f) (l :: ls) := by
  intro ts spelled
  obtain ⟨t, between, taken, here, spelled⟩ := expect_of_spelled spelled
  obtain ⟨e, failed⟩ := then_ t here spelled
  exact ⟨e, bind_eq_error taken failed⟩

/-! ### Repetitions -/

/-- All tokens of a sort are taken up to the first of another. -/
theorem reads_takeAll_bind {f : List Token → Reader β} (same : ∀ l ∈ ls, l.kind = k)
    (other : headKind mid ≠ some k)
    (then_ : ∀ ts : List Token, ts.map Token.lexeme = ls → Reads (f ts) mid b rest) :
    Reads (takeAll k >>= f) (ls ++ mid) b rest := by
  intro ts spelled
  obtain ⟨front, back, rfl, spelled, spelled'⟩ := List.map_eq_append_iff.mp spelled
  obtain ⟨more, ran, left⟩ := then_ front spelled spelled'
  have inFront : ∀ t ∈ front, (t.kind == k) = true := by
    intro t inside
    refine beq_iff_eq.mpr (same t.lexeme ?_)
    rw [← spelled]
    exact List.mem_map_of_mem inside
  have stops : back.takeWhile (·.kind == k) = [] ∧ back.dropWhile (·.kind == k) = back := by
    rw [← kind_head_of_spelled spelled'] at other
    cases back with
    | nil => exact ⟨rfl, rfl⟩
    | cons t back =>
      have other := kind_ne_of_head other
      exact ⟨List.takeWhile_cons_of_neg other, List.dropWhile_cons_of_neg other⟩
  have taken : takeAll k (front ++ back) = .ok (front, back) := by
    rw [takeAll, List.takeWhile_append_of_pos inFront, List.dropWhile_append_of_pos inFront,
      stops.1, stops.2, List.append_nil]
  exact ⟨more, bind_eq_ok.mpr ⟨front, back, taken, ran⟩, left⟩

theorem afterEachOf_stop {ts : List Token} (other : ts.head?.map (·.kind) ≠ some (.symbol s)) :
    afterEachOf s p ts = .ok ([], ts) := by
  rw [afterEachOf.eq_def]
  cases ts with
  | nil => rfl
  | cons t ts => exact if_neg (kind_ne_of_head other)

theorem afterEachOf_step [Shrinks p] {t : Token} {ts more : List Token}
    (separator : t.kind = .symbol s) (ran : p ts = .ok (a, more)) :
    afterEachOf s p (t :: ts) =
      (afterEachOf s p more).map fun (others, last) => (a :: others, last) := by
  rw [afterEachOf, if_pos (beq_iff_eq.mpr separator), ran]
  exact if_pos (Shrinks.length_le ran)

/-- Items with a separator before each are read one after the other. Each is read up to the
next separator or, if it is the last, up to what follows them all. -/
theorem reads_afterEach [Shrinks p] {spelled : α → List Lexeme} {items : List α}
    (each : ∀ a ∈ items, ∀ more, (more = rest ∨ ∃ others, more = .symbol s :: others) →
      Reads p (spelled a ++ more) a more)
    (stops : headKind rest ≠ some (.symbol s)) :
    Reads (afterEach s p) (items.flatMap (fun a => .symbol s :: spelled a) ++ rest) items rest := by
  induction items with
  | nil =>
    intro ts whole
    refine ⟨ts, afterEachOf_stop ?_, whole⟩
    rw [kind_head_of_spelled whole]
    exact stops
  | cons a items ih =>
    intro ts whole
    rw [List.flatMap_cons, List.cons_append, List.cons_append, List.append_assoc] at whole
    obtain ⟨t, ts, rfl, here, whole⟩ := List.map_eq_cons_iff.mp whole
    have follows : items.flatMap (fun a => .symbol s :: spelled a) ++ rest = rest ∨
        ∃ others, items.flatMap (fun a => .symbol s :: spelled a) ++ rest =
          .symbol s :: others := by
      cases items with
      | nil => exact .inl rfl
      | cons next items => exact .inr ⟨_, rfl⟩
    obtain ⟨between, ran, whole⟩ := each a List.mem_cons_self _ follows whole
    obtain ⟨more, ran', left⟩ := ih (fun b inside => each b (List.mem_cons_of_mem _ inside)) whole
    have separator : t.kind = .symbol s := congrArg Lexeme.kind here
    have whole : afterEachOf s p (t :: ts) = .ok (a :: items, more) := by
      unfold afterEach at ran'
      rw [afterEachOf_step separator ran, ran']
      rfl
    exact ⟨more, whole, left⟩

end Reader

end ProtoNames
