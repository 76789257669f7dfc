import ProtoNames.Proofs.Nesting

/-!
How a file is read, entry by entry.

`BodyRead` and `FileRead` say what a body and a file are read as, what is left, and which
statements are passed over on the way. They follow `bodyOf` and `contents` case by case
(`bodyRead_of_ok`, `fileRead_of_ok`), but each entry stands for itself, so that a property of
all entries gives one of the whole by induction. They also count the frames that are needed, and
these decide alone whether what can be read is read (`bodyOf_of_bodyRead`,
`contents_of_fileRead`).
-/

namespace ProtoNames

namespace Reader

/-! ### Single tokens -/

theorem take_eq_ok {test : TokenKind → Bool} {fault : Fault} {ts rest : List Token} {t : Token}
    (h : take test fault ts = .ok (t, rest)) : ts = t :: rest ∧ test t.kind = true := by
  cases ts with
  | nil => cases h
  | cons u more =>
    simp only [take] at h
    split at h
    · next passes =>
      cases h
      exact ⟨rfl, passes⟩
    · cases h

theorem expect_eq_ok {k : TokenKind} {ts rest : List Token} {t : Token}
    (h : expect k ts = .ok (t, rest)) : ts = t :: rest ∧ t.kind = k := by
  obtain ⟨whole, passes⟩ := take_eq_ok h
  exact ⟨whole, beq_iff_eq.mp passes⟩

theorem symbol_eq_ok {s : Symbol} {ts rest : List Token} {t : Token}
    (h : symbol s ts = .ok (t, rest)) : ts = t :: rest ∧ t.kind = .symbol s :=
  expect_eq_ok h

theorem accept_eq_ok {k : TokenKind} {ts rest : List Token} {found : Bool}
    (h : accept k ts = .ok (found, rest)) :
    (found = true ∧ ∃ t, ts = t :: rest ∧ t.kind = k) ∨ (found = false ∧ ts = rest) := by
  cases ts with
  | nil =>
    cases h
    exact .inr ⟨rfl, rfl⟩
  | cons t more =>
    simp only [accept] at h
    split at h
    · next same =>
      cases h
      exact .inl ⟨rfl, t, rfl, beq_iff_eq.mp same⟩
    · cases h
      exact .inr ⟨rfl, rfl⟩

end Reader

namespace Grammar

open Reader

/-! ### What is passed over -/

theorem afterSemicolon_eq {ts rest : List Token} (h : afterSemicolon ts = rest)
    (left : rest ≠ []) : ∃ inside semicolon, inside ++ semicolon :: rest = ts ∧
      semicolon.kind = .symbol .semicolon ∧ ∀ t ∈ inside, t.kind ≠ .symbol .semicolon := by
  fun_induction afterSemicolon ts with
  | case1 => exact absurd h.symm left
  | case2 t rest same =>
    subst h
    exact ⟨[], t, rfl, beq_iff_eq.mp same, by simp⟩
  | case3 t more other ih =>
    obtain ⟨inside, semicolon, rfl, same, plain⟩ := ih h
    have other : t.kind ≠ .symbol .semicolon := by simpa using other
    exact ⟨t :: inside, semicolon, rfl, same, List.forall_mem_cons.mpr ⟨other, plain⟩⟩

theorem braced_append (depth : Nat) (ts : List Token) :
    (braced depth ts).1 ++ (braced depth ts).2 = ts := by
  fun_induction braced depth ts with
  | case1 => rfl
  | case2 => rfl
  | case3 depth t rest inside after read ih =>
    rw [read] at ih
    exact congrArg (t :: ·) ih

/-! ### Bodies and files -/

/-- The entries of a region as they are read from some tokens: how many frames this takes, the
nodes that they declare, the statements that declare nothing, as their tokens, and the tokens that
are left. -/
inductive BodyRead :
    Nat → Region → List Token → List Node → List (List Token) → List Token → Prop
  | close {r : Region} {ts rest : List Token} :
      entry r ts = .ok (.close, rest) → BodyRead 0 r ts [] [] rest
  | skip {needed : Nat} {r : Region} {ts mid skipped rest : List Token} {nodes : List Node}
      {passed : List (List Token)} :
      entry r ts = .ok (.skip, mid) → skipped ++ mid = ts →
      BodyRead needed r mid nodes passed rest →
      BodyRead needed r ts nodes (skipped :: passed) rest
  | leaf {needed : Nat} {r : Region} {ts mid rest : List Token} {l : Leaf} {nodes : List Node}
      {passed : List (List Token)} :
      entry r ts = .ok (.leaf l, mid) → BodyRead needed r mid nodes passed rest →
      BodyRead needed r ts (.leaf l :: nodes) passed rest
  | block {within needed : Nat} {r : Region} {ts mid inside after rest : List Token}
      {header : Header} {t : Token} {inner nodes : List Node} {passed passed' : List (List Token)} :
      entry r ts = .ok (.header header, mid) →
      BodyRead within (regionOf header) mid inner passed inside →
      symbol .rbrace inside = .ok (t, after) → BodyRead needed r after nodes passed' rest →
      BodyRead (max (framesOf header + within) needed) r ts (.block header inner :: nodes)
        (passed ++ passed') rest
  | oneof {within needed : Nat} {r : Region} {ts mid inside after rest : List Token}
      {name : String} {t : Token} {inner nodes : List Node} {passed passed' : List (List Token)} :
      entry r ts = .ok (.oneof name, mid) → BodyRead within .oneof mid inner passed inside →
      symbol .rbrace inside = .ok (t, after) → BodyRead needed r after nodes passed' rest →
      BodyRead (max (oneofFrames + within) needed) r ts (inner.map (markOneof name) ++ nodes)
        (passed ++ passed') rest

/-- The statements of a file as they are read from some tokens, where `hasPackage` tells whether
a package statement came before: how many frames this takes, the dialects, the nodes, and what is
passed over in bodies. -/
inductive FileRead :
    Nat → Bool → List Token → List String → List Node → List (List Token) → Prop
  | finish {hasPackage : Bool} : FileRead 0 hasPackage [] [] [] []
  | blank {needed : Nat} {hasPackage : Bool} {t : Token} {more mid : List Token}
      {dialects : List String} {nodes : List Node} {passed : List (List Token)} :
      statementAt hasPackage t (t :: more) = .ok (.blank, mid) →
      FileRead needed hasPackage mid dialects nodes passed →
      FileRead needed hasPackage (t :: more) dialects nodes passed
  | dialect {needed : Nat} {hasPackage : Bool} {t : Token} {more mid : List Token} {name : String}
      {dialects : List String} {nodes : List Node} {passed : List (List Token)} :
      statementAt hasPackage t (t :: more) = .ok (.dialect name, mid) →
      FileRead needed hasPackage mid dialects nodes passed →
      FileRead needed hasPackage (t :: more) (name :: dialects) nodes passed
  | leaf {needed : Nat} {hasPackage : Bool} {t : Token} {more mid : List Token} {l : Leaf}
      {dialects : List String} {nodes : List Node} {passed : List (List Token)} :
      statementAt hasPackage t (t :: more) = .ok (.leaf l, mid) →
      FileRead needed (hasPackage || isPackage l) mid dialects nodes passed →
      FileRead needed hasPackage (t :: more) dialects (.leaf l :: nodes) passed
  | block {within needed : Nat} {hasPackage : Bool} {t s : Token}
      {more mid inside after : List Token} {header : Header} {inner nodes : List Node}
      {dialects : List String} {passed passed' : List (List Token)} :
      statementAt hasPackage t (t :: more) = .ok (.header header, mid) →
      BodyRead within (regionOf header) mid inner passed inside →
      symbol .rbrace inside = .ok (s, after) →
      FileRead needed hasPackage after dialects nodes passed' →
      FileRead (max (framesOf header + within) needed) hasPackage (t :: more) dialects
        (.block header inner :: nodes) (passed ++ passed')

variable {frames needed : Nat} {r : Region} {ts rest : List Token} {nodes : List Node}
  {passed : List (List Token)}

/-- What a body is read as, it is read as entry by entry. -/
theorem bodyRead_of_ok {body : Body ts} (h : bodyOf frames r ts = .ok body) :
    ∃ needed ≤ frames, ∃ passed, BodyRead needed r ts body.nodes passed body.rest := by
  fun_induction bodyOf frames r ts with
  | case1 => cases h
  | case2 frames r ts rest next =>
    cases h
    exact ⟨0, Nat.zero_le _, [], .close next⟩
  | case3 frames r ts rest next lt ih =>
    obtain ⟨others, read, rfl⟩ := map_eq_ok.mp h
    obtain ⟨needed, enough, passed, read'⟩ := ih read
    obtain ⟨skipped, split⟩ := Shrinks.suffix next
    exact ⟨needed, enough, skipped :: passed, .skip next split read'⟩
  | case4 frames r ts l rest next lt ih =>
    obtain ⟨others, read, rfl⟩ := map_eq_ok.mp h
    obtain ⟨needed, enough, passed, read'⟩ := ih read
    exact ⟨needed, enough, passed, .leaf next read'⟩
  | case5 | case6 | case7 => cases h
  | case8 frames r ts header rest next lt room inner inside le t after closing shorter ihInner ih =>
    obtain ⟨others, read, rfl⟩ := map_eq_ok.mp h
    obtain ⟨within, enough, passed, readInner⟩ := ihInner inside
    obtain ⟨needed, enough', passed', read'⟩ := ih read
    exact ⟨_, by omega, passed ++ passed', .block next readInner closing read'⟩
  | case9 | case10 | case11 => cases h
  | case12 frames r ts name rest next lt room inner inside le t after closing shorter ihInner ih =>
    obtain ⟨others, read, rfl⟩ := map_eq_ok.mp h
    obtain ⟨within, enough, passed, readInner⟩ := ihInner inside
    obtain ⟨needed, enough', passed', read'⟩ := ih read
    exact ⟨_, by omega, passed ++ passed', .oneof next readInner closing read'⟩

/-- What a file is read as, it is read as statement by statement. -/
theorem fileRead_of_ok {hasPackage : Bool} {c : Contents}
    (h : contents frames hasPackage ts = .ok c) :
    ∃ needed ≤ frames, ∃ passed, FileRead needed hasPackage ts c.dialects c.nodes passed := by
  fun_induction contents frames hasPackage ts generalizing c with
  | case1 =>
    cases h
    exact ⟨0, Nat.zero_le _, [], .finish⟩
  | case2 => cases h
  | case3 hasPackage t more rest next lt ih =>
    obtain ⟨needed, enough, passed, read⟩ := ih h
    exact ⟨needed, enough, passed, .blank next read⟩
  | case4 hasPackage t more name rest next lt ih =>
    obtain ⟨others, read, rfl⟩ := map_eq_ok.mp h
    obtain ⟨needed, enough, passed, read'⟩ := ih read
    exact ⟨needed, enough, passed, .dialect next read'⟩
  | case5 hasPackage t more l rest next lt ih =>
    obtain ⟨others, read, rfl⟩ := map_eq_ok.mp h
    obtain ⟨needed, enough, passed, read'⟩ := ih read
    exact ⟨needed, enough, passed, .leaf next read'⟩
  | case6 | case7 | case8 => cases h
  | case9 hasPackage t more header rest next lt room inner inside le s after closing shorter ih =>
    obtain ⟨others, read, rfl⟩ := map_eq_ok.mp h
    obtain ⟨within, enough, passed, readInner⟩ := bodyRead_of_ok inside
    obtain ⟨needed, enough', passed', read'⟩ := ih read
    exact ⟨_, by omega, passed ++ passed', .block next readInner closing read'⟩

/-! ### Reading again -/

/-- What a body consists of, and what is left behind it. -/
def Body.content {given : List Token} (b : Body given) : List Node × List Token := (b.nodes, b.rest)

/-- What a block that takes `cost` frames consists of, and what is left behind its brace. -/
def blockOf (frames cost : Nat) (r : Region) (ts : List Token) :
    Except (ReadFailure Refusal) (List Node × List Token) :=
  if frames < cost then .error .tooDeep
  else
    ((bodyOf (frames - cost) r ts).map Body.content).bind fun (inner, inside) =>
      match symbol .rbrace inside with
      | .error e => .error (.refused e)
      | .ok (_, after) => .ok (inner, after)

/-- The outcome `given` where there is room for what is needed. -/
def ifRoom {α ε : Type} (frames needed : Nat) (given : α) : Except (ReadFailure ε) α :=
  if needed ≤ frames then .ok given else .error .tooDeep

section

variable {cost : Nat} {e : Refusal} {failure : ReadFailure Refusal}

theorem blockOf_of_lt (crowded : frames < cost) : blockOf frames cost r ts = .error .tooDeep :=
  if_pos crowded

theorem blockOf_of_error (room : ¬ frames < cost)
    (failed : bodyOf (frames - cost) r ts = .error failure) :
    blockOf frames cost r ts = .error failure := by
  rw [blockOf, if_neg room, failed]
  rfl

theorem blockOf_of_unclosed {inner : Body ts} (room : ¬ frames < cost)
    (read : bodyOf (frames - cost) r ts = .ok inner)
    (failed : symbol .rbrace inner.rest = .error e) :
    blockOf frames cost r ts = .error (.refused e) := by
  rw [blockOf, if_neg room, read]
  simp only [Except.map, Except.bind, Body.content, failed]

theorem blockOf_of_closed {inner : Body ts} {t : Token} {after : List Token}
    (room : ¬ frames < cost) (read : bodyOf (frames - cost) r ts = .ok inner)
    (closing : symbol .rbrace inner.rest = .ok (t, after)) :
    blockOf frames cost r ts = .ok (inner.nodes, after) := by
  rw [blockOf, if_neg room, read]
  simp only [Except.map, Except.bind, Body.content, closing]

end

/-- A body is its next entry, and the body that follows. -/
theorem content_bodyOf (frames : Nat) (r : Region) (ts : List Token) :
    (bodyOf frames r ts).map Body.content =
      match entry r ts with
      | .error e => .error (.refused e)
      | .ok (.close, rest) => .ok ([], rest)
      | .ok (.skip, rest) => (bodyOf frames r rest).map Body.content
      | .ok (.leaf l, rest) =>
        ((bodyOf frames r rest).map Body.content).map fun others => (.leaf l :: others.1, others.2)
      | .ok (.header header, rest) =>
        (blockOf frames (framesOf header) (regionOf header) rest).bind fun (inner, after) =>
          ((bodyOf frames r after).map Body.content).map fun others =>
            (.block header inner :: others.1, others.2)
      | .ok (.oneof name, rest) =>
        (blockOf frames oneofFrames .oneof rest).bind fun (inner, after) =>
          ((bodyOf frames r after).map Body.content).map fun others =>
            (inner.map (markOneof name) ++ others.1, others.2) := by
  fun_cases bodyOf frames r ts with
  | case1 e failed =>
    rw [failed]
    rfl
  | case2 rest next =>
    rw [next]
    rfl
  | case3 rest next lt =>
    rw [next]
    dsimp only
    cases bodyOf frames r rest <;> rfl
  | case4 l rest next lt =>
    rw [next]
    dsimp only
    cases bodyOf frames r rest <;> rfl
  | case5 header rest next lt crowded | case9 name rest next lt crowded =>
    rw [next]
    dsimp only
    rw [blockOf_of_lt crowded]
    rfl
  | case6 header rest next lt room e failed | case10 name rest next lt room e failed =>
    rw [next]
    dsimp only
    rw [blockOf_of_error room failed]
    rfl
  | case7 header rest next lt room inner read le e failed
  | case11 name rest next lt room inner read le e failed =>
    rw [next]
    dsimp only
    rw [blockOf_of_unclosed room read failed]
    rfl
  | case8 header rest next lt room inner read le t after closing shorter
  | case12 name rest next lt room inner read le t after closing shorter =>
    rw [next]
    dsimp only
    rw [blockOf_of_closed room read closing]
    cases h : bodyOf frames r after <;> simp only [Except.map, Except.bind, Body.content, h]

/-- A file is its next statement, and the statements that follow. -/
theorem contents_cons (frames : Nat) (hasPackage : Bool) (t : Token) (more : List Token) :
    contents frames hasPackage (t :: more) =
      match statementAt hasPackage t (t :: more) with
      | .error e => .error (.refused e)
      | .ok (.blank, rest) => contents frames hasPackage rest
      | .ok (.dialect name, rest) =>
        (contents frames hasPackage rest).map fun c => { c with dialects := name :: c.dialects }
      | .ok (.leaf l, rest) =>
        (contents frames (hasPackage || isPackage l) rest).map fun c =>
          { c with nodes := .leaf l :: c.nodes }
      | .ok (.header header, rest) =>
        (blockOf frames (framesOf header) (regionOf header) rest).bind fun (inner, after) =>
          (contents frames hasPackage after).map fun c =>
            { c with nodes := .block header inner :: c.nodes } := by
  generalize whole : t :: more = ts
  fun_cases contents frames hasPackage ts with
  | case1 => cases whole
  | case2 _ _ e failed =>
    cases whole
    rw [failed]
  | case3 _ _ rest next shorter | case4 _ _ name rest next shorter
  | case5 _ _ l rest next shorter =>
    cases whole
    rw [next]
  | case6 _ _ header rest next shorter crowded =>
    cases whole
    rw [next]
    dsimp only
    rw [blockOf_of_lt crowded]
    rfl
  | case7 _ _ header rest next shorter room e failed =>
    cases whole
    rw [next]
    dsimp only
    rw [blockOf_of_error room failed]
    rfl
  | case8 _ _ header rest next shorter room inner read le e failed =>
    cases whole
    rw [next]
    dsimp only
    rw [blockOf_of_unclosed room read failed]
    rfl
  | case9 _ _ header rest next shorter room inner read le s after closing lt =>
    cases whole
    rw [next]
    dsimp only
    rw [blockOf_of_closed room read closing]
    rfl

/-- A block that is read and closed is one that fits, or is too deep. -/
theorem blockOf_of_ifRoom {cost needed : Nat} {inner : List Node} {inside after : List Token}
    {t : Token}
    (read : (bodyOf (frames - cost) r ts).map Body.content =
      ifRoom (frames - cost) needed (inner, inside))
    (closing : symbol .rbrace inside = .ok (t, after)) :
    blockOf frames cost r ts = ifRoom frames (cost + needed) (inner, after) := by
  unfold blockOf ifRoom
  rw [read, ifRoom]
  split
  · rw [if_neg (by omega)]
  · split
    · rw [if_pos (by omega)]
      simp only [Except.bind, closing]
    · rw [if_neg (by omega)]
      rfl

/-- Two readings, one behind the other, fit where each of them does. -/
theorem ifRoom_bind {α β : Type} {frames needed needed' : Nat} {a : α} {b : β}
    {f : α → Except (ReadFailure Refusal) β} (next : f a = ifRoom frames needed' b) :
    (ifRoom frames needed a).bind f = ifRoom frames (max needed needed') b := by
  by_cases room : needed ≤ frames
  · rw [ifRoom, if_pos room, Except.bind, next]
    simp only [ifRoom, Nat.max_le, room, true_and]
  · rw [ifRoom, if_neg room, ifRoom, if_neg (by omega)]
    rfl

theorem map_ifRoom {α β ε : Type} (frames needed : Nat) (a : α) (f : α → β) :
    (ifRoom frames needed a : Except (ReadFailure ε) α).map f = ifRoom frames needed (f a) := by
  unfold ifRoom
  split <;> rfl

/-- What can be read entry by entry is read as that, where there is room for it. -/
theorem bodyOf_of_bodyRead (h : BodyRead needed r ts nodes passed rest) (frames : Nat) :
    (bodyOf frames r ts).map Body.content = ifRoom frames needed (nodes, rest) := by
  induction h generalizing frames with
  | close next =>
    rw [content_bodyOf, next]
    exact (if_pos (Nat.zero_le frames)).symm
  | skip next _ _ ih =>
    rw [content_bodyOf, next]
    exact ih frames
  | leaf next _ ih =>
    rw [content_bodyOf, next]
    dsimp only
    rw [ih, map_ifRoom]
  | block next _ closing _ ihInner ih | oneof next _ closing _ ihInner ih =>
    rw [content_bodyOf, next]
    dsimp only
    rw [blockOf_of_ifRoom (ihInner _) closing]
    apply ifRoom_bind
    dsimp only
    rw [ih, map_ifRoom]

/-- What can be read statement by statement is read as that, where there is room for it. -/
theorem contents_of_fileRead {hasPackage : Bool} {dialects : List String}
    (h : FileRead needed hasPackage ts dialects nodes passed) (frames : Nat) :
    contents frames hasPackage ts = ifRoom frames needed ⟨dialects, nodes⟩ := by
  induction h with
  | finish =>
    rw [contents]
    exact (if_pos (Nat.zero_le frames)).symm
  | blank next _ ih =>
    rw [contents_cons, next]
    exact ih
  | dialect next _ ih | leaf next _ ih =>
    rw [contents_cons, next]
    dsimp only
    rw [ih, map_ifRoom]
  | block next inner closing _ ih =>
    rw [contents_cons, next]
    dsimp only
    rw [blockOf_of_ifRoom (bodyOf_of_bodyRead inner _) closing]
    apply ifRoom_bind
    dsimp only
    rw [ih, map_ifRoom]

/-- What is left of a body is the end of the tokens. -/
theorem BodyRead.suffix (h : BodyRead needed r ts nodes passed rest) : rest <:+ ts := by
  induction h with
  | close next => exact Shrinks.suffix next
  | skip next _ _ ih => exact ih.trans (Shrinks.suffix next)
  | leaf next _ ih => exact ih.trans (Shrinks.suffix next)
  | block next _ closing _ ihInner ih | oneof next _ closing _ ihInner ih =>
    exact ih.trans ((Shrinks.suffix closing).trans (ihInner.trans (Shrinks.suffix next)))

end Grammar

end ProtoNames
