import ProtoNames.Number.Literal
import ProtoNames.Text.Quoted
import ProtoNames.Token.Basic

/-!
Readers of tokens, the parts that a grammar is built from.

A reader takes tokens off the front of a list, or refuses at a token. `Shrinks p` says
that `p` leaves a suffix of what it was given, `Takes p` that the suffix is a proper one.
Both compose along `>>=`, and recursive productions end because of them.
-/

namespace ProtoNames

open Number Text

/-! ### Refusals -/

/-- What a reader asked for. -/
inductive Expectation
  | kind (k : TokenKind)
  | name
  deriving DecidableEq, Repr

/-- Why a text is no schema. -/
inductive Fault
  /-- Another token was needed. -/
  | expected (what : Expectation)
  /-- No statement of a file begins like this. -/
  | notAStatement
  /-- No declaration of a service begins like this. -/
  | notInService
  /-- A file has one package at most. -/
  | secondPackage
  /-- Only numbers have a sign. -/
  | signBefore (name : String)
  /-- A number token has no value. -/
  | literal (e : LiteralError)
  deriving DecidableEq, Repr

/-- A fault and the token where it was found, or `none` at the end of the text. -/
structure Refusal where
  found : Option Token
  fault : Fault
  deriving DecidableEq, Repr

/-- A token in messages: its sort, and its text in quotes. -/
def describeFound : Option Token → String
  | some t => t.kind.name ++ " (" ++ quoted t.text ++ ")"
  | none => endName ++ " (" ++ quoted "" ++ ")"

/-- The words for a refusal. -/
def Refusal.message (r : Refusal) : String :=
  match r.fault with
  | .expected (.kind k) => "Expected " ++ k.name ++ ", got " ++ describeFound r.found
  | .expected .name => "Expected identifier, got " ++ describeFound r.found
  | .notAStatement => "Unexpected " ++ describeFound r.found ++ " at top level"
  | .notInService => "Unexpected " ++ describeFound r.found ++ " in service"
  | .secondPackage => "Multiple package definitions"
  | .signBefore name => "Unexpected '-' before " ++ quoted name
  | .literal e => e.message

/-- Why reading came to nothing. -/
inductive ReadFailure (ε : Type)
  /-- The text is refused. -/
  | refused (e : ε)
  /-- Blocks are nested in it more deeply than the stack has room for. -/
  | tooDeep
  deriving DecidableEq, Repr

/-! ### Readers -/

/-- Takes tokens off the front of a list. -/
abbrev Reader := StateT (List Token) (Except Refusal)

namespace Reader

variable {α β : Type}

/-- The next token, which stays. -/
def peek : Reader (Option Token) := fun ts => .ok (ts.head?, ts)

/-- Refuses at a token that has been seen. -/
def refuseAt (found : Option Token) (fault : Fault) : Reader α := fun _ => .error ⟨found, fault⟩

/-- Refuses at the next token. -/
def refuse (fault : Fault) : Reader α := fun ts => .error ⟨ts.head?, fault⟩

/-- Takes the next token if it passes the test. -/
def take (test : TokenKind → Bool) (fault : Fault) : Reader Token
  | [] => .error ⟨none, fault⟩
  | t :: rest => if test t.kind then .ok (t, rest) else .error ⟨some t, fault⟩

/-- Takes a token of one kind. -/
def expect (k : TokenKind) : Reader Token := take (· == k) (.expected (.kind k))

/-- Takes a keyword. -/
def keyword (k : Keyword) : Reader Token := expect (.keyword k)

/-- Takes a delimiter. -/
def symbol (s : Symbol) : Reader Token := expect (.symbol s)

/-- Takes a name and gives its text. -/
def name : Reader String := do
  let t ← take TokenKind.isName (.expected .name)
  return t.text

/-- Takes a token of one kind if it is next, and says whether it was. -/
def accept (k : TokenKind) : Reader Bool
  | [] => .ok (false, [])
  | t :: rest => if t.kind == k then .ok (true, rest) else .ok (false, t :: rest)

/-- Reads with `p` after every separator at the front of `ts`. -/
def afterEachOf (separator : Symbol) (p : Reader α) (ts : List Token) :
    Except Refusal (List α × List Token) :=
  match ts with
  | [] => .ok ([], [])
  | t :: rest =>
    if t.kind == .symbol separator then
      match p rest with
      | .error e => .error e
      | .ok (a, more) =>
        if more.length ≤ rest.length then
          (afterEachOf separator p more).map fun (others, last) => (a :: others, last)
        else .ok ([a], more)
    else .ok ([], t :: rest)
termination_by ts.length

/-- Reads with `p` after every separator, as long as a separator is next. -/
def afterEach (separator : Symbol) (p : Reader α) : Reader (List α) := afterEachOf separator p

/-- Takes all tokens of one kind that come next. -/
def takeAll (k : TokenKind) : Reader (List Token) := fun ts =>
  .ok (ts.takeWhile (·.kind == k), ts.dropWhile (·.kind == k))

/-- The kind of the next token, which stays. -/
def nextKind : Reader (Option TokenKind) := fun ts => .ok (ts.head?.map (·.kind), ts)

/-! ### What readers leave -/

/-- What `p` leaves is a suffix of what it was given. -/
class Shrinks (p : Reader α) : Prop where
  suffix : ∀ ⦃ts a rest⦄, p ts = .ok (a, rest) → rest <:+ ts

/-- What `p` leaves is a proper suffix: at least one token has been taken. -/
class Takes (p : Reader α) : Prop extends Shrinks p where
  shorter : ∀ ⦃ts a rest⦄, p ts = .ok (a, rest) → rest.length < ts.length

theorem Shrinks.length_le {p : Reader α} [Shrinks p] {ts rest : List Token} {a : α}
    (h : p ts = .ok (a, rest)) : rest.length ≤ ts.length :=
  (Shrinks.suffix h).length_le

theorem bind_eq_ok {p : Reader α} {f : α → Reader β} {ts rest : List Token} {b : β} :
    (p >>= f) ts = .ok (b, rest) ↔
      ∃ a mid, p ts = .ok (a, mid) ∧ f a mid = .ok (b, rest) := by
  change (p ts >>= fun x => f x.1 x.2) = _ ↔ _
  match p ts with
  | .error e => simp [bind, Except.bind]
  | .ok (a, mid) =>
    constructor
    · intro h
      exact ⟨a, mid, rfl, h⟩
    · rintro ⟨_, _, first, second⟩
      cases first
      exact second

instance (a : α) : Shrinks (pure a : Reader α) where
  suffix _ _ _ h := by cases h; exact List.suffix_refl _

instance {p : Reader α} {f : α → Reader β} [Shrinks p] [∀ a, Shrinks (f a)] :
    Shrinks (p >>= f) where
  suffix _ _ _ h := by
    obtain ⟨a, mid, first, second⟩ := bind_eq_ok.mp h
    exact (Shrinks.suffix second).trans (Shrinks.suffix first)

instance {p : Reader α} {f : α → Reader β} [Takes p] [∀ a, Shrinks (f a)] :
    Takes (p >>= f) where
  shorter _ _ _ h := by
    obtain ⟨a, mid, first, second⟩ := bind_eq_ok.mp h
    exact Nat.lt_of_le_of_lt (Shrinks.length_le second) (Takes.shorter first)

instance {p : Reader α} {f : α → Reader β} [Shrinks p] [∀ a, Takes (f a)] :
    Takes (p >>= f) where
  shorter _ _ _ h := by
    obtain ⟨a, mid, first, second⟩ := bind_eq_ok.mp h
    exact Nat.lt_of_lt_of_le (Takes.shorter second) (Shrinks.length_le first)

instance {p : Reader α} {f : α → β} [Shrinks p] : Shrinks (f <$> p) := by
  rw [← bind_pure_comp]; infer_instance

instance {p : Reader α} {f : α → β} [Takes p] : Takes (f <$> p) := by
  rw [← bind_pure_comp]; infer_instance

instance {c : Prop} [Decidable c] {p q : Reader α} [Shrinks p] [Shrinks q] :
    Shrinks (if c then p else q) := by
  split <;> infer_instance

instance {c : Prop} [Decidable c] {p q : Reader α} [Takes p] [Takes q] :
    Takes (if c then p else q) := by
  split <;> infer_instance

instance : Shrinks peek where
  suffix _ _ _ h := by cases h; exact List.suffix_refl _

instance : Shrinks nextKind where
  suffix _ _ _ h := by cases h; exact List.suffix_refl _

instance (found : Option Token) (fault : Fault) : Takes (refuseAt found fault : Reader α) where
  suffix _ _ _ h := by cases h
  shorter _ _ _ h := by cases h

instance (fault : Fault) : Takes (refuse fault : Reader α) where
  suffix _ _ _ h := by cases h
  shorter _ _ _ h := by cases h

instance (test : TokenKind → Bool) (fault : Fault) : Takes (take test fault) where
  suffix ts _ _ h := by
    cases ts with
    | nil => cases h
    | cons t more =>
      simp only [take] at h
      split at h
      · cases h; exact List.suffix_cons _ _
      · cases h
  shorter ts _ _ h := by
    cases ts with
    | nil => cases h
    | cons t more =>
      simp only [take] at h
      split at h
      · cases h; exact Nat.lt_succ_self _
      · cases h

instance (k : TokenKind) : Takes (expect k) := by unfold expect; infer_instance

instance (k : Keyword) : Takes (keyword k) := by unfold keyword; infer_instance

instance (s : Symbol) : Takes (symbol s) := by unfold symbol; infer_instance

instance : Takes name := by unfold name; infer_instance

instance (k : TokenKind) : Shrinks (accept k) where
  suffix ts _ _ h := by
    cases ts with
    | nil => cases h; exact List.suffix_refl _
    | cons t more =>
      simp only [accept] at h
      split at h
      · cases h; exact List.suffix_cons _ _
      · cases h; exact List.suffix_refl _

instance (k : TokenKind) : Shrinks (takeAll k) where
  suffix _ _ _ h := by cases h; exact List.dropWhile_suffix _

theorem suffix_of_afterEachOf (separator : Symbol) (p : Reader α) [Shrinks p] (ts : List Token) :
    ∀ ⦃a rest⦄, afterEachOf separator p ts = .ok (a, rest) → rest <:+ ts := by
  fun_induction afterEachOf separator p ts with
  | case1 => intro a rest h; cases h; exact List.suffix_refl _
  | case2 t rest _ e _ => intro a last h; cases h
  | case3 t rest _ a more ok le ih =>
    intro b last h
    match hrec : afterEachOf separator p more with
    | .error e => rw [hrec] at h; cases h
    | .ok (others, final) =>
      rw [hrec] at h
      cases h
      exact (ih hrec).trans ((Shrinks.suffix ok).trans (List.suffix_cons t rest))
  | case4 t rest _ a more ok =>
    intro b last h
    cases h
    exact (Shrinks.suffix ok).trans (List.suffix_cons t rest)
  | case5 t rest => intro a last h; cases h; exact List.suffix_refl _

instance (separator : Symbol) (p : Reader α) [Shrinks p] : Shrinks (afterEach separator p) where
  suffix _ _ _ h := suffix_of_afterEachOf separator p _ h

end Reader

end ProtoNames
