import Mathlib.Algebra.GroupWithZero.Nat
import Mathlib.Algebra.Order.BigOperators.Group.List
import Mathlib.Algebra.Order.Group.Nat
import Mathlib.Data.List.Induction
import Mathlib.Data.List.TakeWhile
import Mathlib.Tactic.SplitIfs
import ProtoNames.Proofs.Refusals

/-!
Where tokens stand.

`Position.behind` is the place behind some text, counted from its newlines. `located` gives
the tokens of a text, each with the text from its first character on.

* `advances_first`: whatever is read first, its lines and columns are counted, except that a
  newline behind a backslash in a string is not.
* `Keeps.located`: so the line of a token is too low by the number of newlines that strings
  before it hide, and its place is right if and only if there are none (`tokenize_positions`).
-/

namespace ProtoNames

open Text

/-! ### Places in a text -/

/-- The place behind some text: there is a line for each newline, and a column for each
character behind the last. -/
def Position.behind (before : List Char) : Position :=
  ⟨1 + before.count '\n', 1 + (before.reverse.takeWhile (· != '\n')).length⟩

/-- The place behind some text that begins at a place. -/
def Position.past (here : Position) : List Char → Position
  | [] => here
  | c :: cs => if c = '\n' then past ⟨here.line + 1, 1⟩ cs else past ⟨here.line, here.column + 1⟩ cs

/-- The newlines that a token hides: those in a string, which stand behind backslashes. -/
def Token.hidden (t : Token) : Nat :=
  if t.kind = .string then t.text.toList.count '\n' else 0

/-- The text of a token stands at the front of some text, behind a quote if it is a string. -/
def Token.Begins (t : Token) (cs : List Char) : Prop :=
  if t.kind = .string then
    ∃ quote ∈ [doubleQuote, singleQuote], quote :: t.text.toList <+: cs
  else t.text.toList <+: cs

section Past

variable {here : Position} {cs more : List Char}

theorem Position.past_append : here.past (cs ++ more) = (here.past cs).past more := by
  induction cs generalizing here with
  | nil => rfl
  | cons c cs ih =>
    simp only [List.cons_append, past]
    split <;> exact ih

theorem Position.past_of_not_mem (inLine : '\n' ∉ cs) :
    here.past cs = ⟨here.line, here.column + cs.length⟩ := by
  induction cs generalizing here with
  | nil => rfl
  | cons c cs ih =>
    obtain ⟨plain, inLine⟩ := not_or.mp (mt List.mem_cons.mpr inLine)
    rw [past, if_neg (Ne.symm plain), ih inLine]
    simp only [List.length_cons, Position.mk.injEq, true_and]
    omega

theorem Position.past_line : (here.past cs).line = here.line + cs.count '\n' := by
  induction cs generalizing here with
  | nil => rfl
  | cons c cs ih =>
    rw [past]
    split
    · next newline =>
      rw [ih, newline, List.count_cons_self, Nat.add_right_comm, Nat.add_assoc]
    · next plain => rw [ih, List.count_cons_of_ne plain]

/-- The place behind a text is reached from its beginning. -/
theorem Position.behind_eq_past (cs : List Char) : behind cs = past ⟨1, 1⟩ cs := by
  induction cs using List.reverseRecOn with
  | nil => rfl
  | append_singleton cs c ih =>
    rw [past_append, ← ih]
    by_cases newline : c = '\n'
    · simp [behind, past, newline, Nat.add_assoc]
    · simp [behind, past, newline, Nat.add_assoc]

end Past

/-! ### What is read first -/

/-- What is read first from a text: a token, if it is one, and where reading goes on. -/
structure Advance where
  token? : Option Token
  next : Position
  rest : List Char

/-- The newlines that are hidden in what is read first. -/
def Advance.hidden (a : Advance) : Nat := (a.token?.map Token.hidden).getD 0

namespace Scan

/-- A token that is read first. -/
def Piece.advance (p : Piece) : Advance := ⟨some p.token, p.next, p.rest⟩

/-- What is read first from a text that begins with a character. -/
def first (here : Position) (c : Char) (rest : List Char) : Advance :=
  if isLineBlank c then ⟨none, ⟨here.line, here.column + 1⟩, rest⟩
  else if c == '\n' then ⟨none, ⟨here.line + 1, 1⟩, rest⟩
  else if c == '/' && rest.head? == some '/' then ⟨none, here, afterLineComment rest⟩
  else if c == '/' && rest.head? == some '*' then
    let after := afterBlockComment ⟨here.line, here.column + 2⟩ rest.tail
    ⟨none, after.1, after.2⟩
  else if c == doubleQuote || c == singleQuote then (readString here c rest).advance
  else if startsNumber c rest then (readNumber here c rest).advance
  else if startsWord c then (readWord here c rest).advance
  else
    match Symbol.ofChar? c with
    | some s =>
      ⟨some ⟨.symbol s, String.singleton c, here⟩, ⟨here.line, here.column + 1⟩, rest⟩
    | none => ⟨none, ⟨here.line, here.column + 1⟩, rest⟩

/-- A text is read piece by piece. -/
theorem scan_cons (here : Position) (c : Char) (rest : List Char) :
    (scan here (c :: rest)).tokens = (first here c rest).token?.toList ++
      (scan (first here c rest).next (first here c rest).rest).tokens := by
  rw [scan]
  unfold first
  split_ifs
  case neg => cases Symbol.ofChar? c <;> rfl
  all_goals rfl

/-- What a step takes off the front of a text, and how it counts: the next place is the one
behind what was taken, apart from hidden newlines, and unless the line ends there anyway. -/
structure Advances (here : Position) (cs : List Char) (a : Advance) (taken : List Char) :
    Prop where
  split : taken ++ a.rest = cs
  nonempty : taken ≠ []
  token : ∀ t, a.token? = some t → t.position = here ∧ t.Begins cs
  line : a.next.line + a.hidden = here.line + taken.count '\n'
  place : a.hidden = 0 → (∃ c more, a.rest = c :: more ∧ c ≠ '\n') → a.next = here.past taken

section Pieces

variable {here : Position} {c quote : Char} {cs rest taken : List Char} {a : Advance}

/-- Without newlines it is enough to count characters. -/
theorem advances_of_inLine (split : taken ++ a.rest = cs) (nonempty : taken ≠ [])
    (token : ∀ t, a.token? = some t → t.position = here ∧ t.Begins cs) (open_ : a.hidden = 0)
    (inLine : '\n' ∉ taken) (next : a.next = ⟨here.line, here.column + taken.length⟩) :
    Advances here cs a taken where
  split := split
  nonempty := nonempty
  token := token
  line := by rw [next, open_, List.count_eq_zero_of_not_mem inLine]
  place _ _ := by rw [next, Position.past_of_not_mem inLine]

theorem advances_skipped (plain : c ≠ '\n') :
    Advances here (c :: rest) ⟨none, ⟨here.line, here.column + 1⟩, rest⟩ [c] :=
  advances_of_inLine rfl (by simp) (by simp) rfl (by simpa using Ne.symm plain) rfl

theorem advances_newline :
    Advances here ('\n' :: rest) ⟨none, ⟨here.line + 1, 1⟩, rest⟩ ['\n'] where
  split := rfl
  nonempty := by simp
  token := by simp
  line := by simp [Advance.hidden]
  place _ _ := by simp [Position.past]

/-- A line comment is not counted, but the line ends behind it. -/
theorem advances_lineComment :
    Advances here ('/' :: rest) ⟨none, here, afterLineComment rest⟩
      ('/' :: rest.takeWhile (· != '\n')) where
  split := by simp [afterLineComment]
  nonempty := by simp
  token := by simp
  line := by
    have inLine : '\n' ∉ rest.takeWhile (· != '\n') := by
      intro inside
      have other := List.mem_takeWhile_imp inside
      exact absurd other (by simp)
    rw [List.count_cons_of_ne (by decide), List.count_eq_zero_of_not_mem inLine]
    rfl
  place _ more := by
    obtain ⟨c, more, left, other⟩ := more
    have ends := List.head?_dropWhile_not (· != '\n') rest
    rw [show rest.dropWhile (· != '\n') = c :: more from left] at ends
    exact absurd (by simpa using ends) other

theorem afterBlockComment_past (here : Position) (cs : List Char) :
    ∃ taken, taken ++ (afterBlockComment here cs).2 = cs ∧
      (afterBlockComment here cs).1 = here.past taken := by
  fun_induction afterBlockComment here cs with
  | case1 here => exact ⟨[], rfl, rfl⟩
  | case2 here rest => exact ⟨['*', '/'], rfl, rfl⟩
  | case3 here rest ih =>
    obtain ⟨taken, split, next⟩ := ih
    exact ⟨'\n' :: taken, by simp [split], by simp [Position.past, next]⟩
  | case4 here c rest _ plain ih =>
    obtain ⟨taken, split, next⟩ := ih
    have plain : c ≠ '\n' := plain
    exact ⟨c :: taken, by simp [split], by simp [Position.past, next, plain]⟩

theorem advances_blockComment (opens : rest.head? = some '*') :
    ∃ taken, Advances here ('/' :: rest)
      ⟨none, (afterBlockComment ⟨here.line, here.column + 2⟩ rest.tail).1,
        (afterBlockComment ⟨here.line, here.column + 2⟩ rest.tail).2⟩ taken := by
  obtain ⟨more, rfl⟩ := List.head?_eq_some_iff.mp opens
  obtain ⟨taken, split, next⟩ := afterBlockComment_past ⟨here.line, here.column + 2⟩ more
  refine ⟨'/' :: '*' :: taken, by simp [split], by simp, by simp, ?_, fun _ _ => ?_⟩
  · simp [next, Advance.hidden, Position.past_line]
  · simp [next, Position.past]

/-! ### Tokens -/

theorem stringBody_split (quote : Char) (cs : List Char) :
    (stringBody quote cs).1 ++ (stringBody quote cs).2 = cs := by
  fun_induction stringBody quote cs with
  | case1 => rfl
  | case2 => rfl
  | case3 => rfl
  | case4 c _ escape escaped more body tail read ih => simpa [read] using ih
  | case5 c rest _ plain body tail read ih => simpa [read] using ih

/-- Only where the text ends is a string counted wider than it is. -/
theorem stringWidth_stringBody {quote : Char} {cs : List Char}
    (ends : (stringBody quote cs).2 ≠ []) :
    stringWidth (stringBody quote cs).1 = (stringBody quote cs).1.length := by
  fun_induction stringBody quote cs with
  | case1 => rfl
  | case2 => rfl
  | case3 => exact absurd rfl ends
  | case4 c _ escape escaped more body tail read ih =>
    simp_all [stringWidth]
  | case5 c rest _ plain body tail read ih =>
    have plain : c ≠ '\\' := by simpa using plain
    simp_all [stringWidth]

theorem ne_newline_of_quote (isQuote : quote ∈ [doubleQuote, singleQuote]) : quote ≠ '\n' := by
  rintro rfl
  exact absurd isQuote (by decide)

/-- A string, from its quote on to what closes it, if anything does. -/
theorem advances_literal {body : List Char} (isQuote : quote ∈ [doubleQuote, singleQuote])
    (close : List Char) (plain : '\n' ∉ close)
    (width : rest ≠ [] → stringWidth body = body.length) :
    Advances here (quote :: (body ++ (close ++ rest)))
      ⟨some ⟨.string, String.ofList body, here⟩,
        ⟨here.line, here.column + 1 + stringWidth body + close.length⟩, rest⟩
      (quote :: (body ++ close)) := by
  have hides : Token.hidden ⟨.string, String.ofList body, here⟩ = body.count '\n' := by
    simp [Token.hidden]
  have other := ne_newline_of_quote isQuote
  refine ⟨by simp, by simp, ?_, ?_, ?_⟩
  · rintro t ⟨⟩
    refine ⟨rfl, ?_⟩
    rw [Token.Begins, if_pos rfl, String.toList_ofList]
    exact ⟨quote, isQuote, close ++ rest, rfl⟩
  · simp [Advance.hidden, hides, other, List.count_eq_zero_of_not_mem plain]
  · intro open_ ⟨c, more, left, _⟩
    have inLine : '\n' ∉ body := by
      rw [← List.count_eq_zero, ← hides]
      exact open_
    rw [width (List.ne_nil_of_mem (left ▸ List.mem_cons_self)),
      Position.past_of_not_mem (by simp [inLine, plain, Ne.symm other])]
    simp only [List.length_cons, List.length_append, Position.mk.injEq, true_and]
    omega

theorem advances_string (isQuote : quote ∈ [doubleQuote, singleQuote]) :
    ∃ taken, Advances here (quote :: cs) (readString here quote cs).advance taken := by
  have split := stringBody_split quote cs
  have width := @stringWidth_stringBody quote cs
  unfold readString
  generalize stringBody quote cs = parts at split width
  obtain ⟨body, tail⟩ := parts
  obtain rfl : body ++ tail = cs := split
  cases tail with
  | nil => exact ⟨_, advances_literal isQuote [] (by simp) (by simp)⟩
  | cons c more =>
    have width := width (List.cons_ne_nil c more)
    dsimp only
    split_ifs with closes
    · obtain rfl : c = quote := beq_iff_eq.mp closes
      have plain : '\n' ∉ [c] := by simpa using Ne.symm (ne_newline_of_quote isQuote)
      exact ⟨_, advances_literal isQuote [c] plain fun _ => width⟩
    · exact ⟨_, advances_literal isQuote [] (by simp) fun _ => width⟩

theorem numberTail_split (hexadecimal : Bool) (previous : Char) (cs : List Char) :
    (numberTail hexadecimal previous cs).1 ++ (numberTail hexadecimal previous cs).2 = cs ∧
      '\n' ∉ (numberTail hexadecimal previous cs).1 := by
  fun_induction numberTail hexadecimal previous cs with
  | case1 => simp
  | case2 previous c rest continues digits tail read ih =>
    rw [read] at ih
    refine ⟨congrArg (c :: ·) ih.1, ?_⟩
    rintro (_ | ⟨_, inside⟩)
    · simp [continuesNumber] at continues
      exact absurd continues (by decide)
    · exact ih.2 inside
  | case3 => simp

theorem advances_number (starts : startsNumber c rest = true) :
    ∃ taken, Advances here (c :: rest) (readNumber here c rest).advance taken := by
  obtain ⟨split, inLine⟩ := numberTail_split (startsHexadecimal (c :: rest)) c rest
  have plain : c ≠ '\n' := by
    rintro rfl
    simp [startsNumber] at starts
    exact absurd starts (by decide)
  refine ⟨c :: (numberTail (startsHexadecimal (c :: rest)) c rest).1,
    advances_of_inLine (congrArg (c :: ·) split) (by simp) ?_ rfl ?_ ?_⟩
  · rintro t ⟨⟩
    refine ⟨rfl, ?_⟩
    rw [Token.Begins, if_neg (by simp [readNumber])]
    simp only [readNumber, String.toList_ofList]
    exact ⟨_, congrArg (c :: ·) split⟩
  · simp [Ne.symm plain, inLine]
  · simp only [Piece.advance, readNumber, List.length_cons, Position.mk.injEq, true_and]
    omega

theorem advances_word (starts : startsWord c = true) :
    ∃ taken, Advances here (c :: rest) (readWord here c rest).advance taken := by
  have split : rest.takeWhile continuesWord ++ rest.dropWhile continuesWord = rest :=
    List.takeWhile_append_dropWhile
  have plain : c ≠ '\n' := by
    rintro rfl
    exact absurd starts (by decide)
  have inLine : '\n' ∉ rest.takeWhile continuesWord := by
    intro inside
    exact absurd (List.mem_takeWhile_imp inside) (by decide)
  have notString : ∀ word, kindOfWord word ≠ .string := by
    intro word
    unfold kindOfWord
    split <;> simp
  refine ⟨c :: rest.takeWhile continuesWord,
    advances_of_inLine (congrArg (c :: ·) split) (by simp) ?_ ?_ ?_ ?_⟩
  · rintro t ⟨⟩
    refine ⟨rfl, ?_⟩
    rw [Token.Begins, if_neg (show (readWord here c rest).token.kind ≠ .string from notString _)]
    simp only [readWord, String.toList_ofList]
    exact ⟨_, congrArg (c :: ·) split⟩
  · simp [Advance.hidden, Piece.advance, readWord, Token.hidden, notString]
  · simp [Ne.symm plain, inLine]
  · simp only [Piece.advance, readWord, List.length_cons, Position.mk.injEq, true_and]
    omega

theorem advances_symbol {s : Symbol} (isSymbol : Symbol.ofChar? c = some s) :
    Advances here (c :: rest)
      ⟨some ⟨.symbol s, String.singleton c, here⟩, ⟨here.line, here.column + 1⟩, rest⟩ [c] := by
  have plain : c ≠ '\n' := by
    rintro rfl
    have none : Symbol.ofChar? '\n' = none := by decide
    cases none.symm.trans isSymbol
  refine advances_of_inLine rfl (by simp) ?_ rfl (by simpa using Ne.symm plain) rfl
  rintro t ⟨⟩
  exact ⟨rfl, by simp [Token.Begins]⟩

/-- Whatever is read first from a text, it is counted. -/
theorem advances_first (here : Position) (c : Char) (rest : List Char) :
    ∃ taken, Advances here (c :: rest) (first here c rest) taken := by
  unfold first
  split_ifs with blank newline lineComment blockComment quote number word
  · refine ⟨[c], advances_skipped ?_⟩
    rintro rfl
    exact absurd blank (by decide)
  · rw [beq_iff_eq.mp newline]
    exact ⟨_, advances_newline⟩
  · simp only [Bool.and_eq_true, beq_iff_eq] at lineComment
    rw [lineComment.1]
    exact ⟨_, advances_lineComment⟩
  · simp only [Bool.and_eq_true, beq_iff_eq] at blockComment
    rw [blockComment.1]
    exact advances_blockComment blockComment.2
  · exact advances_string (by simpa using quote)
  · exact advances_number number
  · exact advances_word word
  · cases delimiter : Symbol.ofChar? c with
    | some s => exact ⟨[c], advances_symbol delimiter⟩
    | none => exact ⟨[c], advances_skipped (by simpa using newline)⟩

end Pieces

theorem length_first_lt (here : Position) (c : Char) (rest : List Char) :
    (first here c rest).rest.length < (c :: rest).length := by
  obtain ⟨taken, step⟩ := advances_first here c rest
  rw [← step.split, List.length_append]
  have := List.length_pos_iff.mpr step.nonempty
  omega

/-! ### All tokens -/

/-- The tokens of a text that begins at a place, each with the text from its first character
on. -/
def located (here : Position) (cs : List Char) : List (Token × List Char) :=
  match cs with
  | [] => []
  | c :: rest =>
    let step := first here c rest
    step.token?.toList.map (·, c :: rest) ++ located step.next step.rest
termination_by cs.length
decreasing_by exact length_first_lt here c rest

theorem map_located (here : Position) (cs : List Char) :
    (located here cs).map Prod.fst = (scan here cs).tokens := by
  fun_induction located here cs with
  | case1 here => simp [scan]
  | case2 here c rest step ih =>
    rw [scan_cons, ← ih, List.map_append, List.map_map]
    exact congrArg (· ++ _) (List.map_id _)

/-- The newlines that some tokens hide. -/
def hiddenIn (found : List (Token × List Char)) : Nat := (found.map (·.1.hidden)).sum

/-- Reading has come behind `before`, and stands at `here` in front of `cs`: the lines are
right but for the hidden newlines, and so is the column, unless the line ends here. -/
structure Keeps (before : List Char) (hidden : Nat) (here : Position) (cs : List Char) : Prop where
  line : here.line + hidden = (Position.behind before).line
  place : hidden = 0 → (∃ c more, cs = c :: more ∧ c ≠ '\n') → here = Position.behind before

theorem Keeps.step {here : Position} {before taken : List Char} {hidden : Nat} {c : Char}
    {rest : List Char} {a : Advance} (kept : Keeps before hidden here (c :: rest))
    (step : Advances here (c :: rest) a taken) :
    Keeps (before ++ taken) (hidden + a.hidden) a.next a.rest where
  line := by
    have line := step.line
    have line' := kept.line
    rw [Position.behind_eq_past] at line' ⊢
    rw [Position.past_append, Position.past_line]
    omega
  place none onwards := by
    have next := step.place (by omega) onwards
    rw [next, Position.behind_eq_past, Position.past_append, ← Position.behind_eq_past]
    by_cases newline : c = '\n'
    · -- the column does not matter in front of a newline
      obtain ⟨x, others, rfl⟩ := List.exists_cons_of_ne_nil step.nonempty
      obtain rfl : x = c := (List.cons.inj step.split).1
      have line := kept.line
      rw [show hidden = 0 by omega] at line
      simp only [Position.past, newline, if_true]
      rw [← line]
    · rw [kept.place (by omega) ⟨c, rest, rfl, newline⟩]

/-- No token begins with a newline. -/
theorem ne_newline_of_token {here : Position} {c : Char} {rest : List Char} {t : Token}
    (found : (first here c rest).token? = some t) : c ≠ '\n' := by
  rintro rfl
  have passed : (first here '\n' rest).token? = none := rfl
  cases passed.symm.trans found

/-- Every token that is found from some place on stands where reading stands, but for the
newlines that are hidden by then. -/
theorem Keeps.located {here : Position} {before cs after : List Char} {hidden : Nat}
    {front back : List (Token × List Char)} {t : Token} (kept : Keeps before hidden here cs)
    (found : located here cs = front ++ (t, after) :: back) :
    ∃ passed, passed ++ after = cs ∧ t.Begins after ∧
      t.position.line + (hidden + hiddenIn front) = (Position.behind (before ++ passed)).line ∧
      (hidden + hiddenIn front = 0 → t.position = Position.behind (before ++ passed)) := by
  fun_induction Scan.located here cs generalizing before hidden front with
  | case1 => exact absurd found (by simp)
  | case2 here c rest =>
    rename_i step ih
    obtain ⟨taken, advances⟩ := advances_first here c rest
    have further : ∀ front', Scan.located step.next step.rest = front' ++ (t, after) :: back →
        ∃ passed, passed ++ after = c :: rest ∧ t.Begins after ∧
          t.position.line + (hidden + step.hidden + hiddenIn front') =
            (Position.behind (before ++ passed)).line ∧
          (hidden + step.hidden + hiddenIn front' = 0 →
            t.position = Position.behind (before ++ passed)) := by
      intro front' found
      obtain ⟨passed, split, begins, line, place⟩ := ih (kept.step advances) found
      rw [List.append_assoc] at line place
      exact ⟨taken ++ passed, by rw [List.append_assoc, split, advances.split], begins, line, place⟩
    cases first : step.token? with
    | none =>
      have none_ : step.hidden = 0 := by simp [Advance.hidden, first]
      rw [first] at found
      have further := further front found
      rwa [none_] at further
    | some u =>
      rw [first] at found
      have found : (u, c :: rest) :: Scan.located step.next step.rest =
        front ++ (t, after) :: back := found
      cases front with
      | nil =>
        obtain ⟨same, -⟩ := List.cons.inj found
        obtain ⟨rfl, rfl⟩ := Prod.mk.inj same
        obtain ⟨position, begins⟩ := advances.token _ first
        refine ⟨[], rfl, begins, ?_, fun none_ => ?_⟩
        · rw [position, List.append_nil]
          exact kept.line
        · rw [position, List.append_nil]
          exact kept.place none_ ⟨c, rest, rfl, ne_newline_of_token first⟩
      | cons head front =>
        obtain ⟨same, found⟩ := List.cons.inj found
        have more : step.hidden + hiddenIn front = hiddenIn (head :: front) := by
          simp [Advance.hidden, first, hiddenIn, ← same]
        have further := further front found
        rwa [Nat.add_assoc, more] at further

end Scan

open Scan

/-- Where the tokens of a text stand. A token that begins behind `before` has its true place, the
line and the column that are counted from the newlines in `before`, if and only if no string in
front of it hides a newline; each hidden newline makes its line too low by one. A text that is
refused at a token is refused at one of its own, and its place is the one that is named. -/
theorem tokenize_positions (text : String) :
    (located ⟨1, 1⟩ text.toList).map Prod.fst = (tokenize text).tokens ∧
    (∀ front t after back, located ⟨1, 1⟩ text.toList = front ++ (t, after) :: back →
      ∃ before, before ++ after = text.toList ∧ t.Begins after ∧
        t.position.line + hiddenIn front = (Position.behind before).line ∧
        (t.position = Position.behind before ↔ ∀ s ∈ front, s.1.hidden = 0)) ∧
    ∀ frames uri e t, Document.parse frames uri text = .error (.refused e) →
      e.refusal.found = some t → t ∈ (tokenize text).tokens ∧ e.position = t.position := by
  refine ⟨map_located _ _, fun front t after back found => ?_,
    fun frames uri e t refused found => Document.found_mem_of_parse refused found⟩
  have start : Keeps [] 0 ⟨1, 1⟩ text.toList := ⟨rfl, fun _ _ => rfl⟩
  obtain ⟨before, split, begins, line, place⟩ := start.located found
  rw [Nat.zero_add, List.nil_append] at line place
  have none_iff : hiddenIn front = 0 ↔ ∀ s ∈ front, s.1.hidden = 0 := by
    rw [hiddenIn, List.sum_eq_zero_iff, List.forall_mem_map]
  refine ⟨before, split, begins, line, fun same => none_iff.mp ?_, fun none_ => ?_⟩
  · rw [same] at line
    omega
  · exact place (none_iff.mpr none_)

/-- An option whose string goes on behind a backslash at the end of its line, and a word on the
second line where a semicolon is wanted. -/
def foldedText : String := "option o = \"a\\\nb\" x"

/-- The word on the second line, as it is read. -/
def strayToken : Token := ⟨.identifier, "x", ⟨1, 19⟩⟩

/-- Reading comes to the word with one newline hidden, so its line is too low by one, and so is
that of the refusal. -/
theorem tokenize_positions_folded :
    (∃ before, before ++ ['x'] = foldedText.toList ∧ strayToken.position.line + 1 =
      (Position.behind before).line ∧ strayToken.position ≠ Position.behind before) ∧
    ∃ e, Document.parse 1000 "" foldedText = .error (.refused e) ∧
      strayToken ∈ (tokenize foldedText).tokens ∧ e.position = strayToken.position := by
  obtain ⟨-, places, refusals⟩ := tokenize_positions foldedText
  constructor
  · have found : located ⟨1, 1⟩ foldedText.toList =
        (located ⟨1, 1⟩ foldedText.toList).take 4 ++ (strayToken, ['x']) :: [] := by
      decide +kernel
    obtain ⟨before, split, -, line, place⟩ := places _ _ _ _ found
    have hidden : hiddenIn ((located ⟨1, 1⟩ foldedText.toList).take 4) = 1 := by decide +kernel
    refine ⟨before, split, hidden ▸ line, fun same => ?_⟩
    have visible := place.mp same (⟨.string, "a\\\nb", ⟨1, 12⟩⟩, "\"a\\\nb\" x".toList)
      (by decide +kernel)
    exact absurd visible (by decide)
  · have refused : Document.parse 1000 "" foldedText =
        .error (.refused ⟨⟨1, 19⟩, some strayToken, .expected (.kind (.symbol .semicolon))⟩) := by
      decide +kernel
    exact ⟨_, refused, refusals _ _ _ _ refused rfl⟩

/-- The place of the word is not the one that the newlines give. -/
theorem folded_line_not_counted :
    strayToken ∈ (tokenize foldedText).tokens ∧
    ∃ before, before ++ strayToken.text.toList = foldedText.toList ∧
      Position.behind before = ⟨2, 4⟩ ∧ strayToken.position = ⟨1, 19⟩ :=
  ⟨by decide +kernel, "option o = \"a\\\nb\" ".toList, by decide +kernel, by decide +kernel, rfl⟩

end ProtoNames
