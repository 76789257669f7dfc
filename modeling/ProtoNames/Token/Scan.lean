import ProtoNames.Text.Blank
import ProtoNames.Text.Digit
import ProtoNames.Text.Quoted
import ProtoNames.Token.Basic

/-!
From text to tokens.

`scan` reads the longest token that begins at each place and passes over blanks,
comments and characters that begin no token. Each piece is taken off the front of the
text by a function that also returns the rest, with a lemma that the rest is no longer
than what was given; `scan` recurses on that length.

A line comment moves no column: the newline after it starts a new line anyway.
An escaped character in a string never ends the string or the line.
-/

namespace ProtoNames

open Text

namespace Scan

/-! ### Pieces of text -/

/-- The text after a line comment, from its newline on. -/
def afterLineComment (cs : List Char) : List Char :=
  cs.dropWhile (· != '\n')

/-- The position and the text after a block comment whose opening has been read. A
comment that is never closed reaches to the end. -/
def afterBlockComment (here : Position) : List Char → Position × List Char
  | [] => (here, [])
  | '*' :: '/' :: rest => (⟨here.line, here.column + 2⟩, rest)
  | '\n' :: rest => afterBlockComment ⟨here.line + 1, 1⟩ rest
  | _ :: rest => afterBlockComment ⟨here.line, here.column + 1⟩ rest

/-- The body of a string and the rest from its closing quote, newline or end on. A
backslash takes the next character with it. -/
def stringBody (quote : Char) : List Char → List Char × List Char
  | [] => ([], [])
  | c :: rest =>
    if c == quote || c == '\n' then ([], c :: rest)
    else if c == '\\' then
      match rest with
      | [] => ([c], [])
      | escaped :: more =>
        let (body, tail) := stringBody quote more
        (c :: escaped :: body, tail)
    else
      let (body, tail) := stringBody quote rest
      (c :: body, tail)

/-- The columns that the body of a string takes: a backslash always counts for two,
also where the text ends after it. -/
def stringWidth : List Char → Nat
  | [] => 0
  | '\\' :: _ :: rest => stringWidth rest + 2
  | c :: rest => stringWidth rest + (if c == '\\' then 2 else 1)

/-- Whether `c` continues a number after `previous`: letters, digits and points do, and
the sign of an exponent unless the number is hexadecimal. -/
def continuesNumber (hexadecimal : Bool) (previous c : Char) : Bool :=
  isAlphanumeric c || c == '.' ||
    ((c == '+' || c == '-') && (previous == 'e' || previous == 'E') && !hexadecimal)

/-- The characters that continue a number after `previous`, and the rest. -/
def numberTail (hexadecimal : Bool) (previous : Char) : List Char → List Char × List Char
  | [] => ([], [])
  | c :: rest =>
    if continuesNumber hexadecimal previous c then
      let (digits, tail) := numberTail hexadecimal c rest
      (c :: digits, tail)
    else ([], c :: rest)

/-- Whether a number that begins with these characters is hexadecimal. -/
def startsHexadecimal : List Char → Bool
  | '0' :: c :: _ => c == 'x' || c == 'X'
  | _ => false

/-- A character that can begin a word. -/
def startsWord (c : Char) : Bool := isLetter c || c == '_'

/-- A character that continues a word. -/
def continuesWord (c : Char) : Bool := isAlphanumeric c || c == '_'

/-- A blank within a line. -/
def isLineBlank (c : Char) : Bool :=
  c == ' ' || c == '\t' || c == '\r' || c == '\x0c' || c == '\x0b'

/-- Whether a number begins here: at a digit, or at a point before a digit. -/
def startsNumber (c : Char) (rest : List Char) : Bool :=
  isDigit c || (c == '.' && (rest.head?.any isDigit))

/-! ### Tokens of more than one character -/

/-- A token with the position and the text after it. -/
structure Piece where
  token : Token
  next : Position
  rest : List Char

/-- The kind of the token that a word is. -/
def kindOfWord (word : String) : TokenKind :=
  match Keyword.ofWord? word with
  | some k => .keyword k
  | none => .identifier

/-- A string whose opening quote, at `here`, has been read. The closing quote is taken if
it is there. -/
def readString (here : Position) (quote : Char) (cs : List Char) : Piece :=
  let (body, rest) := stringBody quote cs
  let column := here.column + 1 + stringWidth body
  let token : Token := ⟨.string, String.ofList body, here⟩
  match rest with
  | [] => ⟨token, ⟨here.line, column⟩, []⟩
  | c :: more =>
    if c == quote then ⟨token, ⟨here.line, column + 1⟩, more⟩
    else ⟨token, ⟨here.line, column⟩, c :: more⟩

/-- A number whose first character `c`, at `here`, has been read. -/
def readNumber (here : Position) (c : Char) (cs : List Char) : Piece :=
  let (digits, rest) := numberTail (startsHexadecimal (c :: cs)) c cs
  ⟨⟨.number, String.ofList (c :: digits), here⟩, ⟨here.line, here.column + 1 + digits.length⟩,
    rest⟩

/-- A word whose first character `c`, at `here`, has been read. -/
def readWord (here : Position) (c : Char) (cs : List Char) : Piece :=
  let tail := cs.takeWhile continuesWord
  let word := String.ofList (c :: tail)
  ⟨⟨kindOfWord word, word, here⟩, ⟨here.line, here.column + 1 + tail.length⟩,
    cs.dropWhile continuesWord⟩

/-! ### Nothing grows -/

theorem length_dropWhile_le (p : Char → Bool) (cs : List Char) :
    (cs.dropWhile p).length ≤ cs.length :=
  (List.dropWhile_sublist p).length_le

theorem length_afterBlockComment_le (here : Position) (cs : List Char) :
    (afterBlockComment here cs).2.length ≤ cs.length := by
  fun_induction afterBlockComment here cs with
  | case1 here => exact Nat.le_refl 0
  | case2 here rest => exact Nat.le_add_right rest.length 2
  | case3 here rest ih => exact Nat.le_succ_of_le ih
  | case4 here c rest _ plain ih => exact Nat.le_succ_of_le ih

theorem length_stringBody_le (quote : Char) (cs : List Char) :
    (stringBody quote cs).2.length ≤ cs.length := by
  fun_induction stringBody quote cs with
  | case1 => exact Nat.le_refl 0
  | case2 rest => exact Nat.le_refl _
  | case3 => exact Nat.zero_le _
  | case4 c _ escape escaped more body tail read ih =>
    rw [read] at ih
    exact Nat.le_add_right_of_le (k := 2) ih
  | case5 c rest _ plain body tail read ih =>
    rw [read] at ih
    exact Nat.le_succ_of_le ih

theorem length_numberTail_le (hexadecimal : Bool) (previous : Char) (cs : List Char) :
    (numberTail hexadecimal previous cs).2.length ≤ cs.length := by
  fun_induction numberTail hexadecimal previous cs with
  | case1 => exact Nat.le_refl 0
  | case2 previous c rest continues digits tail read ih =>
    rw [read] at ih
    exact Nat.le_succ_of_le ih
  | case3 => exact Nat.le_refl _

theorem length_readString_le (here : Position) (quote : Char) (cs : List Char) :
    (readString here quote cs).rest.length ≤ cs.length := by
  have h := length_stringBody_le quote cs
  unfold readString
  generalize stringBody quote cs = parts at h
  obtain ⟨body, rest⟩ := parts
  cases rest with
  | nil => simp
  | cons c more =>
    simp only [List.length_cons] at h ⊢
    split <;> simp only [List.length_cons] <;> omega

theorem length_readNumber_le (here : Position) (c : Char) (cs : List Char) :
    (readNumber here c cs).rest.length ≤ cs.length :=
  length_numberTail_le _ c cs

theorem length_readWord_le (here : Position) (c : Char) (cs : List Char) :
    (readWord here c cs).rest.length ≤ cs.length :=
  length_dropWhile_le continuesWord cs

end Scan

open Scan

/-- Puts a token in front of those that follow it. -/
def TokenStream.cons (t : Token) (s : TokenStream) : TokenStream :=
  { s with tokens := t :: s.tokens }

/-- The tokens of a text that begins at a position. -/
def scan (here : Position) (cs : List Char) : TokenStream :=
  match cs with
  | [] => ⟨[], here⟩
  | c :: rest =>
    if isLineBlank c then scan ⟨here.line, here.column + 1⟩ rest
    else if c == '\n' then scan ⟨here.line + 1, 1⟩ rest
    else if c == '/' && rest.head? == some '/' then
      have := length_dropWhile_le (· != '\n') rest
      scan here (afterLineComment rest)
    else if c == '/' && rest.head? == some '*' then
      have := length_afterBlockComment_le ⟨here.line, here.column + 2⟩ rest.tail
      let next := afterBlockComment ⟨here.line, here.column + 2⟩ rest.tail
      scan next.1 next.2
    else if c == doubleQuote || c == singleQuote then
      have := length_readString_le here c rest
      let piece := readString here c rest
      .cons piece.token (scan piece.next piece.rest)
    else if startsNumber c rest then
      have := length_readNumber_le here c rest
      let piece := readNumber here c rest
      .cons piece.token (scan piece.next piece.rest)
    else if startsWord c then
      have := length_readWord_le here c rest
      let piece := readWord here c rest
      .cons piece.token (scan piece.next piece.rest)
    else
      match Symbol.ofChar? c with
      | some s =>
        .cons ⟨.symbol s, String.singleton c, here⟩ (scan ⟨here.line, here.column + 1⟩ rest)
      | none => scan ⟨here.line, here.column + 1⟩ rest
termination_by cs.length
decreasing_by all_goals (simp_all [afterLineComment]; try omega)

/-- The tokens of a text. -/
def tokenize (text : String) : TokenStream :=
  scan ⟨1, 1⟩ text.toList

end ProtoNames
