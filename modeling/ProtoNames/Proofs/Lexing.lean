import Mathlib.Data.List.Basic
import ProtoNames.Token.Lexeme

/-!
Texts and the tokens that they are read as.

* `Spelling` says how a lexeme can be written, and `Gap` what can stand between two: blanks,
  newlines and comments that end. `Written` puts the two together.
* `scan_spelling`: a spelling is read as its lexeme, and no further, if a gap or the end
  follows; `scan_gap`: a gap is passed over.
* `tokenize_written`: so a text is read as what it was written from, whatever gaps it has.
-/

namespace ProtoNames

open Text Scan

/-! ### Written texts -/

/-- The body of a string: no quote or newline stands in it, unless behind a backslash, and
every backslash has a character behind it. -/
inductive StringBody (quote : Char) : List Char → Prop
  | done : StringBody quote []
  | plain {c : Char} {rest : List Char} : c ≠ quote → c ≠ '\n' → c ≠ '\\' →
      StringBody quote rest → StringBody quote (c :: rest)
  | escaped {c : Char} {rest : List Char} : StringBody quote rest →
      StringBody quote ('\\' :: c :: rest)

/-- The ways to write a lexeme. -/
inductive Spelling : Lexeme → List Char → Prop
  | word {c : Char} {cs : List Char} : startsWord c = true → (∀ x ∈ cs, continuesWord x = true) →
      Spelling (.word (String.ofList (c :: cs))) (c :: cs)
  | symbol (s : Symbol) : Spelling (.symbol s) [s.char]
  | number {c : Char} {cs : List Char} : startsNumber c cs = true →
      (c :: cs).IsChain (fun previous x =>
        continuesNumber (startsHexadecimal (c :: cs)) previous x = true) →
      Spelling (.number (String.ofList (c :: cs))) (c :: cs)
  | string {quote : Char} {body : List Char} : quote = doubleQuote ∨ quote = singleQuote →
      StringBody quote body →
      Spelling (.string (String.ofList body)) (quote :: body ++ [quote])

/-- One piece of what can stand between lexemes. -/
inductive Gap : List Char → Prop
  | blank {c : Char} : isLineBlank c = true → Gap [c]
  | newline : Gap ['\n']
  | lineComment {text : List Char} : '\n' ∉ text → Gap ('/' :: '/' :: text ++ ['\n'])
  | blockComment {text : List Char} : ¬ ['*', '/'] <:+: text →
      Gap ('/' :: '*' :: text ++ ['*', '/'])

/-- A text that is written from lexemes, with one piece at least between any two of them. -/
inductive Written : List Lexeme → List Char → Prop
  | nothing : Written [] []
  | last {l : Lexeme} {cs : List Char} : Spelling l cs → Written [l] cs
  | next {l : Lexeme} {ls : List Lexeme} {cs gap rest : List Char} : Spelling l cs → Gap gap →
      Written ls rest → Written (l :: ls) (cs ++ gap ++ rest)
  | gap {ls : List Lexeme} {gap rest : List Char} : Gap gap → Written ls rest →
      Written ls (gap ++ rest)

variable {here : Position} {c : Char} {cs rest gap text : List Char} {l : Lexeme}
  {ls : List Lexeme}

/-! ### Characters -/

theorem letters_apart_decimals : letterRanges.all (fun r => decimalZeros.all fun start =>
    Nat.blt (start + 9) r.1 || Nat.blt r.2 start) = true := by
  decide +kernel

theorem letters_apart_digits : letterRanges.all (fun r => typographicDigitRanges.all fun r' =>
    Nat.blt r'.2 r.1 || Nat.blt r.2 r'.1) = true := by
  decide +kernel

/-- No letter is a digit. -/
theorem isDigit_eq_false_of_isLetter (letter : isLetter c = true) : isDigit c = false := by
  unfold isLetter at letter
  unfold isDigit
  by_cases ascii : c.toNat < 128
  · rw [if_pos ascii] at letter ⊢
    change (decide (65 ≤ c.val ∧ c.val ≤ 90) ||
      (decide (97 ≤ c.val) && decide (c.val ≤ 122))) = true at letter
    change (decide (48 ≤ c.val) && decide (c.val ≤ 57)) = false
    simp [UInt32.le_iff_toNat_le] at letter ⊢
    omega
  · simp only [ascii, if_false, List.any_eq_true, Range.contains, Bool.and_eq_true,
      decide_eq_true_eq] at letter ⊢
    obtain ⟨r, member, least, most⟩ := letter
    have decimals := letters_apart_decimals
    have digits := letters_apart_digits
    simp only [List.all_eq_true, Bool.or_eq_true, Nat.blt_eq] at decimals digits
    simp only [Bool.or_eq_false_iff]
    constructor
    · simp only [isDecimal, decimalValue?, ascii, if_false, Option.isSome_map]
      rw [Option.isSome_eq_false_iff, Option.isNone_iff_eq_none, List.find?_eq_none]
      intro start listed
      have apart := decimals r member start listed
      simp
      omega
    · rw [List.any_eq_false]
      intro r' listed
      have apart := digits r member r' listed
      simp
      omega

/-- The characters with which a gap can begin. -/
def startsGap (c : Char) : Bool := isLineBlank c || c == '\n' || c == '/'

theorem startsGap_iff : startsGap c = true ↔ c = ' ' ∨ c = '\t' ∨ c = '\r' ∨ c = '\x0c' ∨
    c = '\x0b' ∨ c = '\n' ∨ c = '/' := by
  simp [startsGap, isLineBlank, or_assoc]

theorem startsGap_eq_false_iff : startsGap c = false ↔
    isLineBlank c = false ∧ c ≠ '\n' ∧ c ≠ '/' := by
  simp [startsGap, and_assoc]

/-- What begins a gap continues nothing. -/
theorem not_continues_of_startsGap (gap : startsGap c = true) :
    continuesWord c = false ∧ isDigit c = false ∧
      ∀ hexadecimal previous, continuesNumber hexadecimal previous c = false := by
  have plain : isAlphanumeric c = false ∧ isDigit c = false ∧ c ≠ '_' ∧ c ≠ '.' ∧ c ≠ '+' ∧
      c ≠ '-' := by
    rcases startsGap_iff.mp gap with rfl | rfl | rfl | rfl | rfl | rfl | rfl <;> decide
  obtain ⟨alphanumeric, digit, underscore, point, plus, minus⟩ := plain
  refine ⟨?_, digit, ?_⟩
  · simp [continuesWord, alphanumeric, underscore]
  · intro hexadecimal previous
    simp [continuesNumber, alphanumeric, point, plus, minus]

theorem startsNumber_of_startsWord (starts : startsWord c = true) :
    startsNumber c rest = false := by
  have noPoint : c ≠ '.' := by
    rintro rfl
    exact absurd starts (by decide)
  have noDigit : isDigit c = false := by
    rcases Bool.or_eq_true_iff.mp starts with letter | underscore
    · exact isDigit_eq_false_of_isLetter letter
    · rw [beq_iff_eq.mp underscore]
      decide
  simp [startsNumber, noPoint, noDigit]

/-- What begins a word or a number begins nothing else that is looked for before. -/
theorem not_startsGap_of_starts (starts : startsWord c = true ∨ isDigit c = true ∨ c = '.') :
    startsGap c = false ∧ c ≠ doubleQuote ∧ c ≠ singleQuote := by
  refine ⟨?_, ?_, ?_⟩
  · rw [← Bool.not_eq_true]
    intro gap
    rcases startsGap_iff.mp gap with rfl | rfl | rfl | rfl | rfl | rfl | rfl <;>
      exact absurd starts (by decide)
  · rintro rfl
    exact absurd starts (by decide)
  · rintro rfl
    exact absurd starts (by decide)

/-! ### Gaps -/

theorem afterBlockComment_append (here : Position) (rest : List Char)
    (closed : ¬ ['*', '/'] <:+: text) :
    ∃ here', afterBlockComment here (text ++ '*' :: '/' :: rest) = (here', rest) := by
  induction text generalizing here with
  | nil => exact ⟨_, rfl⟩
  | cons c text ih =>
    have closed' : ¬ ['*', '/'] <:+: text := fun inside => closed (List.infix_cons inside)
    have other : ∀ more, c :: (text ++ '*' :: '/' :: rest) ≠ '*' :: '/' :: more := by
      intro more same
      obtain ⟨rfl, same⟩ := List.cons.inj same
      cases text with
      | nil => cases same
      | cons c' text =>
        cases same
        exact closed ⟨[], text, rfl⟩
    rw [List.cons_append]
    unfold afterBlockComment
    split
    · next none => cases none
    · next more same => exact absurd same (other more)
    · next more _ same =>
      obtain ⟨-, rfl⟩ := List.cons.inj same
      exact ih _ closed'
    · next more _ _ same =>
      obtain ⟨-, rfl⟩ := List.cons.inj same
      exact ih _ closed'

/-- A gap is passed over. -/
theorem scan_gap (here : Position) (rest : List Char) (gap_ : Gap gap) :
    ∃ here', scan here (gap ++ rest) = scan here' rest := by
  have newline : ∀ here, scan here ('\n' :: rest) = scan ⟨here.line + 1, 1⟩ rest := by
    intro here
    rw [scan]
    simp [isLineBlank]
  cases gap_ with
  | blank blank =>
    refine ⟨⟨here.line, here.column + 1⟩, ?_⟩
    rw [List.singleton_append, scan, if_pos blank]
  | newline => exact ⟨_, newline here⟩
  | @lineComment text inLine =>
    refine ⟨⟨here.line + 1, 1⟩, ?_⟩
    have skipped : afterLineComment ('/' :: (text ++ '\n' :: rest)) = '\n' :: rest := by
      unfold afterLineComment
      rw [List.dropWhile_cons_of_pos (by decide), List.dropWhile_append_of_pos]
      · simp
      · intro c inside
        exact bne_iff_ne.mpr fun same => inLine (same ▸ inside)
    simp only [List.cons_append, List.append_assoc, List.nil_append]
    rw [scan]
    simp [isLineBlank, skipped, newline]
  | @blockComment text closed =>
    obtain ⟨here', skipped⟩ := afterBlockComment_append ⟨here.line, here.column + 2⟩ rest closed
    refine ⟨here', ?_⟩
    simp only [List.cons_append, List.append_assoc, List.nil_append]
    rw [scan]
    simp [isLineBlank, skipped]

theorem Gap.head? (gap_ : Gap gap) : ∀ c ∈ (gap ++ rest).head?, startsGap c = true := by
  cases gap_ with
  | blank blank => simp [startsGap, blank]
  | newline => simp [startsGap]
  | lineComment _ => simp [startsGap]
  | blockComment _ => simp [startsGap]

/-! ### Spellings -/

theorem stringBody_append {quote : Char} (isQuote : quote = doubleQuote ∨ quote = singleQuote)
    (body : StringBody quote cs) :
    stringBody quote (cs ++ quote :: rest) = (cs, quote :: rest) := by
  have noEscape : '\\' ≠ quote := by
    rintro rfl
    revert isQuote
    decide
  induction body with
  | done =>
    unfold stringBody
    simp
  | plain notQuote notNewline notEscape _ ih =>
    rw [List.cons_append]
    unfold stringBody
    simp [notQuote, notNewline, notEscape, ih]
  | escaped _ ih =>
    simp only [List.cons_append]
    unfold stringBody
    simp [noEscape, ih]

section Ends

variable (ends : ∀ c ∈ rest.head?, startsGap c = true)

include ends

theorem readWord_append (here : Position) (c : Char)
    (continues : ∀ x ∈ cs, continuesWord x = true) :
    ∃ here', readWord here c (cs ++ rest) =
      ⟨⟨kindOfWord (String.ofList (c :: cs)), String.ofList (c :: cs), here⟩, here', rest⟩ := by
  have stops : rest.takeWhile continuesWord = [] ∧ rest.dropWhile continuesWord = rest := by
    cases rest with
    | nil => exact ⟨rfl, rfl⟩
    | cons x more =>
      have stop := (not_continues_of_startsGap (ends x rfl)).1
      simp [stop]
  unfold readWord
  rw [List.takeWhile_append_of_pos continues, List.dropWhile_append_of_pos continues, stops.1,
    stops.2, List.append_nil]
  exact ⟨_, rfl⟩

theorem numberTail_append {hexadecimal : Bool} {previous : Char}
    (chain : (previous :: cs).IsChain fun a b => continuesNumber hexadecimal a b = true) :
    numberTail hexadecimal previous (cs ++ rest) = (cs, rest) := by
  induction cs generalizing previous with
  | nil =>
    cases rest with
    | nil => rfl
    | cons x more =>
      have stop := (not_continues_of_startsGap (ends x rfl)).2.2 hexadecimal previous
      simp [numberTail, stop]
  | cons x cs ih =>
    obtain ⟨continues, chain⟩ := List.isChain_cons_cons.mp chain
    simp [numberTail, continues, ih chain]

theorem startsHexadecimal_append :
    startsHexadecimal (c :: (cs ++ rest)) = startsHexadecimal (c :: cs) := by
  by_cases zero : c = '0'
  · subst zero
    cases cs with
    | cons x cs => rfl
    | nil =>
      cases rest with
      | nil => rfl
      | cons x more =>
        have other : x ≠ 'x' ∧ x ≠ 'X' := by
          constructor
          · rintro rfl
            exact absurd (ends _ rfl) (by decide)
          · rintro rfl
            exact absurd (ends _ rfl) (by decide)
        simp [startsHexadecimal, other]
  · simp [startsHexadecimal, zero]

theorem startsNumber_append : startsNumber c (cs ++ rest) = startsNumber c cs := by
  cases cs with
  | cons x cs => rfl
  | nil =>
    cases rest with
    | nil => rfl
    | cons x more =>
      have stop := (not_continues_of_startsGap (ends x rfl)).2.1
      simp [startsNumber, stop]

end Ends

section Steps

variable (noGap : startsGap c = false)

include noGap

theorem scan_of_quote (isQuote : c = doubleQuote ∨ c = singleQuote) :
    scan here (c :: rest) = .cons (readString here c rest).token
      (scan (readString here c rest).next (readString here c rest).rest) := by
  obtain ⟨blank, newline, slash⟩ := startsGap_eq_false_iff.mp noGap
  rw [scan]
  simp [blank, newline, slash, isQuote]

variable (noQuote : c ≠ doubleQuote ∧ c ≠ singleQuote)

include noQuote

theorem scan_of_number (starts : startsNumber c rest = true) :
    scan here (c :: rest) = .cons (readNumber here c rest).token
      (scan (readNumber here c rest).next (readNumber here c rest).rest) := by
  obtain ⟨blank, newline, slash⟩ := startsGap_eq_false_iff.mp noGap
  rw [scan]
  simp [blank, newline, slash, noQuote, starts]

theorem scan_of_word (noNumber : startsNumber c rest = false) (starts : startsWord c = true) :
    scan here (c :: rest) = .cons (readWord here c rest).token
      (scan (readWord here c rest).next (readWord here c rest).rest) := by
  obtain ⟨blank, newline, slash⟩ := startsGap_eq_false_iff.mp noGap
  rw [scan]
  simp [blank, newline, slash, noQuote, noNumber, starts]

theorem scan_of_symbol {s : Symbol} (noNumber : startsNumber c rest = false)
    (noWord : startsWord c = false) (isSymbol : Symbol.ofChar? c = some s) :
    scan here (c :: rest) = .cons ⟨.symbol s, String.singleton c, here⟩
      (scan ⟨here.line, here.column + 1⟩ rest) := by
  obtain ⟨blank, newline, slash⟩ := startsGap_eq_false_iff.mp noGap
  rw [scan]
  simp [blank, newline, slash, noQuote, noNumber, noWord, isSymbol]

end Steps

/-- A spelling is read as its lexeme, and no further. -/
theorem scan_spelling (here : Position) (ends : ∀ c ∈ rest.head?, startsGap c = true)
    (spelling : Spelling l cs) :
    ∃ t here', t.lexeme = l ∧ scan here (cs ++ rest) = .cons t (scan here' rest) := by
  cases spelling with
  | @word c cs starts continues =>
    obtain ⟨here', read⟩ := readWord_append ends here c continues
    obtain ⟨noGap, noQuote⟩ := not_startsGap_of_starts (.inl starts)
    have noNumber : startsNumber c (cs ++ rest) = false := startsNumber_of_startsWord starts
    rw [List.cons_append, scan_of_word noGap noQuote noNumber starts, read]
    exact ⟨_, here', rfl, rfl⟩
  | symbol s =>
    have plain : startsGap s.char = false ∧ (s.char ≠ doubleQuote ∧ s.char ≠ singleQuote) ∧
        startsWord s.char = false ∧ Symbol.ofChar? s.char = some s ∧ isDigit s.char = false := by
      cases s <;> decide
    obtain ⟨noGap, noQuote, noWord, isSymbol, noDigit⟩ := plain
    have noNumber : startsNumber s.char rest = false := by
      rw [← List.nil_append rest, startsNumber_append ends]
      simp [startsNumber, noDigit]
    rw [List.singleton_append, scan_of_symbol noGap noQuote noNumber noWord isSymbol]
    exact ⟨_, _, rfl, rfl⟩
  | @number c cs starts chain =>
    have starts' : startsNumber c (cs ++ rest) = true := by
      rw [startsNumber_append ends, starts]
    have begins : isDigit c = true ∨ c = '.' := by
      simp only [startsNumber, Bool.or_eq_true, Bool.and_eq_true, beq_iff_eq] at starts
      exact starts.imp_right And.left
    obtain ⟨noGap, noQuote⟩ := not_startsGap_of_starts (.inr begins)
    rw [List.cons_append, scan_of_number noGap noQuote starts', readNumber,
      startsHexadecimal_append ends, numberTail_append ends chain]
    exact ⟨_, _, rfl, rfl⟩
  | @string quote body isQuote inside =>
    have noGap : startsGap quote = false := by
      rcases isQuote with rfl | rfl <;> decide
    have whole : body ++ [quote] ++ rest = body ++ quote :: rest := by simp
    rw [List.cons_append, List.cons_append, whole, scan_of_quote noGap isQuote, readString,
      stringBody_append isQuote inside]
    simp only [beq_self_eq_true, if_true]
    exact ⟨_, _, rfl, rfl⟩

theorem scan_written (written : Written ls cs) :
    (scan here cs).tokens.map Token.lexeme = ls := by
  induction written generalizing here with
  | nothing => simp [scan]
  | @last l cs spelling =>
    have ends : ∀ c ∈ ([] : List Char).head?, startsGap c = true := by simp
    obtain ⟨t, here', same, read⟩ := scan_spelling here ends spelling
    rw [List.append_nil] at read
    rw [read]
    simp [TokenStream.cons, same, scan]
  | @next l ls cs gap rest spelling gap_ _ ih =>
    obtain ⟨t, here', same, read⟩ := scan_spelling here gap_.head? spelling
    obtain ⟨here'', passed⟩ := scan_gap here' rest gap_
    rw [List.append_assoc, read, passed]
    simp [TokenStream.cons, same, ih]
  | @gap ls gap rest gap_ _ ih =>
    obtain ⟨here', passed⟩ := scan_gap here rest gap_
    rw [passed]
    exact ih

/-- A text is read as the lexemes from which it was written, whatever stands between them. So
texts that are written from the same lexemes are read alike. -/
theorem tokenize_written {text : String} (written : Written ls text.toList) :
    (tokenize text).tokens.map Token.lexeme = ls ∧
    ∀ other : String, Written ls other.toList →
      (tokenize other).tokens.map Token.lexeme = (tokenize text).tokens.map Token.lexeme := by
  refine ⟨scan_written written, ?_⟩
  intro other written'
  exact (scan_written written').trans (scan_written written).symm

/-- A text with comments, an exponent and an escaped quote. -/
def commentedText : String := "x // a line\n=/* * /\n */.5e-3 'it\\'s'"

/-- The comments are gaps, and the quote ends nothing. -/
theorem tokenize_written_commented :
    (tokenize commentedText).tokens.map Token.lexeme =
      [.word "x", .symbol .equals, .number ".5e-3", .string "it\\'s"] := by
  have body : StringBody singleQuote ['i', 't', '\\', '\'', 's'] :=
    .plain (by decide) (by decide) (by decide) <| .plain (by decide) (by decide) (by decide) <|
      .escaped <| .plain (by decide) (by decide) (by decide) .done
  have number : Spelling (.number (String.ofList ['.', '5', 'e', '-', '3']))
      ['.', '5', 'e', '-', '3'] :=
    .number (by decide) (by decide)
  have word : Spelling (.word (String.ofList ['x'])) ['x'] := .word (by decide) (by simp)
  have line : Gap ('/' :: '/' :: [' ', 'a', ' ', 'l', 'i', 'n', 'e'] ++ ['\n']) :=
    .lineComment (by decide)
  have block : Gap ('/' :: '*' :: [' ', '*', ' ', '/', '\n', ' '] ++ ['*', '/']) :=
    .blockComment (by decide)
  have written : Written _ commentedText.toList :=
    .next word (.blank (by decide)) <| .gap line <| .next (.symbol .equals) block <|
      .next number (.blank (by decide)) <| .last (.string (.inr rfl) body)
  exact (tokenize_written written).1

end ProtoNames
