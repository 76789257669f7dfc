import ProtoNames.Proofs.Bodies
import ProtoNames.Proofs.Identifiers
import ProtoNames.Proofs.IntegerLiterals
import ProtoNames.Schema.Grammar

/-!
Numbers of declarations as they stand in a text.

* `isNumberText_scan`: a number token begins with a digit or a point, and there is a sign in it only
  behind the `e` of an exponent, never a blank or an underscore.
* `IsNumberText.isOverdressed_iff`: so all that it can have in excess of a literal is a second mark.
* `integer_accepts`: what is read as an integer, and what stands for the number of a declaration.
-/

namespace ProtoNames

open Text Scan Number

variable {c : Char} {cs : List Char} {here : Position}

/-! ### Number tokens -/

/-- The characters of a number token. -/
structure IsNumberText (cs : List Char) : Prop where
  start : ∀ c ∈ cs.head?, isDigit c = true ∨ c = '.'
  chain : cs.IsChain fun previous c => continuesNumber (startsHexadecimal cs) previous c = true

theorem isChain_numberTail (hexadecimal : Bool) (previous : Char) (cs : List Char) :
    (previous :: (numberTail hexadecimal previous cs).1).IsChain
      fun a b => continuesNumber hexadecimal a b = true := by
  fun_induction numberTail hexadecimal previous cs with
  | case1 => exact .singleton _
  | case2 previous c rest continues digits tail split ih =>
    rw [split] at ih
    exact .cons_cons continues ih
  | case3 => exact .singleton _

theorem startsHexadecimal_congr {x : Char} (more others : List Char) :
    startsHexadecimal (c :: x :: more) = startsHexadecimal (c :: x :: others) := by
  by_cases zero : c = '0'
  · rw [zero]
    rfl
  · simp [startsHexadecimal, zero]

/-- Whether a number is hexadecimal can be told from the number alone. -/
theorem startsHexadecimal_numberTail (hexadecimal : Bool) (c : Char) (cs : List Char) :
    startsHexadecimal (c :: (numberTail hexadecimal c cs).1) = startsHexadecimal (c :: cs) := by
  cases cs with
  | nil => rfl
  | cons x more =>
    simp only [numberTail]
    split
    · exact startsHexadecimal_congr _ _
    · next stops =>
      by_cases mark : x = 'x' ∨ x = 'X'
      · -- the mark would go on with the number
        exfalso
        rcases mark with rfl | rfl <;> exact stops rfl
      · rw [not_or] at mark
        by_cases zero : c = '0'
        · simp [startsHexadecimal, zero, mark]
        · simp [startsHexadecimal, zero]

theorem isNumberText_readNumber {rest : List Char} (starts : startsNumber c rest = true) :
    IsNumberText (Scan.readNumber here c rest).token.text.toList := by
  simp only [Scan.readNumber, String.toList_ofList]
  constructor
  · rintro _ ⟨⟩
    rcases Bool.or_eq_true_iff.mp starts with digit | point
    · exact .inl digit
    · exact .inr (beq_iff_eq.mp (Bool.and_eq_true_iff.mp point).1)
  · rw [startsHexadecimal_numberTail]
    exact isChain_numberTail _ c rest

/-- No other token is a number. -/
theorem isNumberText_scan (here : Position) (cs : List Char) :
    ∀ t ∈ (scan here cs).tokens, t.kind = .number → IsNumberText t.text.toList := by
  refine forall_mem_scan (fun here quote cs isNumber => ?_)
    (fun here c cs starts _ => isNumberText_readNumber starts) (fun here c cs _ isNumber => ?_)
    (fun here c s isNumber => ?_) here cs
  · rw [kind_readString] at isNumber
    cases isNumber
  · exact absurd isNumber (Lexeme.kind_word_ne_number _)
  · cases isNumber

/-! ### Characters of number tokens -/

/-- Where the tables have letters, digits and other numeric characters. -/
def numberRanges : List Text.Range :=
  letterRanges ++ numericRanges ++ typographicDigitRanges ++
    decimalZeros.map fun start => (start, start + 9)

/-- The blanks beyond ASCII are elsewhere. -/
theorem blanks_apart : numberRanges.all (fun r =>
    [0x85, 0xA0, 0x1680, 0x2000, 0x2001, 0x2002, 0x2003, 0x2004, 0x2005, 0x2006, 0x2007, 0x2008,
      0x2009, 0x200A, 0x2028, 0x2029, 0x202F, 0x205F, 0x3000].all fun blank =>
        Nat.blt blank r.1 || Nat.blt r.2 blank) = true := by
  decide +kernel

theorem isBlank_of_range {r : Text.Range} (listed : r ∈ numberRanges) (foreign : ¬ c.toNat < 128)
    (inside : r.contains c = true) : isBlank c = false := by
  have apart := List.all_eq_true.mp blanks_apart r listed
  simp only [List.all_cons, List.all_nil, Bool.and_true, Bool.and_eq_true, Bool.or_eq_true,
    Nat.blt_eq] at apart
  simp only [Range.contains, Bool.and_eq_true, decide_eq_true_eq] at inside
  simp [isBlank]
  omega

theorem isBlank_of_isAlphanumeric (alphanumeric : isAlphanumeric c = true) :
    isBlank c = false := by
  unfold isAlphanumeric at alphanumeric
  split at alphanumeric
  · exact isBlank_of_isAlphanum alphanumeric
  · next foreign =>
    rcases Bool.or_eq_true_iff.mp alphanumeric with letter | numeric
    · simp only [isLetter, foreign, if_false] at letter
      obtain ⟨r, listed, inside⟩ := List.any_eq_true.mp letter
      exact isBlank_of_range (by simp [numberRanges, listed]) foreign inside
    · obtain ⟨r, listed, inside⟩ := List.any_eq_true.mp numeric
      exact isBlank_of_range (by simp [numberRanges, listed]) foreign inside

theorem isBlank_of_isDigit (digit : isDigit c = true) : isBlank c = false := by
  unfold isDigit at digit
  split at digit
  · exact isBlank_of_isAlphanum (isAlphanum_of_isDigit digit)
  · next foreign =>
    rcases Bool.or_eq_true_iff.mp digit with decimal | typographic
    · simp only [isDecimal, decimalValue?, foreign, if_false, Option.isSome_map] at decimal
      obtain ⟨start, found⟩ := Option.isSome_iff_exists.mp decimal
      have listed : (start, start + 9) ∈ numberRanges := by
        simp [numberRanges, List.mem_of_find?_eq_some found]
      exact isBlank_of_range listed foreign (by simpa [Range.contains] using List.find?_some found)
    · obtain ⟨r, listed, inside⟩ := List.any_eq_true.mp typographic
      exact isBlank_of_range (by simp [numberRanges, listed]) foreign inside

theorem isBlank_of_continuesNumber {hexadecimal : Bool} {previous : Char}
    (continues : continuesNumber hexadecimal previous c = true) : isBlank c = false := by
  simp only [continuesNumber, Bool.or_eq_true, Bool.and_eq_true, beq_iff_eq] at continues
  rcases continues with (alphanumeric | rfl) | ⟨⟨rfl | rfl, -⟩, -⟩
  · exact isBlank_of_isAlphanumeric alphanumeric
  · rfl
  · rfl
  · rfl

/-- A sign goes on with a number only behind an exponent's letter. -/
theorem unsigned_of_continuesNumber {hexadecimal : Bool} {previous : Char}
    (continues : continuesNumber hexadecimal previous c = true)
    (noExponent : hexadecimal = true ∨ previous ≠ 'e' ∧ previous ≠ 'E') : c ≠ '+' ∧ c ≠ '-' := by
  have stops {sign : Char} (isSign : isAlphanumeric sign = false ∧ sign ≠ '.') : c ≠ sign := by
    rintro rfl
    simp only [continuesNumber, Bool.or_eq_true, Bool.and_eq_true, beq_iff_eq,
      Bool.not_eq_true'] at continues
    rcases continues with (alphanumeric | point) | ⟨⟨-, exponent⟩, decimal⟩
    · cases isSign.1.symm.trans alphanumeric
    · exact isSign.2 point
    · rcases noExponent with hexadecimal | ⟨small, capital⟩
      · cases decimal.symm.trans hexadecimal
      · exact exponent.elim small capital
  exact ⟨stops (by decide), stops (by decide)⟩

namespace IsNumberText

variable {base : Nat} {body : List Char} (number : IsNumberText cs)

include number

theorem unblank : ∀ c ∈ cs, isBlank c = false := by
  have ⟨start, chain⟩ := number
  have front : ∀ c ∈ cs.head?, isBlank c = false := by
    intro c first
    rcases start c first with digit | rfl
    · exact isBlank_of_isDigit digit
    · rfl
  generalize startsHexadecimal cs = hexadecimal at chain
  clear start number
  induction cs with
  | nil => exact List.forall_mem_nil _
  | cons c rest ih =>
    refine List.forall_mem_cons.mpr ⟨front c rfl, ?_⟩
    cases rest with
    | nil => exact List.forall_mem_nil _
    | cons x more =>
      obtain ⟨continues, chain⟩ := List.isChain_cons_cons.mp chain
      refine ih (fun _ first => ?_) chain
      cases first
      exact isBlank_of_continuesNumber continues

theorem unsigned_head : ∀ c ∈ cs.head?, c ≠ '+' ∧ c ≠ '-' := by
  intro c first
  rcases number.start c first with digit | rfl
  · constructor <;> rintro rfl <;> cases digit
  · decide

/-- No notation has a sign of its own in a number token. -/
theorem unsigned (form : Form base body cs) : ∀ c ∈ body.head?, c ≠ '+' ∧ c ≠ '-' := by
  intro c first
  have chain := number.chain
  cases form with
  | @hexadecimal mark _ isMark =>
    obtain ⟨rest, rfl⟩ := List.head?_eq_some_iff.mp first
    have hexadecimal : startsHexadecimal ('0' :: mark :: c :: rest) = true := by
      rcases isMark with rfl | rfl <;> rfl
    obtain ⟨-, chain⟩ := List.isChain_cons_cons.mp chain
    exact unsigned_of_continuesNumber (List.isChain_cons_cons.mp chain).1 (.inl hexadecimal)
  | octal =>
    cases first
    exact unsigned_of_continuesNumber (List.isChain_cons_cons.mp chain).1 (.inr (by decide))
  | decimal => exact number.unsigned_head c first

end IsNumberText

/-! ### Numbers with two marks -/

/-- Behind the mark of the notation there is the mark of the base once more. -/
def IsMarkedTwice (n : Nat) (cs : List Char) : Prop :=
  ∃ base mark digits, Form base (mark ++ digits) cs ∧ Mark base mark ∧ mark ≠ [] ∧
    IsNumeral base n digits

namespace IsNumberText

variable {n : Nat} {z : Int}

/-- All that a number token can have in excess is a second mark. -/
theorem isOverdressed_iff (number : IsNumberText cs) :
    IsOverdressed z cs ↔ ∃ n : Nat, z = n ∧ IsMarkedTwice n cs := by
  constructor
  · rintro ⟨base, digits, n, negative, dress, form, fits, dressed, numeral, rfl⟩
    have dark : ∀ c ∈ dress.around digits, isPlainBlank (plain c) = false := by
      intro c inside
      have unblank := number.unblank c (form.suffix.subset inside)
      exact Bool.eq_false_iff.mpr fun blank =>
        Bool.false_ne_true (unblank.symm.trans (isBlank_of_isPlainBlank blank))
    obtain ⟨noBefore, noAfter⟩ := fits.ends_eq_nil dark
    obtain ⟨before, sign, mark, after⟩ := dress
    obtain ⟨-, signed, marked, -⟩ := fits
    dsimp only at noBefore noAfter
    subst noBefore noAfter
    have unsigned := number.unsigned form
    cases signed with
    | plus => exact absurd rfl (unsigned '+' rfl).1
    | minus => exact absurd rfl (unsigned '-' rfl).2
    | missing =>
      simp only [Dress.around, List.nil_append, List.append_nil] at form
      refine ⟨n, rfl, base, mark, digits, form, marked, ?_, numeral⟩
      rintro rfl
      exact dressed rfl
  · rintro ⟨n, rfl, base, mark, digits, form, marked, some_, numeral⟩
    refine ⟨base, digits, n, false, ⟨[], [], mark, []⟩, ?_, ?_, ?_, numeral, rfl⟩
    · simpa only [Dress.around, List.nil_append, List.append_nil] using form
    · exact ⟨List.forall_mem_nil _, .missing, marked, List.forall_mem_nil _⟩
    · intro same
      exact some_ (congrArg Dress.mark same)

/-- What a number token is read as. -/
theorem readInt_eq_ok_iff {literal : String} (number : IsNumberText literal.toList) :
    readInt literal = .ok z ↔
      ∃ n : Nat, z = n ∧ (IsLiteral n literal.toList ∨ IsMarkedTwice n literal.toList) := by
  rw [Number.readInt_eq_ok_iff, trim_of_isTrimmed (isTrimmed_of_forall number.unblank),
    splitSign_of_head number.unsigned_head]
  constructor
  · rintro ⟨negative, body, y, split, rfl, read⟩
    cases split
    rcases read with ⟨n, rfl, literal⟩ | overdressed
    · exact ⟨n, rfl, .inl literal⟩
    · obtain ⟨n, rfl, twice⟩ := number.isOverdressed_iff.mp overdressed
      exact ⟨n, rfl, .inr twice⟩
  · rintro ⟨n, rfl, literal | twice⟩
    · exact ⟨false, _, n, rfl, rfl, .inl ⟨n, rfl, literal⟩⟩
    · exact ⟨false, _, n, rfl, rfl, .inr (number.isOverdressed_iff.mpr ⟨n, rfl, twice⟩)⟩

end IsNumberText

/-! ### Numbers of declarations -/

namespace Grammar

open Reader

variable {ts rest : List Token} {z : Int}

theorem valueOf_eq_ok {α : Type} {t : Token} {value : Except LiteralError α} {a : α}
    (h : valueOf t value ts = .ok (a, rest)) : value = .ok a ∧ ts = rest := by
  cases value with
  | error e => cases h
  | ok b =>
    cases h
    exact ⟨rfl, rfl⟩

/-- The sign of a declaration's number is a token of its own. -/
theorem integer_eq_ok_iff : integer ts = .ok (z, rest) ↔ ∃ t n, t.kind = .number ∧
    readInt t.text = .ok n ∧ (ts = t :: rest ∧ z = n ∨
      ∃ minus, minus.kind = .symbol .minus ∧ ts = minus :: t :: rest ∧ z = -n) := by
  constructor
  · intro read
    obtain ⟨negative, ts₁, sign, read⟩ := bind_eq_ok.mp read
    obtain ⟨t, ts₂, expected, read⟩ := bind_eq_ok.mp read
    obtain ⟨n, ts₃, evaluated, read⟩ := bind_eq_ok.mp read
    cases read
    obtain ⟨value, rfl⟩ := valueOf_eq_ok evaluated
    obtain ⟨rfl, number⟩ := expect_eq_ok expected
    rcases accept_eq_ok sign with ⟨rfl, minus, rfl, isMinus⟩ | ⟨rfl, rfl⟩
    · exact ⟨t, n, number, value, .inr ⟨minus, isMinus, rfl, rfl⟩⟩
    · exact ⟨t, n, number, value, .inl ⟨rfl, rfl⟩⟩
  · have taken (negative : Bool) {t : Token} {n : Int} (number : t.kind = .number)
        (value : readInt t.text = .ok n) (sign : accept (.symbol .minus) ts =
          .ok (negative, t :: rest)) : integer ts = .ok (withSign negative n, rest) := by
      refine bind_eq_ok.mpr ⟨negative, _, sign, bind_eq_ok.mpr ⟨t, rest, ?_, ?_⟩⟩
      · simp [expect, take, number]
      · rw [value]
        rfl
    rintro ⟨t, n, number, value, ⟨rfl, rfl⟩ | ⟨minus, isMinus, rfl, rfl⟩⟩
    · exact taken false number value (by simp [accept, number])
    · exact taken true number value (by simp [accept, isMinus])

end Grammar

open Grammar

/-- What is read as an integer: a sign, which may be missing, and a literal, or a text with more
than digits behind the mark of its notation. No text is both. Of the tokens of a text, those that
stand for the number of a declaration are a literal, or have the mark of their notation twice; the
sign is a token of its own. -/
theorem integer_accepts (literal : String) (z : Int) :
    (readInt literal = .ok z ↔ ∃ negative body y,
      splitSign (trim literal.toList) = (negative, body) ∧ z = withSign negative y ∧
        ((∃ n : Nat, y = n ∧ IsLiteral n body) ∨ IsOverdressed y body)) ∧
    (∀ (n : Nat) (y : Int) (body : List Char), IsLiteral n body → ¬ IsOverdressed y body) ∧
    ∀ (text : String) (ts rest : List Token), ts <:+ (tokenize text).tokens →
      (integer ts = .ok (z, rest) ↔ ∃ (t : Token) (n : Nat), t.kind = .number ∧
        (IsLiteral n t.text.toList ∨ IsMarkedTwice n t.text.toList) ∧
        (ts = t :: rest ∧ z = n ∨
          ∃ minus, minus.kind = .symbol .minus ∧ ts = minus :: t :: rest ∧ z = -n)) := by
  refine ⟨readInt_eq_ok_iff, fun n y body => not_isOverdressed, fun text ts rest inside => ?_⟩
  have reads {t : Token} {y : Int} (isNumber : t.kind = .number) (place : ts = t :: rest ∧ z = y ∨
      ∃ minus, minus.kind = .symbol .minus ∧ ts = minus :: t :: rest ∧ z = -y) :
      readInt t.text = .ok y ↔
        ∃ n : Nat, y = n ∧ (IsLiteral n t.text.toList ∨ IsMarkedTwice n t.text.toList) := by
    have member : t ∈ ts := by
      rcases place with ⟨rfl, -⟩ | ⟨minus, -, rfl, -⟩ <;> simp
    exact (isNumberText_scan _ _ t (inside.subset member) isNumber).readInt_eq_ok_iff
  rw [integer_eq_ok_iff]
  constructor
  · rintro ⟨t, y, isNumber, read, place⟩
    obtain ⟨n, rfl, forms⟩ := (reads isNumber place).mp read
    exact ⟨t, n, isNumber, forms, place⟩
  · rintro ⟨t, n, isNumber, forms, place⟩
    exact ⟨t, n, isNumber, (reads isNumber place).mpr ⟨n, rfl, forms⟩, place⟩

/-- A number with one mark and a sign. -/
theorem integer_accepts_hexadecimal : ∃ (t : Token) (n : Nat), t.kind = .number ∧
    (IsLiteral n t.text.toList ∨ IsMarkedTwice n t.text.toList) ∧
    ((tokenize "-0x1F").tokens = [t] ∧ (-31 : Int) = n ∨ ∃ minus, minus.kind = .symbol .minus ∧
      (tokenize "-0x1F").tokens = [minus, t] ∧ (-31 : Int) = -n) := by
  have read : integer (tokenize "-0x1F").tokens = .ok (-31, []) := by decide +kernel
  obtain ⟨-, -, numbers⟩ := integer_accepts "-0x1F" (-31)
  exact (numbers "-0x1F" _ [] (List.suffix_refl _)).mp read

/-- With two marks a number is no literal, but it is read. -/
theorem marked_twice_parsed :
    Document.parse 1000 "" "enum E \x7b A = 0x0x10; \x7d" =
      .ok ⟨"", none, [.block (.enum "E") [.leaf (.enumValue "A" 16)]]⟩ ∧
    ∀ n, ¬ IsLiteral n "0x0x10".toList := by
  have numeral : IsNumeral 16 16 ['1', '0'] :=
    ⟨[1, 0], .intro rfl (.next rfl .done), rfl, by simp⟩
  have overdressed : IsOverdressed 16 "0x0x10".toList :=
    ⟨16, ['1', '0'], 16, false, ⟨[], [], ['0', 'x'], []⟩, .hexadecimal (.inl rfl),
      ⟨List.forall_mem_nil _, .missing, .bare rfl rfl, List.forall_mem_nil _⟩, by decide, numeral,
      rfl⟩
  exact ⟨by decide +kernel, fun n literal => not_isOverdressed literal overdressed⟩

end ProtoNames
