import ProtoNames.Proofs.NumberTokens

/-!
Literals of decimal digits.

A zero in front makes digits octal, and decimal digits may be too many: so not all digits spell an
integer (`DigitsSpell`, `readInt_of_digits`). As a floating-point number all of them can be read, in
base ten (`readDouble_of_digits`). `digits_agree` compares the number of a declaration, which has to
be an integer, with the value of an option, which may be a number of either sort.
-/

namespace ProtoNames.Number

open Text

variable {base n : Nat} {cs : List Char} {z : Int}

/-- The integer that digits spell. A zero in front of others makes them octal. -/
inductive DigitsSpell : Nat → List Char → Prop
  | decimal {cs : List Char} : cs ≠ [] → cs.head? ≠ some '0' ∨ cs = ['0'] →
      cs.length ≤ maxDecimalDigits → DigitsSpell (Nat.ofDigitChars 10 cs 0) cs
  | octal {cs : List Char} : cs ≠ [] → (∀ c ∈ cs, c.toNat < '8'.toNat) →
      DigitsSpell (Nat.ofDigitChars 8 cs 0) ('0' :: cs)

/-- The floating-point number nearest to what digits are in base ten. -/
def nearestDouble (cs : List Char) : Binary64 :=
  .ofDecimal false (Nat.ofDigitChars 10 cs 0) (cs.dropWhile (· == '0')).length 0

theorem ofDigitChars_dropWhile (base : Nat) (cs : List Char) :
    Nat.ofDigitChars base (cs.dropWhile (· == '0')) 0 = Nat.ofDigitChars base cs 0 := by
  induction cs with
  | nil => rfl
  | cons c cs ih =>
    by_cases leading : c = '0'
    · rw [leading, Nat.ofDigitChars_cons]
      simpa using ih
    · rw [List.dropWhile_cons_of_neg (by simpa using leading)]

/-- A digit is the same in lower case, so it is no letter. -/
theorem digitValue?_toLower_of_isDigit {c : Char} (digit : c.isDigit = true) :
    digitValue? 10 c.toLower = some (c.toNat - '0'.toNat) := by
  rw [digitValue?_toLower, digitValue?_of_isDigit digit, if_pos (lt_ten_of_isDigit digit)]

section Digits

variable (digits : ∀ c ∈ cs, c.isDigit = true)

include digits

theorem isAlphanum_of_digits : ∀ c ∈ cs, c.isAlphanum = true :=
  fun c inside => isAlphanum_of_isDigit (digits c inside)

/-! ### As integers -/

/-- Digits make up a number in a base if they are digits of it. -/
theorem isNumeral_iff_of_digits : IsNumeral base n cs ↔ cs ≠ [] ∧
    (∀ c ∈ cs, c.toNat - '0'.toNat < base) ∧ (base = 10 → cs.length ≤ maxDecimalDigits) ∧
      n = Nat.ofDigitChars base cs 0 := by
  have bare := map_plain_of_bare (isAlphanum_of_digits digits)
  rw [← numeral?_plain, bare]
  constructor
  · intro numeral
    have some_ : cs ≠ [] := by
      rintro rfl
      cases numeral
    have below : ∀ c ∈ cs, c.toNat - '0'.toNat < base := by
      intro c inside
      by_contra large
      obtain ⟨ds, written, -⟩ := numeral?_plain.mp (bare.symm ▸ numeral)
      rcases digit_of_mem_digits written c inside with rfl | ⟨d, digit⟩
      · cases digits '_' inside
      · rw [digit?, plain_of_isAlphanum (isAlphanum_of_isDigit (digits c inside)),
          digitValue?_of_isDigit (digits c inside), if_neg large] at digit
        cases digit
    rw [numeral?_of_digits digits below some_] at numeral
    split at numeral
    · cases numeral
    · next fits =>
      cases numeral
      exact ⟨some_, below, fun ten => Nat.le_of_not_lt fun tooMany => fits ⟨ten, tooMany⟩, rfl⟩
  · rintro ⟨some_, below, fits, rfl⟩
    rw [numeral?_of_digits digits below some_,
      if_neg fun tooMany => Nat.not_lt.mpr (fits tooMany.1) tooMany.2]

theorem isLiteral_iff_of_digits : IsLiteral n cs ↔ DigitsSpell n cs := by
  constructor
  · rintro ⟨base, body, form, numeral⟩
    cases form with
    | @hexadecimal mark cs isMark =>
      rcases isMark with rfl | rfl
      · cases digits 'x' (by simp)
      · cases digits 'X' (by simp)
    | @octal c cs _ _ =>
      have digits := (List.forall_mem_cons.mp digits).2
      obtain ⟨some_, below, -, rfl⟩ := (isNumeral_iff_of_digits digits).mp numeral
      refine .octal some_ fun c inside => ?_
      have := below c inside
      have := toNat_of_isDigit (digits c inside)
      simp only [Char.reduceToNat] at *
      omega
    | decimal head =>
      obtain ⟨some_, -, fits, rfl⟩ := (isNumeral_iff_of_digits digits).mp numeral
      exact .decimal some_ head (fits rfl)
  · rintro spelled
    cases spelled with
    | decimal some_ head fits =>
      exact ⟨10, cs, .decimal head, (isNumeral_iff_of_digits digits).mpr
        ⟨some_, fun c inside => lt_ten_of_isDigit (digits c inside), fun _ => fits, rfl⟩⟩
    | @octal body some_ below =>
      obtain ⟨c, rest, rfl⟩ := List.exists_cons_of_ne_nil some_
      have digits := (List.forall_mem_cons.mp digits).2
      have isDigit := digits c List.mem_cons_self
      have form : Form 8 (c :: rest) ('0' :: c :: rest) := by
        refine .octal ?_ ?_ <;> rintro rfl <;> cases isDigit
      refine ⟨8, c :: rest, form, (isNumeral_iff_of_digits digits).mpr
        ⟨some_, fun c inside => ?_, fun other => absurd other (by decide), rfl⟩⟩
      have := below c inside
      simp only [Char.reduceToNat] at *
      omega

theorem not_isOverdressed_of_digits : ¬ IsOverdressed z cs := by
  rintro ⟨base, numeral, n, negative, dress, form, fits, dressed, -, -⟩
  have digit : ∀ c ∈ dress.around numeral, c.isDigit = true :=
    fun c inside => digits c (form.suffix.subset inside)
  have same : ∀ c ∈ dress.around numeral, plain c = c :=
    fun c inside => plain_of_isAlphanum (isAlphanum_of_isDigit (digit c inside))
  have dark : ∀ c ∈ dress.around numeral, isPlainBlank (plain c) = false := by
    intro c inside
    rw [same c inside]
    exact isPlainBlank_of_isAlphanum (isAlphanum_of_isDigit (digit c inside))
  have unsigned : ∀ c ∈ dress.around numeral, c ≠ '+' ∧ c ≠ '-' := by
    intro c inside
    have := digit c inside
    constructor <;> rintro rfl <;> contradiction
  have unmarked : ∀ c ∈ dress.around numeral, baseLetter? base ≠ some (plain c).toLower := by
    intro c inside isLetter
    have value := digitValue?_toLower_of_isDigit (digit c inside)
    rw [same c inside] at isLetter
    unfold baseLetter? at isLetter
    split at isLetter
    · rw [← Option.some.inj isLetter] at value
      cases value
    · rw [← Option.some.inj isLetter] at value
      cases value
    · cases isLetter
  exact dressed (fits.eq_none dark unsigned unmarked)

end Digits

section Literal

variable {literal : String} (digits : ∀ c ∈ literal.toList, c.isDigit = true)

include digits

theorem readInt_of_digits :
    readInt literal = .ok z ↔ ∃ n : Nat, z = n ∧ DigitsSpell n literal.toList := by
  have bare := isAlphanum_of_digits digits
  rw [readInt_eq_ok_iff, trim_of_isTrimmed (isTrimmed_of_bare bare), splitSign_of_bare bare]
  constructor
  · rintro ⟨negative, body, y, split, rfl, read⟩
    cases split
    rcases read with ⟨n, rfl, spelled⟩ | overdressed
    · exact ⟨n, rfl, (isLiteral_iff_of_digits digits).mp spelled⟩
    · exact absurd overdressed (not_isOverdressed_of_digits digits)
  · rintro ⟨n, rfl, spelled⟩
    exact ⟨false, _, n, rfl, rfl, .inl ⟨n, rfl, (isLiteral_iff_of_digits digits).mpr spelled⟩⟩

/-! ### As floating-point numbers -/

end Literal

section Digits

variable (digits : ∀ c ∈ cs, c.isDigit = true)

include digits

theorem dropUnderscores?_of_digits (afterDigit : Bool) :
    dropUnderscores? afterDigit cs = some cs := by
  induction cs generalizing afterDigit with
  | nil => rfl
  | cons c cs ih =>
    obtain ⟨digit, digits⟩ := List.forall_mem_cons.mp digits
    have unscored : c ≠ '_' := by
      rintro rfl
      cases digit
    rw [dropUnderscores?, ih digits]
    · simp [unscored]
    · rintro _ _ rfl
      exact absurd rfl unscored

theorem decimal?_of_digits (some_ : cs ≠ []) : decimal? false cs = some (nearestDouble cs) := by
  have whole : cs.takeWhile Char.isDigit = cs := List.takeWhile_eq_self_iff.mpr digits
  have nothing : cs.dropWhile Char.isDigit = [] := List.dropWhile_eq_nil_iff.mpr digits
  have significant := ofDigitChars_dropWhile 10 cs
  simp [decimal?, whole, nothing, some_, nearestDouble, significant]

/-- No digits are the name of a number. -/
theorem floating?_of_digits (some_ : cs ≠ []) : floating? cs = some (nearestDouble cs) := by
  have bare := isAlphanum_of_digits digits
  rw [floating?, map_plain_of_bare bare, dropUnderscores?_of_digits digits]
  have unnamed {name : String} (letter : Char) (member : letter ∈ name.toList)
      (noDigit : digitValue? 10 letter = none) : String.ofList (cs.map Char.toLower) ≠ name := by
    rintro rfl
    rw [String.toList_ofList] at member
    obtain ⟨c, inside, rfl⟩ := List.mem_map.mp member
    rw [digitValue?_toLower_of_isDigit (digits c inside)] at noDigit
    cases noDigit
  simp only [Option.bind_eq_bind, Option.bind_some, splitSign_of_bare bare]
  split
  · next same => exact absurd same (unnamed 'n' (by decide) rfl)
  · next same => exact absurd same (unnamed 'n' (by decide) rfl)
  · next same => exact absurd same (unnamed 'n' (by decide) rfl)
  · exact decimal?_of_digits digits some_

end Digits

theorem readDouble_of_digits {literal : String} (digits : ∀ c ∈ literal.toList, c.isDigit = true)
    (some_ : literal.toList ≠ []) : readDouble literal = .ok (nearestDouble literal.toList) := by
  have bare := isAlphanum_of_digits digits
  simp only [readDouble, trim_of_isTrimmed (isTrimmed_of_bare bare), List.isEmpty_iff, some_,
    if_false, floating?_of_digits digits some_]

theorem le_ofDigitChars (cs : List Char) (value : Nat) : value ≤ Nat.ofDigitChars 10 cs value := by
  induction cs generalizing value with
  | nil => exact Nat.le_refl value
  | cons c cs ih =>
    rw [Nat.ofDigitChars_cons]
    exact Nat.le_trans (by omega) (ih _)

/-- Too many digits without a zero in front are beyond all floating-point numbers. -/
theorem nearestDouble_of_many (digits : ∀ c ∈ cs, c.isDigit = true) (leading : cs.head? ≠ some '0')
    (many : maxDecimalDigits < cs.length) : nearestDouble cs = Binary64.infinity := by
  cases cs with
  | nil => cases many
  | cons c cs =>
    have nonzero : c ≠ '0' := by simpa using leading
    have positive : Nat.ofDigitChars 10 (c :: cs) 0 ≠ 0 := by
      have range := toNat_of_isDigit (digits c List.mem_cons_self)
      have other : c.toNat ≠ '0'.toNat := fun same => nonzero (Char.toNat_inj.mp same)
      have least := le_ofDigitChars cs (10 * 0 + (c.toNat - '0'.toNat))
      rw [Nat.ofDigitChars_cons]
      simp only [Char.reduceToNat] at *
      omega
    have large : 310 < (0 : Int) + (c :: cs).length := by
      simp only [maxDecimalDigits] at many
      omega
    rw [nearestDouble, List.dropWhile_cons_of_neg (by simpa using nonzero), Binary64.ofDecimal,
      Binary64.magnitudeOfDecimal, if_neg positive, if_pos large]
    rfl

/-! ### In both places -/

theorem readInt_eq_error {literal : String} (some_ : literal.toList ≠ [])
    (trimmed : trim literal.toList = literal.toList) (none_ : ∀ z, readInt literal ≠ .ok z) :
    readInt literal = .error (.malformed literal .int) := by
  have isEmpty : literal.toList.isEmpty = false := by simpa using some_
  simp only [readInt, trimmed, isEmpty, Bool.false_eq_true, if_false, String.ofList_toList] at *
  split
  · next n read => exact absurd (by rw [read]) (none_ _)
  · rfl

end ProtoNames.Number

namespace ProtoNames

open Text Number Grammar Reader

variable {t : Token} {rest : List Token}

/-- A number token is read as the value of an option. -/
theorem constant_eq_ok_iff (number : t.kind = .number) {n : Number} :
    constant (t :: rest) = .ok (.number n, rest) ↔ readNumber t.text = .ok n := by
  obtain ⟨kind, text, place⟩ := t
  cases number
  have unfolded : constant (⟨.number, text, place⟩ :: rest) =
      (valueOf ⟨.number, text, place⟩ (readNumber text) >>= fun n => pure (Constant.number n)) rest :=
    rfl
  rw [unfolded]
  constructor
  · intro read
    obtain ⟨m, _, evaluated, read⟩ := bind_eq_ok.mp read
    cases read
    exact (valueOf_eq_ok evaluated).1
  · intro value
    dsimp only at value
    rw [value]
    rfl

/-- A number token is read as the number of a declaration. -/
theorem integer_number_eq_ok_iff (number : t.kind = .number) {z : Int} :
    integer (t :: rest) = .ok (z, rest) ↔ readInt t.text = .ok z := by
  rw [integer_eq_ok_iff]
  constructor
  · rintro ⟨t', n, -, read, ⟨same, rfl⟩ | ⟨minus, isMinus, same, -⟩⟩
    · obtain ⟨rfl, -⟩ := List.cons.inj same
      exact read
    · obtain ⟨rfl, -⟩ := List.cons.inj same
      rw [number] at isMinus
      cases isMinus
  · intro read
    exact ⟨t, z, number, read, .inl ⟨rfl, rfl⟩⟩

/-- Digits that spell an integer are that integer in both places, and an integer nowhere else. The
others are no number of a declaration; as the value of an option they are the floating-point number
nearest to what they are in base ten, which is infinite if they are too many. -/
theorem digits_agree (literal : String) (digits : ∀ c ∈ literal.toList, c.isDigit = true) :
    (∀ z, readInt literal = .ok z ↔ ∃ n : Nat, z = n ∧ DigitsSpell n literal.toList) ∧
    (∀ z, readNumber literal = .ok (.int z) ↔ readInt literal = .ok z) ∧
    (literal.toList = [] →
      readInt literal = .error (.empty .int) ∧ readNumber literal = .error (.empty .double)) ∧
    (literal.toList ≠ [] → (∀ n, ¬ DigitsSpell n literal.toList) →
      readInt literal = .error (.malformed literal .int) ∧
      readNumber literal = .ok (.double (nearestDouble literal.toList))) ∧
    (literal.toList.head? ≠ some '0' → maxDecimalDigits < literal.toList.length →
      nearestDouble literal.toList = Binary64.infinity) ∧
    ∀ (t : Token) (rest : List Token), t.kind = .number → t.text = literal →
      ∀ z, constant (t :: rest) = .ok (.number (.int z), rest) ↔
        integer (t :: rest) = .ok (z, rest) := by
  have integers (z : Int) : readNumber literal = .ok (.int z) ↔ readInt literal = .ok z := by
    rw [readNumber]
    cases readInt literal with
    | ok n => simp
    | error e => cases readDouble literal <;> simp [Except.map]
  refine ⟨fun z => readInt_of_digits digits, integers, fun none_ => ?_, fun some_ others => ?_,
    nearestDouble_of_many digits, ?_⟩
  · obtain rfl : literal = "" := String.toList_eq_nil_iff.mp none_
    exact ⟨rfl, rfl⟩
  · have trimmed := trim_of_isTrimmed (isTrimmed_of_bare (isAlphanum_of_digits digits))
    have refused := readInt_eq_error some_ trimmed fun z read => by
      obtain ⟨n, -, spelled⟩ := (readInt_of_digits digits).mp read
      exact others n spelled
    refine ⟨refused, ?_⟩
    rw [readNumber, refused, readDouble_of_digits digits some_]
    rfl
  · rintro t rest number rfl z
    rw [constant_eq_ok_iff number, integer_number_eq_ok_iff number]
    exact integers z

/-- Octal digits. -/
theorem digits_agree_octal : (∀ c ∈ "0755".toList, c.isDigit = true) ∧
    readInt "0755" = .ok 493 ∧ readNumber "0755" = .ok (.int 493) := by
  have digits : ∀ c ∈ "0755".toList, c.isDigit = true := List.all_eq_true.mp (by decide)
  have value : Nat.ofDigitChars 8 ['7', '5', '5'] 0 = 493 := by decide
  have spelled : DigitsSpell (Nat.ofDigitChars 8 ['7', '5', '5'] 0) "0755".toList :=
    .octal (by simp) (by simp)
  rw [value] at spelled
  obtain ⟨spells, integers, -⟩ := digits_agree "0755" digits
  have read := (spells 493).mpr ⟨493, rfl, spelled⟩
  exact ⟨digits, read, (integers 493).mpr read⟩

/-- What is no number of a declaration may be the value of an option. -/
theorem digits_disagree : (∀ c ∈ "08".toList, c.isDigit = true) ∧
    readInt "08" = .error (.malformed "08" .int) ∧
    readNumber "08" = .ok (.double ⟨false, 0x4020000000000000⟩) := by
  refine ⟨List.all_eq_true.mp (by decide), by decide +kernel, by decide +kernel⟩

end ProtoNames
