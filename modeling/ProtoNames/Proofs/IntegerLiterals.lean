import Mathlib.Data.List.Basic
import ProtoNames.Proofs.Notations

/-!
What is read as an integer.

`unsignedLiteral?` looks for the mark of a notation and leaves what stands behind it to a lenient
reader, `signedNumeral?`. So besides the literals (`IsLiteral`) also texts with something of their
own behind the mark are read (`IsOverdressed`): blanks, a second sign, a second mark.
`readInt_eq_ok_iff` says that these are all.

The grammar of numerals is that of the readers, one after the other: digits (`numeral?_plain`), the
mark of the base (`dropBaseMark_plain`), the sign (`splitSign_plain`), blanks (`trimPlain_plain`).
-/

namespace ProtoNames.Number

open Text

variable {base value count n : Nat} {c : Char} {cs body digits : List Char} {ds : List Nat}
  {z : Int} {negative : Bool}

/-! ### Numerals -/

/-- The value of a digit of any script. -/
def digit? (base : Nat) (c : Char) : Option Nat := digitValue? base (plain c)

/-- Digits behind another digit, with their values. In front of each an underscore may stand. -/
inductive MoreDigits (base : Nat) : List Nat → List Char → Prop
  | done : MoreDigits base [] []
  | next {c : Char} {d : Nat} {cs : List Char} {ds : List Nat} : digit? base c = some d →
      MoreDigits base ds cs → MoreDigits base (d :: ds) (c :: cs)
  | underscored {c : Char} {d : Nat} {cs : List Char} {ds : List Nat} : digit? base c = some d →
      MoreDigits base ds cs → MoreDigits base (d :: ds) ('_' :: c :: cs)

/-- Digits in a base, with their values. The first of them is no underscore. -/
inductive Digits (base : Nat) : List Nat → List Char → Prop
  | intro {c : Char} {d : Nat} {cs : List Char} {ds : List Nat} : digit? base c = some d →
      MoreDigits base ds cs → Digits base (d :: ds) (c :: cs)

/-- Digits that make up a number. A decimal numeral has no more than 4300 of them. -/
def IsNumeral (base n : Nat) (cs : List Char) : Prop :=
  ∃ ds, Digits base ds cs ∧ ds.foldl (fun n d => n * base + d) 0 = n ∧
    (base = 10 → ds.length ≤ maxDecimalDigits)

/-- A sign, which may be missing; true for a minus. -/
inductive Sign : Bool → List Char → Prop
  | missing : Sign false []
  | plus : Sign false ['+']
  | minus : Sign true ['-']

/-- The mark of a base, which may be missing. Its zero may be of any script, and an underscore may
stand behind it. -/
inductive Mark (base : Nat) : List Char → Prop
  | missing : Mark base []
  | bare {first letter : Char} : plain first = '0' →
      baseLetter? base = some (plain letter).toLower → Mark base [first, letter]
  | underscored {first letter : Char} : plain first = '0' →
      baseLetter? base = some (plain letter).toLower → Mark base [first, letter, '_']

/-- What may stand around the digits of a numeral. -/
structure Dress where
  before : List Char
  sign : List Char
  mark : List Char
  after : List Char
  deriving DecidableEq

/-- Digits in their dress. -/
def Dress.around (d : Dress) (digits : List Char) : List Char :=
  d.before ++ (d.sign ++ (d.mark ++ digits)) ++ d.after

/-- Nothing stands around the digits. -/
def Dress.none : Dress := ⟨[], [], [], []⟩

/-- Around a numeral there are blanks, a sign and the mark of its base. -/
structure Dress.Fits (d : Dress) (base : Nat) (negative : Bool) : Prop where
  before : ∀ c ∈ d.before, isPlainBlank (plain c) = true
  sign : Sign negative d.sign
  mark : Mark base d.mark
  after : ∀ c ∈ d.after, isPlainBlank (plain c) = true

/-! ### Literals -/

/-- The notation of a literal without its sign: the base, and what stands behind the mark that tells
of it. -/
inductive Form : Nat → List Char → List Char → Prop
  | hexadecimal {mark : Char} {cs : List Char} : mark = 'x' ∨ mark = 'X' →
      Form 16 cs ('0' :: mark :: cs)
  | octal {c : Char} {cs : List Char} : c ≠ 'x' → c ≠ 'X' → Form 8 (c :: cs) ('0' :: c :: cs)
  | decimal {cs : List Char} : cs.head? ≠ some '0' ∨ cs = ['0'] → Form 10 cs cs

/-- An integer literal without its sign: behind the mark of its notation there are digits and
nothing else. -/
def IsLiteral (n : Nat) (cs : List Char) : Prop :=
  ∃ base digits, Form base digits cs ∧ IsNumeral base n digits

/-- Around the digits behind the mark there is something more. -/
def IsOverdressed (z : Int) (cs : List Char) : Prop :=
  ∃ base digits n negative dress, Form base (Dress.around dress digits) cs ∧
    dress.Fits base negative ∧ dress ≠ .none ∧ IsNumeral base n digits ∧ z = withSign negative n

/-! ### Characters in ASCII -/

theorem plain_cases (c : Char) :
    plain c = c ∨ plain c = ' ' ∧ isBlank c = true ∨ (plain c).isDigit = true ∨
      plain c = '?' := by
  unfold plain
  split
  · exact .inl rfl
  · split
    · next blank => exact .inr (.inl ⟨rfl, blank⟩)
    · split
      · next d value =>
        refine .inr (.inr (.inl ?_))
        have most : d ≤ 9 := by
          unfold decimalValue? at value
          split at value
          · split at value
            · next digit =>
              cases value
              have := toNat_of_isDigit digit
              omega
            · cases value
          · obtain ⟨start, found, rfl⟩ := Option.map_eq_some_iff.mp value
            have range := List.find?_some found
            simp only [Bool.and_eq_true, decide_eq_true_eq] at range
            omega
        have all : ∀ d ≤ 9, (Char.ofNat (0x30 + d)).isDigit = true := by decide
        exact all d most
      · exact .inr (.inr (.inr rfl))

/-- A sign, a letter or an underscore stands for itself only. -/
theorem plain_eq_iff {mark : Char} (small : mark.toNat < 127) (noBlank : mark ≠ ' ')
    (noDigit : mark.isDigit = false) (noMark : mark ≠ '?') : plain c = mark ↔ c = mark := by
  constructor
  · intro same
    rcases plain_cases c with itself | ⟨blank, -⟩ | digit | foreign
    · exact itself.symm.trans same
    · exact absurd (same.symm.trans blank) noBlank
    · rw [same, noDigit] at digit
      cases digit
    · exact absurd (same.symm.trans foreign) noMark
  · rintro rfl
    exact if_pos small

/-! ### Digits -/

theorem ne_underscore_of_digit? {d : Nat} (digit : digit? base c = some d) : plain c ≠ '_' := by
  intro same
  rw [digit?, same] at digit
  cases digit

theorem digitsAfter_of_moreDigits (more : MoreDigits base ds cs) :
    digitsAfter base value count (cs.map plain) =
      some (ds.foldl (fun n d => n * base + d) value, count + ds.length) := by
  induction more generalizing value count with
  | done => rfl
  | next digit _ ih =>
    rw [List.map_cons, digitsAfter_of_digit digit, ih]
    simp [Nat.add_assoc, Nat.add_comm 1]
  | @underscored c d cs ds digit _ ih =>
    have underscore : plain '_' = '_' := rfl
    have here : digitValue? base (plain c) = some d := digit
    simp only [List.map_cons, underscore, digitsAfter, here]
    rw [ih]
    simp [Nat.add_assoc, Nat.add_comm 1]

theorem moreDigits_of_digitsAfter {r : Nat × Nat}
    (read : digitsAfter base value count (cs.map plain) = some r) : ∃ ds,
      MoreDigits base ds cs ∧ r = (ds.foldl (fun n d => n * base + d) value, count + ds.length) := by
  generalize ascii : cs.map plain = ps at read
  fun_induction digitsAfter base value count ps generalizing cs with
  | case1 value count =>
    cases List.map_eq_nil_iff.mp ascii
    cases read
    exact ⟨[], .done, rfl⟩
  | case2 value count c rest d digit ih =>
    obtain ⟨underscore, others, rfl, mark, asciiOthers⟩ := List.map_eq_cons_iff.mp ascii
    obtain ⟨c, cs, rfl, rfl, asciiRest⟩ := List.map_eq_cons_iff.mp asciiOthers
    obtain ⟨ds, more, rfl⟩ := ih asciiRest read
    cases (plain_eq_iff (by decide) (by decide) (by decide) (by decide)).mp mark
    exact ⟨d :: ds, .underscored digit more, by simp [Nat.add_assoc, Nat.add_comm 1]⟩
  | case3 => cases read
  | case4 value count c rest _ d digit ih =>
    obtain ⟨c, cs, rfl, rfl, asciiRest⟩ := List.map_eq_cons_iff.mp ascii
    obtain ⟨ds, more, rfl⟩ := ih asciiRest read
    exact ⟨d :: ds, .next digit more, by simp [Nat.add_assoc, Nat.add_comm 1]⟩
  | case5 => cases read

theorem numeral?_eq_some_iff : numeral? base (c :: cs) = some n ↔ ∃ d r,
    digitValue? base c = some d ∧ digitsAfter base d 1 cs = some r ∧
      (base = 10 → r.2 ≤ maxDecimalDigits) ∧ r.1 = n := by
  simp [numeral?, Option.bind_eq_some_iff]

/-- The digits that are read. -/
theorem numeral?_plain : numeral? base (cs.map plain) = some n ↔ IsNumeral base n cs := by
  constructor
  · intro read
    cases cs with
    | nil => cases read
    | cons c cs =>
      obtain ⟨d, r, digit, others, fits, rfl⟩ := numeral?_eq_some_iff.mp read
      obtain ⟨ds, more, rfl⟩ := moreDigits_of_digitsAfter others
      refine ⟨d :: ds, .intro digit more, by simp, ?_⟩
      simpa [Nat.add_comm] using fits
  · rintro ⟨ds, digits, rfl, fits⟩
    cases digits with
    | @intro c d cs ds digit more =>
      refine numeral?_eq_some_iff.mpr ⟨d, _, digit, digitsAfter_of_moreDigits more, ?_, by simp⟩
      simpa [Nat.add_comm] using fits

/-! ### Marks -/

theorem dropBaseMark_plain {mark : List Char} (marked : Mark base mark)
    (digits : Digits base ds cs) : dropBaseMark base ((mark ++ cs).map plain) = cs.map plain := by
  cases digits with
  | @intro first d cs ds digit more =>
    cases marked with
    | missing =>
      refine dropBaseMark_of_unmarked fun zero c rest ascii => ?_
      obtain ⟨c, cs, rfl, rfl, -⟩ := List.map_eq_cons_iff.mp (List.cons.inj ascii).2
      cases more with
      | next digit _ => exact baseLetter?_ne_of_digit digit
      | underscored _ _ =>
        unfold baseLetter?
        split <;> decide
    | bare isZero isLetter =>
      have unscored := ne_underscore_of_digit? digit
      simp only [List.cons_append, List.nil_append, List.map_cons, isZero, dropBaseMark, isLetter,
        beq_self_eq_true, if_true]
      split
      · next same => exact absurd (List.cons.inj same).1 unscored
      · rfl
    | underscored isZero isLetter =>
      have underscore : plain '_' = '_' := rfl
      simp only [List.cons_append, List.nil_append, List.map_cons, isZero, dropBaseMark, isLetter,
        beq_self_eq_true, if_true, underscore]

theorem exists_mark (base : Nat) (body : List Char) : ∃ mark digits, body = mark ++ digits ∧
    Mark base mark ∧ dropBaseMark base (body.map plain) = digits.map plain := by
  have marked {letter : Char} {rest : List Char} (ascii : body.map plain = '0' :: letter :: rest)
      (isLetter : (baseLetter? base == some letter.toLower) = true) :
      ∃ first second digits, body = first :: second :: digits ∧ plain first = '0' ∧
        baseLetter? base = some (plain second).toLower ∧ digits.map plain = rest := by
    obtain ⟨first, others, rfl, isZero, asciiOthers⟩ := List.map_eq_cons_iff.mp ascii
    obtain ⟨second, digits, rfl, rfl, asciiDigits⟩ := List.map_eq_cons_iff.mp asciiOthers
    exact ⟨first, second, digits, rfl, isZero, beq_iff_eq.mp isLetter, asciiDigits⟩
  generalize ascii : body.map plain = ps at marked
  fun_cases dropBaseMark base ps with
  | case1 letter isLetter rest =>
    obtain ⟨first, second, digits, rfl, isZero, isLetter, ascii⟩ := marked rfl isLetter
    obtain ⟨third, digits, rfl, mark, rfl⟩ := List.map_eq_cons_iff.mp ascii
    cases (plain_eq_iff (by decide) (by decide) (by decide) (by decide)).mp mark
    exact ⟨[first, second, '_'], digits, rfl, .underscored isZero isLetter, rfl⟩
  | case2 letter isLetter =>
    obtain ⟨first, second, digits, rfl, isZero, isLetter, rfl⟩ := marked rfl isLetter
    exact ⟨[first, second], digits, rfl, .bare isZero isLetter, rfl⟩
  | case3 => exact ⟨[], body, rfl, .missing, ascii.symm⟩
  | case4 => exact ⟨[], body, rfl, .missing, ascii.symm⟩

/-! ### Signs -/

theorem splitSign_plain {sign : List Char} (signed : Sign negative sign)
    (unsigned : ∀ c ∈ body.head?, (plain c).isAlphanum = true) :
    splitSign ((sign ++ body).map plain) = (negative, body.map plain) := by
  cases signed with
  | missing =>
    refine splitSign_of_head fun c first => ?_
    rw [List.nil_append, List.head?_map] at first
    obtain ⟨c, head, rfl⟩ := Option.map_eq_some_iff.mp first
    have alphanumeric := unsigned c head
    constructor <;> intro same <;> rw [same] at alphanumeric <;> cases alphanumeric
  | plus => rfl
  | minus => rfl

theorem exists_sign (cs : List Char) : ∃ sign body, cs = sign ++ body ∧
    Sign (splitSign (cs.map plain)).1 sign ∧ (splitSign (cs.map plain)).2 = body.map plain := by
  generalize ascii : cs.map plain = ps
  fun_cases splitSign ps with
  | case1 =>
    obtain ⟨first, others, rfl, mark, rfl⟩ := List.map_eq_cons_iff.mp ascii
    cases (plain_eq_iff (by decide) (by decide) (by decide) (by decide)).mp mark
    exact ⟨['+'], others, rfl, .plus, rfl⟩
  | case2 =>
    obtain ⟨first, others, rfl, mark, rfl⟩ := List.map_eq_cons_iff.mp ascii
    cases (plain_eq_iff (by decide) (by decide) (by decide) (by decide)).mp mark
    exact ⟨['-'], others, rfl, .minus, rfl⟩
  | case3 => exact ⟨[], cs, rfl, .missing, ascii.symm⟩

/-! ### Blanks -/

theorem trimPlain_plain : trimPlain (cs.map plain) =
    (((cs.dropWhile fun c => isPlainBlank (plain c)).reverse.dropWhile
      fun c => isPlainBlank (plain c)).reverse).map plain := by
  have unfolded : (isPlainBlank ∘ plain) = fun c => isPlainBlank (plain c) := rfl
  rw [trimPlain, List.dropWhile_map, ← List.map_reverse, List.dropWhile_map, ← List.map_reverse,
    unfolded]

theorem isBlank_of_isPlainBlank (blank : isPlainBlank (plain c) = true) : isBlank c = true := by
  rcases plain_cases c with itself | ⟨-, foreign⟩ | digit | other
  · rw [itself] at blank
    simp only [isPlainBlank, Bool.or_eq_true, beq_iff_eq, Bool.and_eq_true, decide_eq_true_eq]
      at blank
    rcases blank with rfl | control
    · rfl
    · simp [isBlank]
      omega
  · exact foreign
  · rw [isPlainBlank_of_isAlphanum (isAlphanum_of_isDigit digit)] at blank
    cases blank
  · rw [other] at blank
    cases blank

/-! ### Numerals in their dress -/

theorem isAlphanum_of_digit? {d : Nat} (digit : digit? base c = some d) :
    (plain c).isAlphanum = true :=
  isAlphanum_of_digitValue? digit

/-- Among digits there are digits and underscores only. -/
theorem digit_of_mem_digits (numeral : Digits base ds digits) :
    ∀ c ∈ digits, c = '_' ∨ ∃ d, digit? base c = some d := by
  cases numeral with
  | intro digit more =>
    refine List.forall_mem_cons.mpr ⟨.inr ⟨_, digit⟩, ?_⟩
    induction more with
    | done => exact List.forall_mem_nil _
    | next digit _ ih => exact List.forall_mem_cons.mpr ⟨.inr ⟨_, digit⟩, ih⟩
    | underscored digit _ ih =>
      exact List.forall_mem_cons.mpr ⟨.inl rfl, List.forall_mem_cons.mpr ⟨.inr ⟨_, digit⟩, ih⟩⟩

theorem isPlainBlank_of_mem_digits (numeral : Digits base ds digits) :
    ∀ c ∈ digits, isPlainBlank (plain c) = false := by
  intro c inside
  rcases digit_of_mem_digits numeral c inside with rfl | ⟨d, digit⟩
  · rfl
  · exact isPlainBlank_of_isAlphanum (isAlphanum_of_digit? digit)

/-- Without blanks there are none around the digits. -/
theorem Dress.Fits.ends_eq_nil {dress : Dress} (fits : dress.Fits base negative)
    (dark : ∀ c ∈ dress.around digits, isPlainBlank (plain c) = false) :
    dress.before = [] ∧ dress.after = [] := by
  simp only [around, List.forall_mem_append] at dark
  obtain ⟨⟨dark, -⟩, dark'⟩ := dark
  have none_ {ends : List Char} (blank : ∀ c ∈ ends, isPlainBlank (plain c) = true)
      (dark : ∀ c ∈ ends, isPlainBlank (plain c) = false) : ends = [] :=
    List.eq_nil_iff_forall_not_mem.mpr fun c inside =>
      Bool.false_ne_true ((dark c inside).symm.trans (blank c inside))
  exact ⟨none_ fits.before dark, none_ fits.after dark'⟩

/-- Without blanks, signs and letters of a mark there is nothing around the digits. -/
theorem Dress.Fits.eq_none {dress : Dress} (fits : dress.Fits base negative)
    (dark : ∀ c ∈ dress.around digits, isPlainBlank (plain c) = false)
    (unsigned : ∀ c ∈ dress.around digits, c ≠ '+' ∧ c ≠ '-')
    (unmarked : ∀ c ∈ dress.around digits, baseLetter? base ≠ some (plain c).toLower) :
    dress = .none := by
  obtain ⟨noBefore, noAfter⟩ := fits.ends_eq_nil dark
  obtain ⟨before, sign, mark, after⟩ := dress
  obtain ⟨-, signed, marked, -⟩ := fits
  simp only [around, List.forall_mem_append] at unsigned unmarked
  obtain ⟨⟨-, unsigned, -⟩, -⟩ := unsigned
  obtain ⟨⟨-, -, unmarked, -⟩, -⟩ := unmarked
  have noSign : sign = [] := by
    cases signed with
    | missing => rfl
    | plus => exact absurd rfl (unsigned '+' List.mem_cons_self).1
    | minus => exact absurd rfl (unsigned '-' List.mem_cons_self).2
  have noMark : mark = [] := by
    cases marked with
    | missing => rfl
    | @bare _ letter _ isLetter => exact absurd isLetter (unmarked letter (by simp))
    | @underscored _ letter _ isLetter => exact absurd isLetter (unmarked letter (by simp))
  dsimp only at noBefore noAfter
  rw [noBefore, noAfter, noSign, noMark, none]

/-- What stands around a numeral is no part of a longer one. -/
theorem Dress.Fits.eq_none_of_digits {dress : Dress} (fits : dress.Fits base negative)
    (numeral : Digits base ds (dress.around digits)) : dress = .none := by
  have digit := digit_of_mem_digits numeral
  refine fits.eq_none (isPlainBlank_of_mem_digits numeral) (fun c inside => ?_)
    (fun c inside => ?_)
  · rcases digit c inside with rfl | ⟨d, isDigit⟩
    · decide
    · constructor <;> rintro rfl <;> cases isDigit
  · rcases digit c inside with rfl | ⟨d, isDigit⟩
    · unfold baseLetter?
      split <;> decide
    · exact baseLetter?_ne_of_digit isDigit

/-- Digits with or without a mark begin with a digit. -/
theorem isAlphanum_of_head_marked {mark : List Char} (marked : Mark base mark)
    (numeral : Digits base ds digits) :
    ∀ c ∈ (mark ++ digits).head?, (plain c).isAlphanum = true := by
  cases numeral with
  | @intro first d rest ds digit more =>
    rintro c head
    cases marked with
    | missing =>
      cases head
      exact isAlphanum_of_digit? digit
    | bare isZero _ =>
      cases head
      rw [isZero]
      rfl
    | underscored isZero _ =>
      cases head
      rw [isZero]
      rfl

theorem trimPlain_around {dress : Dress} (fits : dress.Fits base negative)
    (numeral : Digits base ds digits) :
    trimPlain ((dress.around digits).map plain) =
      (dress.sign ++ (dress.mark ++ digits)).map plain := by
  have some_ : digits ≠ [] := by
    cases numeral
    exact List.cons_ne_nil _ _
  have front : ∀ x ∈ (dress.sign ++ (dress.mark ++ digits)).head?,
      isPlainBlank (plain x) = false := by
    intro x head
    cases sign : dress.sign with
    | nil =>
      rw [sign] at head
      exact isPlainBlank_of_isAlphanum (isAlphanum_of_head_marked fits.mark numeral x head)
    | cons first others =>
      have signed := fits.sign
      rw [sign] at head signed
      cases head
      cases signed <;> rfl
  have back : ∀ x ∈ (dress.sign ++ (dress.mark ++ digits)).getLast?,
      isPlainBlank (plain x) = false := by
    intro x last
    rw [← List.append_assoc, List.getLast?_append_of_ne_nil _ some_] at last
    exact isPlainBlank_of_mem_digits numeral x (List.mem_of_getLast? last)
  rw [trimPlain_plain, Dress.around,
    dropEnds_append (by simp [some_]) front back fits.before fits.after]

theorem signedNumeral?_eq (base : Nat) (cs : List Char) : signedNumeral? base cs =
    (numeral? base (dropBaseMark base (splitSign (trimPlain (cs.map plain))).2)).map
      fun n : Nat => withSign (splitSign (trimPlain (cs.map plain))).1 n := by
  rw [signedNumeral?]
  cases splitSign (trimPlain (cs.map plain)) with
  | mk negative body =>
    dsimp only
    cases numeral? base (dropBaseMark base body) <;> rfl

/-- What the lenient reader reads. -/
theorem signedNumeral?_eq_some_iff : signedNumeral? base cs = some z ↔
    ∃ (dress : Dress) (digits : List Char) (n : Nat) (negative : Bool),
      cs = dress.around digits ∧ dress.Fits base negative ∧ IsNumeral base n digits ∧
        z = withSign negative n := by
  rw [signedNumeral?_eq]
  constructor
  · intro read
    obtain ⟨before, after, split, blank, blank'⟩ :=
      exists_ends (fun c => isPlainBlank (plain c)) cs
    rw [trimPlain_plain] at read
    generalize ((cs.dropWhile fun c => isPlainBlank (plain c)).reverse.dropWhile
      fun c => isPlainBlank (plain c)).reverse = core at split read
    obtain ⟨sign, body, rfl, signed, unsigned⟩ := exists_sign core
    obtain ⟨mark, digits, rfl, marked, unmarked⟩ := exists_mark base body
    rw [unsigned, unmarked] at read
    obtain ⟨n, numeral, rfl⟩ := Option.map_eq_some_iff.mp read
    exact ⟨⟨before, sign, mark, after⟩, digits, n, _, split, ⟨blank, signed, marked, blank'⟩,
      numeral?_plain.mp numeral, rfl⟩
  · rintro ⟨dress, digits, n, negative, rfl, fits, numeral, rfl⟩
    obtain ⟨ds, written, -⟩ := id numeral
    rw [trimPlain_around fits written,
      splitSign_plain fits.sign (isAlphanum_of_head_marked fits.mark written)]
    dsimp only
    rw [dropBaseMark_plain fits.mark written, numeral?_plain.mpr numeral]
    rfl

/-! ### Literals -/

/-- A notation is read by what stands behind its mark. -/
theorem unsignedLiteral?_of_form (form : Form base digits cs) :
    unsignedLiteral? cs = signedNumeral? base digits := by
  cases form with
  | hexadecimal mark => rcases mark with rfl | rfl <;> rfl
  | octal small capital =>
    rw [unsignedLiteral?]
    · exact small
    · exact capital
  | decimal head =>
    rcases head with other | rfl
    · exact unsignedLiteral?_of_head other
    · rfl

/-- Every text has a notation. -/
theorem exists_form (cs : List Char) : ∃ base digits, Form base digits cs := by
  fun_cases unsignedLiteral? cs with
  | case1 digits => exact ⟨16, digits, .hexadecimal (.inl rfl)⟩
  | case2 digits => exact ⟨16, digits, .hexadecimal (.inr rfl)⟩
  | case3 c digits small capital => exact ⟨8, c :: digits, .octal small capital⟩
  | case4 _ _ _ other =>
    refine ⟨10, cs, .decimal ?_⟩
    rcases cs with _ | ⟨c, _ | ⟨c', rest⟩⟩
    · exact .inl (by simp)
    · by_cases zero : c = '0'
      · exact .inr (by rw [zero])
      · exact .inl (by simpa using zero)
    · refine .inl ?_
      rintro leading
      cases leading
      exact other c' rest rfl

theorem Form.suffix (form : Form base body cs) : body <:+ cs := by
  cases form with
  | @hexadecimal mark => exact ⟨['0', mark], rfl⟩
  | octal => exact List.suffix_cons _ _
  | decimal => exact List.suffix_refl _

/-- The marks keep the notations apart. -/
theorem Form.unique {base' : Nat} {body' : List Char} (form : Form base body cs)
    (form' : Form base' body' cs) : base = base' ∧ body = body' := by
  cases form with
  | hexadecimal mark =>
    cases form' with
    | hexadecimal => exact ⟨rfl, rfl⟩
    | octal small capital => exact absurd mark (not_or.mpr ⟨small, capital⟩)
    | decimal head => simp at head
  | octal small capital =>
    cases form' with
    | hexadecimal mark => exact absurd mark (not_or.mpr ⟨small, capital⟩)
    | octal => exact ⟨rfl, rfl⟩
    | decimal head => simp at head
  | decimal head =>
    cases form' with
    | hexadecimal => simp at head
    | octal => simp at head
    | decimal => exact ⟨rfl, rfl⟩

theorem Dress.around_none : Dress.none.around digits = digits := by
  simp [around, none]

theorem Dress.fits_none (base : Nat) : Dress.none.Fits base false :=
  ⟨List.forall_mem_nil _, .missing, .missing, List.forall_mem_nil _⟩

theorem Dress.Fits.eq_false_of_none (fits : Dress.none.Fits base negative) :
    negative = false := by
  have sign := fits.sign
  cases sign
  rfl

/-- A literal is not overdressed. -/
theorem not_isOverdressed (literal : IsLiteral n cs) : ¬ IsOverdressed z cs := by
  rintro ⟨base, digits, -, negative, dress, form, fits, dressed, -, -⟩
  obtain ⟨base', body, form', ds, numeral, -⟩ := literal
  obtain ⟨rfl, rfl⟩ := form.unique form'
  exact dressed (fits.eq_none_of_digits numeral)

/-- What is read behind a sign. -/
theorem unsignedLiteral?_eq_some_iff :
    unsignedLiteral? cs = some z ↔ (∃ n : Nat, z = n ∧ IsLiteral n cs) ∨ IsOverdressed z cs := by
  constructor
  · intro read
    obtain ⟨base, body, form⟩ := exists_form cs
    rw [unsignedLiteral?_of_form form] at read
    obtain ⟨dress, digits, n, negative, rfl, fits, numeral, rfl⟩ :=
      signedNumeral?_eq_some_iff.mp read
    by_cases bare : dress = .none
    · rw [bare, Dress.around_none] at form
      rw [bare] at fits
      rw [fits.eq_false_of_none]
      exact .inl ⟨n, rfl, base, digits, form, numeral⟩
    · exact .inr ⟨base, digits, n, negative, dress, form, fits, bare, numeral, rfl⟩
  · rintro (⟨n, rfl, base, digits, form, numeral⟩ |
      ⟨base, digits, n, negative, dress, form, fits, -, numeral, rfl⟩)
    · rw [unsignedLiteral?_of_form form, signedNumeral?_eq_some_iff]
      exact ⟨.none, digits, n, false, Dress.around_none.symm, Dress.fits_none base, numeral, rfl⟩
    · rw [unsignedLiteral?_of_form form, signedNumeral?_eq_some_iff]
      exact ⟨dress, digits, n, negative, rfl, fits, numeral, rfl⟩

/-- What is read: behind the sign, which may be missing, there is a literal, or one that is
overdressed. -/
theorem readInt_eq_ok_iff {literal : String} : readInt literal = .ok z ↔
    ∃ negative body y, splitSign (trim literal.toList) = (negative, body) ∧
      z = withSign negative y ∧ ((∃ n : Nat, y = n ∧ IsLiteral n body) ∨ IsOverdressed y body) := by
  have behindSign : readInt literal = .ok z ↔
      ∃ y, unsignedLiteral? (splitSign (trim literal.toList)).2 = some y ∧
        z = withSign (splitSign (trim literal.toList)).1 y := by
    unfold readInt
    cases trim literal.toList with
    | nil =>
      constructor
      · intro read
        cases read
      · rintro ⟨y, read, -⟩
        cases read
    | cons c cs =>
      dsimp only
      rw [if_neg (by simp)]
      cases unsignedLiteral? (splitSign (c :: cs)).2 with
      | none => simp
      | some y => simp [eq_comm]
  rw [behindSign]
  constructor
  · rintro ⟨y, read, rfl⟩
    exact ⟨_, _, y, rfl, rfl, unsignedLiteral?_eq_some_iff.mp read⟩
  · rintro ⟨negative, body, y, split, rfl, read⟩
    rw [split]
    exact ⟨y, unsignedLiteral?_eq_some_iff.mpr read, rfl⟩

end ProtoNames.Number
