import ProtoNames.Number.Literal
import ProtoNames.Proofs.Trimming

/-!
Numerals that numbers are written as.

`readInt_toString`: the decimal digits of a number are read as that number, unless there are
more of them than a decimal numeral may have; then they are refused.
-/

namespace ProtoNames.Number

open Text

variable {base value count n : Nat} {c : Char} {cs : List Char}

/-! ### Digits -/

theorem digitsAfter_of_digit {d : Nat} (digit : digitValue? base c = some d) :
    digitsAfter base value count (c :: cs) =
      digitsAfter base (value * base + d) (count + 1) cs := by
  have plain_ : c ≠ '_' := by
    rintro rfl
    cases digit
  rw [digitsAfter, digit]
  rintro _ _ rfl
  exact absurd rfl plain_

theorem digitsAfter_of_values {ds : List Nat}
    (values : cs.map (digitValue? base) = ds.map some) :
    digitsAfter base value count cs =
      some (ds.foldl (fun n d => n * base + d) value, count + cs.length) := by
  induction cs generalizing ds value count with
  | nil =>
    cases ds with
    | nil => rfl
    | cons d ds => cases values
  | cons c cs ih =>
    cases ds with
    | nil => cases values
    | cons d ds =>
      obtain ⟨here, values⟩ := List.cons.inj values
      rw [digitsAfter_of_digit here, ih values]
      simp only [List.foldl_cons, List.length_cons, Nat.add_right_comm, Nat.add_assoc]

/-- A list of digits has the value of its digits, unless there are too many for the base. -/
theorem numeral?_of_values {ds : List Nat} (some_ : cs ≠ [])
    (values : cs.map (digitValue? base) = ds.map some) :
    numeral? base cs = if base = 10 ∧ maxDecimalDigits < cs.length then none
      else some (ds.foldl (fun n d => n * base + d) 0) := by
  cases cs with
  | nil => exact absurd rfl some_
  | cons c cs =>
    cases ds with
    | nil => cases values
    | cons d ds =>
      obtain ⟨here, values⟩ := List.cons.inj values
      simp [numeral?, here, digitsAfter_of_values values, Nat.add_comm 1]

theorem toNat_of_isDigit (digit : c.isDigit = true) : 48 ≤ c.toNat ∧ c.toNat ≤ 57 := by
  simpa [Char.isDigit, UInt32.le_iff_toNat_le] using digit

theorem digitValue?_of_isDigit (digit : c.isDigit = true) : digitValue? base c =
    if c.toNat - '0'.toNat < base then some (c.toNat - '0'.toNat) else none := by
  simp [digitValue?, digit, Option.filter]

theorem lt_ten_of_isDigit (digit : c.isDigit = true) : c.toNat - '0'.toNat < 10 := by
  have range := toNat_of_isDigit digit
  simp only [Char.reduceToNat]
  omega

/-! ### Letters and digits -/

theorem isAlphanum_eq (c : Char) : c.isAlphanum = (c.isUpper || c.isLower || c.isDigit) := rfl

theorem toNat_of_isUpper (upper : c.isUpper = true) : 65 ≤ c.toNat ∧ c.toNat ≤ 90 := by
  change decide (65 ≤ c.val ∧ c.val ≤ 90) = true at upper
  simpa [UInt32.le_iff_toNat_le] using upper

theorem toNat_of_isLower (lower : c.isLower = true) : 97 ≤ c.toNat ∧ c.toNat ≤ 122 := by
  change (decide (97 ≤ c.val) && decide (c.val ≤ 122)) = true at lower
  simpa [UInt32.le_iff_toNat_le] using lower

theorem toNat_of_isAlphanum (alphanumeric : c.isAlphanum = true) :
    48 ≤ c.toNat ∧ c.toNat ≤ 122 := by
  rw [isAlphanum_eq, Bool.or_eq_true, Bool.or_eq_true] at alphanumeric
  rcases alphanumeric with (upper | lower) | digit
  · have := toNat_of_isUpper upper
    omega
  · have := toNat_of_isLower lower
    omega
  · have := toNat_of_isDigit digit
    omega

theorem isAlphanum_of_isDigit (digit : c.isDigit = true) : c.isAlphanum = true := by
  rw [isAlphanum_eq, digit, Bool.or_true]

theorem isBlank_of_isAlphanum (alphanumeric : c.isAlphanum = true) : isBlank c = false := by
  have := toNat_of_isAlphanum alphanumeric
  simp [isBlank]
  omega

theorem isPlainBlank_of_isAlphanum (alphanumeric : c.isAlphanum = true) :
    isPlainBlank c = false := by
  have range := toNat_of_isAlphanum alphanumeric
  have other : c ≠ ' ' := by
    rintro rfl
    exact absurd range (by decide)
  simp [isPlainBlank, other]
  omega

theorem plain_of_isAlphanum (alphanumeric : c.isAlphanum = true) : plain c = c := by
  have small : c.toNat < 127 := by
    have := toNat_of_isAlphanum alphanumeric
    omega
  exact if_pos small

/-- What does not begin with a sign has none. -/
theorem splitSign_of_head (unsigned : ∀ c ∈ cs.head?, c ≠ '+' ∧ c ≠ '-') :
    splitSign cs = (false, cs) := by
  unfold splitSign
  split
  · exact absurd rfl (unsigned '+' rfl).1
  · exact absurd rfl (unsigned '-' rfl).2
  · rfl

section Bare

variable (bare : ∀ c ∈ cs, c.isAlphanum = true)

include bare

theorem dropWhile_of_bare {p : Char → Bool} (others : ∀ c, c.isAlphanum = true → p c = false) :
    cs.dropWhile p = cs := by
  cases cs with
  | nil => rfl
  | cons c cs => rw [List.dropWhile_cons, others c (bare c List.mem_cons_self)]; rfl

theorem isTrimmed_of_bare : IsTrimmed cs :=
  isTrimmed_of_forall fun c inside => isBlank_of_isAlphanum (bare c inside)

theorem trimPlain_of_bare : trimPlain cs = cs := by
  have dark (c : Char) (alphanumeric : c.isAlphanum = true) : isPlainBlank c = false :=
    isPlainBlank_of_isAlphanum alphanumeric
  have backwards : ∀ c ∈ cs.reverse, c.isAlphanum = true := by
    simpa using bare
  rw [trimPlain, dropWhile_of_bare bare dark, dropWhile_of_bare backwards dark,
    List.reverse_reverse]

theorem map_plain_of_bare : cs.map plain = cs :=
  (List.map_congr_left fun c inside => plain_of_isAlphanum (bare c inside)).trans (List.map_id cs)

theorem splitSign_of_bare : splitSign cs = (false, cs) := by
  refine splitSign_of_head fun c first => ⟨?_, ?_⟩
  · rintro rfl
    exact absurd (bare '+' (List.mem_of_head? first)) (by decide)
  · rintro rfl
    exact absurd (bare '-' (List.mem_of_head? first)) (by decide)

theorem signedNumeral?_of_bare : signedNumeral? base cs =
    (numeral? base (dropBaseMark base cs)).map Int.ofNat := by
  rw [signedNumeral?, map_plain_of_bare bare, trimPlain_of_bare bare, splitSign_of_bare bare]
  dsimp only
  cases numeral? base (dropBaseMark base cs) <;> rfl

end Bare

/-! ### Decimal digits -/

/-- Digits that are below the base make up the number that they are in it. -/
theorem numeral?_of_digits (digits : ∀ c ∈ cs, c.isDigit = true)
    (below : ∀ c ∈ cs, c.toNat - '0'.toNat < base) (some_ : cs ≠ []) :
    numeral? base cs = if base = 10 ∧ maxDecimalDigits < cs.length then none
      else some (Nat.ofDigitChars base cs 0) := by
  have values : cs.map (digitValue? base) = (cs.map (·.toNat - '0'.toNat)).map some := by
    rw [List.map_map]
    exact List.map_congr_left fun c inside =>
      (digitValue?_of_isDigit (digits c inside)).trans (if_pos (below c inside))
  rw [numeral?_of_values some_ values, List.foldl_map]
  simp only [Nat.ofDigitChars, Nat.mul_comm]

/-- Where there is no mark, none is dropped. -/
theorem dropBaseMark_of_unmarked
    (unmarked : ∀ first c rest, cs = first :: c :: rest → baseLetter? base ≠ some c.toLower) :
    dropBaseMark base cs = cs := by
  fun_cases dropBaseMark base cs with
  | case1 c marked => exact absurd (beq_iff_eq.mp marked) (unmarked _ _ _ rfl)
  | case2 c marked => exact absurd (beq_iff_eq.mp marked) (unmarked _ _ _ rfl)
  | case3 => rfl
  | case4 => rfl

theorem dropBaseMark_ten : dropBaseMark 10 cs = cs :=
  dropBaseMark_of_unmarked fun _ _ _ _ marked => by cases marked

/-! ### Numbers as they are written -/

theorem isDigit_of_mem_toDigits : ∀ c ∈ Nat.toDigits 10 n, c.isDigit = true :=
  fun _ => Nat.isDigit_of_mem_toDigits (by decide) (by decide)

theorem isAlphanum_of_mem_toDigits : ∀ c ∈ Nat.toDigits 10 n, c.isAlphanum = true :=
  fun c inside => isAlphanum_of_isDigit (isDigit_of_mem_toDigits c inside)

/-- The decimal digits of a number make up the number. There may be at most 4300. -/
theorem numeral?_toDigits : numeral? 10 (Nat.toDigits 10 n) =
    if n < Nat.pow 10 maxDecimalDigits then some n else none := by
  have length (k : Nat) (positive : 0 < k) : (Nat.toDigits 10 n).length ≤ k ↔ n < Nat.pow 10 k :=
    Nat.length_toDigits_le_iff (by decide) positive
  have below : ∀ c ∈ Nat.toDigits 10 n, c.toNat - '0'.toNat < 10 :=
    fun c inside => lt_ten_of_isDigit (isDigit_of_mem_toDigits c inside)
  rw [numeral?_of_digits isDigit_of_mem_toDigits below Nat.toDigits_ne_nil,
    Nat.ofDigitChars_ten_toDigits]
  by_cases fits : n < Nat.pow 10 maxDecimalDigits
  · have := (length maxDecimalDigits (by decide)).mpr fits
    rw [if_pos fits, if_neg fun tooMany => Nat.not_lt.mpr this tooMany.2]
  · have := Nat.lt_of_not_le (mt (length maxDecimalDigits (by decide)).mp fits)
    rw [if_neg fits, if_pos ⟨rfl, this⟩]

theorem fits_of_lt_ten (small : n < 10) : n < Nat.pow 10 maxDecimalDigits := by
  have grows (k : Nat) (positive : 0 < k) : 10 ≤ Nat.pow 10 k := Nat.le_pow positive
  exact Nat.lt_of_lt_of_le small (grows maxDecimalDigits (by decide))

theorem head_toDigits (positive : 0 < n) : (Nat.toDigits 10 n).head? ≠ some '0' := by
  induction n using Nat.strongRecOn with
  | ind n ih =>
    by_cases small : n < 10
    · have digits : ∀ d < 10, 0 < d → Nat.digitChar d ≠ '0' := by decide
      rw [Nat.toDigits_of_lt_base small]
      simpa using digits n small positive
    · obtain ⟨c, cs, leading⟩ := List.exists_cons_of_ne_nil (@Nat.toDigits_ne_nil (n / 10) 10)
      have further := ih (n / 10) (by omega) (by omega)
      rw [leading] at further
      rw [Nat.toDigits_of_base_le (by decide) (Nat.le_of_not_lt small), leading]
      exact further

/-- Without a leading zero there is no mark of another base. -/
theorem unsignedLiteral?_of_head (leading : cs.head? ≠ some '0') :
    unsignedLiteral? cs = signedNumeral? 10 cs := by
  fun_cases unsignedLiteral? cs with
  | case1 => exact absurd rfl leading
  | case2 => exact absurd rfl leading
  | case3 => exact absurd rfl leading
  | case4 => rfl

theorem unsignedLiteral?_toDigits : unsignedLiteral? (Nat.toDigits 10 n) =
    if n < Nat.pow 10 maxDecimalDigits then some (n : Int) else none := by
  have unmarked : unsignedLiteral? (Nat.toDigits 10 n) = signedNumeral? 10 (Nat.toDigits 10 n) := by
    rcases Nat.eq_zero_or_pos n with rfl | positive
    · rfl
    · exact unsignedLiteral?_of_head (head_toDigits positive)
  rw [unmarked, signedNumeral?_of_bare isAlphanum_of_mem_toDigits, dropBaseMark_ten,
    numeral?_toDigits]
  split <;> rfl

/-- The decimal digits of a number are read as the number. There may be at most 4300. -/
theorem readInt_toString : readInt (toString n) =
    if n < Nat.pow 10 maxDecimalDigits then .ok (n : Int)
    else .error (.malformed (toString n) .int) := by
  have some_ : Nat.toDigits 10 n ≠ [] := Nat.toDigits_ne_nil
  simp only [readInt, Nat.toString_eq_ofList_toDigits, String.toList_ofList,
    trim_of_isTrimmed (isTrimmed_of_bare isAlphanum_of_mem_toDigits), List.isEmpty_iff, some_,
    if_false, splitSign_of_bare isAlphanum_of_mem_toDigits, unsignedLiteral?_toDigits]
  by_cases fits : n < Nat.pow 10 maxDecimalDigits
  · simp only [if_pos fits, withSign, Bool.false_eq_true, if_false]
  · simp only [if_neg fits]

end ProtoNames.Number
