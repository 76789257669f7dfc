import Mathlib.Tactic.IntervalCases
import ProtoNames.Proofs.Numerals

/-!
The notations of an integer.

`Spells` says how an integer may be written: in decimal, hexadecimal or octal digits, with a sign
if one likes. No notation is taken for another (`unsignedLiteral?_of_denotes`), so each is read as
the integer that it spells (`readInt_spelled`).

Digits are taken in two steps: first their values (`exists_values_of_isWritten`), then what is
made of values in a base (`numeral?_of_values`).
-/

namespace ProtoNames.Number

open Text

variable {base n value : Nat} {c : Char} {cs before after : List Char}

/-! ### Notations -/

/-- Digits of a number in a base: zeros in front, and letters in either case. -/
def IsWritten (base n : Nat) (cs : List Char) : Prop :=
  ∃ zeros digits, digits.map Char.toLower = Nat.toDigits base n ∧
    cs = List.replicate zeros '0' ++ digits

/-- The notations of a number without a sign. The decimal one has no zeros in front. -/
inductive Denotes (n : Nat) : List Char → Prop
  | decimal : n < Nat.pow 10 maxDecimalDigits → Denotes n (Nat.toDigits 10 n)
  | hexadecimal {mark : Char} {cs : List Char} : mark = 'x' ∨ mark = 'X' → IsWritten 16 n cs →
      Denotes n ('0' :: mark :: cs)
  | octal {cs : List Char} : IsWritten 8 n cs → Denotes n ('0' :: cs)

/-- The notations of an integer. -/
inductive Spells : Int → List Char → Prop
  | unsigned {n : Nat} {cs : List Char} : Denotes n cs → Spells n cs
  | plus {n : Nat} {cs : List Char} : Denotes n cs → Spells n ('+' :: cs)
  | minus {n : Nat} {cs : List Char} : Denotes n cs → Spells (-n) ('-' :: cs)

/-! ### Values of digits -/

theorem digitValue?_toLower (base : Nat) (c : Char) :
    digitValue? base c.toLower = digitValue? base c := by
  by_cases upper : 65 ≤ c.toNat ∧ c.toNat ≤ 90
  · obtain ⟨least, most⟩ := upper
    have capitals : ∀ code, 65 ≤ code → code ≤ 90 →
        digitValue? base (Char.ofNat code).toLower = digitValue? base (Char.ofNat code) := by
      intro code least most
      interval_cases code <;> rfl
    simpa using capitals c.toNat least most
  · have same : c.toLower = c := dif_neg upper
    rw [same]

theorem digitValue?_digitChar {d : Nat} (small : d < base) (most : base ≤ 16) :
    digitValue? base d.digitChar = some d := by
  have all : ∀ d < 16, digitValue? base d.digitChar = (some d).filter (· < base) := by
    intro d small
    interval_cases d <;> rfl
  rw [all d (by omega)]
  simp [small]

theorem isAlphanum_of_digitValue? (digit : digitValue? base c = some value) :
    c.isAlphanum = true := by
  by_contra other
  simp only [isAlphanum_eq, Bool.or_eq_true, not_or] at other
  obtain ⟨⟨upper, lower⟩, decimal⟩ := other
  simp [digitValue?, upper, lower, decimal] at digit

/-- The mark of a base is no digit in it. -/
theorem baseLetter?_ne_of_digit (digit : digitValue? base c = some value) :
    baseLetter? base ≠ some c.toLower := by
  rw [← digitValue?_toLower] at digit
  intro marked
  unfold baseLetter? at marked
  split at marked
  · cases Option.some.inj marked.symm ▸ digit
  · cases Option.some.inj marked.symm ▸ digit
  · cases marked

/-- The digits of a number have values that make up the number. -/
theorem exists_values_of_toDigits (least : 1 < base) (most : base ≤ 16) (n : Nat) :
    ∃ ds : List Nat, (Nat.toDigits base n).map (digitValue? base) = ds.map some ∧
      ds.foldl (fun n d => n * base + d) 0 = n := by
  induction n using Nat.strongRecOn with
  | ind n ih =>
    by_cases small : n < base
    · refine ⟨[n], ?_, by simp⟩
      rw [Nat.toDigits_of_lt_base small]
      simp [digitValue?_digitChar small most]
    · have large := Nat.le_of_not_lt small
      obtain ⟨ds, values, whole⟩ := ih (n / base) (Nat.div_lt_self (by omega) least)
      have last : digitValue? base (n % base).digitChar = some (n % base) :=
        digitValue?_digitChar (Nat.mod_lt n (by omega)) most
      refine ⟨ds ++ [n % base], ?_, ?_⟩
      · rw [Nat.toDigits_of_base_le least large, List.map_append, values, List.map_singleton, last]
        simp
      · rw [List.foldl_append, whole]
        exact Nat.div_add_mod' n base

theorem foldl_zeros (zeros : Nat) (ds : List Nat) :
    (List.replicate zeros 0 ++ ds).foldl (fun n d => n * base + d) 0 =
      ds.foldl (fun n d => n * base + d) 0 := by
  induction zeros with
  | zero => rfl
  | succ zeros ih => simpa [List.replicate_succ] using ih

/-- So they have with zeros in front, and with letters in any case. -/
theorem exists_values_of_isWritten (least : 1 < base) (most : base ≤ 16)
    (written : IsWritten base n cs) :
    ∃ ds : List Nat, cs.map (digitValue? base) = ds.map some ∧
      ds.foldl (fun n d => n * base + d) 0 = n := by
  obtain ⟨zeros, digits, lower, rfl⟩ := written
  obtain ⟨ds, values, whole⟩ := exists_values_of_toDigits least most n
  refine ⟨List.replicate zeros 0 ++ ds, ?_, (foldl_zeros zeros ds).trans whole⟩
  have zero : digitValue? base '0' = some 0 :=
    digitValue?_digitChar (d := 0) (by omega) most
  have anyCase : digits.map (digitValue? base) = ds.map some := by
    rw [← values, ← lower, List.map_map]
    exact List.map_congr_left fun c _ => (digitValue?_toLower base c).symm
  simp [zero, anyCase]

/-! ### Reading digits -/

section Values

variable {ds : List Nat} (values : cs.map (digitValue? base) = ds.map some)

include values

theorem exists_value_of_mem (inside : c ∈ cs) : ∃ d, digitValue? base c = some d := by
  have member : digitValue? base c ∈ ds.map some := values ▸ List.mem_map_of_mem inside
  obtain ⟨d, -, same⟩ := List.mem_map.mp member
  exact ⟨d, same.symm⟩

theorem isAlphanum_of_values : ∀ c ∈ cs, c.isAlphanum = true := by
  intro c inside
  obtain ⟨d, value⟩ := exists_value_of_mem values inside
  exact isAlphanum_of_digitValue? value

theorem dropBaseMark_of_values : dropBaseMark base cs = cs := by
  refine dropBaseMark_of_unmarked fun first c rest split => ?_
  obtain ⟨d, digit⟩ := exists_value_of_mem values (c := c) (by simp [split])
  exact baseLetter?_ne_of_digit digit

/-- In a base other than ten any number of digits is read. -/
theorem signedNumeral?_of_values (other : base ≠ 10) (some_ : cs ≠ []) :
    signedNumeral? base cs = some (ds.foldl (fun n d => n * base + d) 0 : Nat) := by
  rw [signedNumeral?_of_bare (isAlphanum_of_values values), dropBaseMark_of_values values,
    numeral?_of_values some_ values, if_neg fun ten => other ten.1]
  rfl

end Values

theorem ne_nil_of_isWritten (written : IsWritten base n cs) : cs ≠ [] := by
  obtain ⟨zeros, digits, lower, rfl⟩ := written
  intro none_
  obtain ⟨-, rfl⟩ := List.append_eq_nil_iff.mp none_
  exact Nat.toDigits_ne_nil lower.symm

theorem isAlphanum_of_isWritten (least : 1 < base) (most : base ≤ 16)
    (written : IsWritten base n cs) : ∀ c ∈ cs, c.isAlphanum = true := by
  obtain ⟨ds, values, -⟩ := exists_values_of_isWritten least most written
  exact isAlphanum_of_values values

theorem signedNumeral?_of_isWritten (least : 1 < base) (most : base ≤ 16) (other : base ≠ 10)
    (written : IsWritten base n cs) : signedNumeral? base cs = some (n : Int) := by
  obtain ⟨ds, values, rfl⟩ := exists_values_of_isWritten least most written
  exact signedNumeral?_of_values values other (ne_nil_of_isWritten written)

/-! ### Reading notations -/

/-- Octal digits do not begin like hexadecimal ones that have their mark in front. -/
theorem unsignedLiteral?_octal (written : IsWritten 8 n cs) :
    unsignedLiteral? ('0' :: cs) = some (n : Int) := by
  obtain ⟨c, rest, rfl⟩ := List.exists_cons_of_ne_nil (ne_nil_of_isWritten written)
  obtain ⟨ds, values, -⟩ := exists_values_of_isWritten (by decide) (by decide) written
  obtain ⟨d, digit⟩ := exists_value_of_mem values List.mem_cons_self
  rw [unsignedLiteral?]
  · exact signedNumeral?_of_isWritten (by decide) (by decide) (by decide) written
  · rintro rfl
    cases digit
  · rintro rfl
    cases digit

/-- Each notation is read as what it is. -/
theorem unsignedLiteral?_of_denotes (denotes : Denotes n cs) :
    unsignedLiteral? cs = some (n : Int) := by
  cases denotes with
  | decimal fits => rw [unsignedLiteral?_toDigits, if_pos fits]
  | hexadecimal marked written =>
    have read := signedNumeral?_of_isWritten (by decide) (by decide) (by decide) written
    rcases marked with rfl | rfl
    · exact read
    · exact read
  | octal written => exact unsignedLiteral?_octal written

theorem isAlphanum_of_denotes (denotes : Denotes n cs) : ∀ c ∈ cs, c.isAlphanum = true := by
  cases denotes with
  | decimal fits => exact isAlphanum_of_mem_toDigits
  | hexadecimal marked written =>
    have digits := isAlphanum_of_isWritten (by decide) (by decide) written
    rcases marked with rfl | rfl
    · exact List.forall_mem_cons.mpr ⟨by decide, List.forall_mem_cons.mpr ⟨by decide, digits⟩⟩
    · exact List.forall_mem_cons.mpr ⟨by decide, List.forall_mem_cons.mpr ⟨by decide, digits⟩⟩
  | octal written =>
    have digits := isAlphanum_of_isWritten (by decide) (by decide) written
    exact List.forall_mem_cons.mpr ⟨by decide, digits⟩

theorem ne_nil_of_denotes (denotes : Denotes n cs) : cs ≠ [] := by
  cases denotes with
  | decimal fits => exact Nat.toDigits_ne_nil
  | hexadecimal marked written => exact List.cons_ne_nil _ _
  | octal written => exact List.cons_ne_nil _ _

/-- What is left of a notation without its sign denotes the amount. -/
theorem exists_denotes_of_spells {z : Int} (spells : Spells z cs) : ∃ negative n digits,
    splitSign cs = (negative, digits) ∧ Denotes n digits ∧ z = withSign negative n := by
  cases spells with
  | @unsigned n _ denotes =>
    exact ⟨false, n, cs, splitSign_of_bare (isAlphanum_of_denotes denotes), denotes, rfl⟩
  | plus denotes => exact ⟨false, _, _, rfl, denotes, rfl⟩
  | minus denotes => exact ⟨true, _, _, rfl, denotes, rfl⟩

theorem isBlank_of_mem_spells {z : Int} (spells : Spells z cs) :
    ∀ c ∈ cs, isBlank c = false := by
  have dark {n : Nat} {digits : List Char} (denotes : Denotes n digits) :
      ∀ c ∈ digits, isBlank c = false :=
    fun c inside => isBlank_of_isAlphanum (isAlphanum_of_denotes denotes c inside)
  cases spells with
  | unsigned denotes => exact dark denotes
  | plus denotes => exact List.forall_mem_cons.mpr ⟨by decide, dark denotes⟩
  | minus denotes => exact List.forall_mem_cons.mpr ⟨by decide, dark denotes⟩

theorem ne_nil_of_spells {z : Int} (spells : Spells z cs) : cs ≠ [] := by
  cases spells with
  | unsigned denotes => exact ne_nil_of_denotes denotes
  | plus => exact List.cons_ne_nil _ _
  | minus => exact List.cons_ne_nil _ _

/-- Every notation of an integer is read as the integer, whatever blanks are around it, also where
a floating-point number would do. -/
theorem readInt_spelled {z : Int} (spells : Spells z cs) (blank : ∀ c ∈ before, isBlank c = true)
    (blank' : ∀ c ∈ after, isBlank c = true) :
    readInt (String.ofList (before ++ cs ++ after)) = .ok z ∧
    readNumber (String.ofList (before ++ cs ++ after)) = .ok (.int z) := by
  have trimmed := isTrimmed_of_forall (isBlank_of_mem_spells spells)
  have some_ := ne_nil_of_spells spells
  obtain ⟨negative, n, digits, sign, denotes, rfl⟩ := exists_denotes_of_spells spells
  have read : readInt (String.ofList (before ++ cs ++ after)) = .ok (withSign negative n) := by
    simp only [readInt, String.toList_ofList, trim_append some_ trimmed blank blank',
      List.isEmpty_iff, some_, if_false, sign, unsignedLiteral?_of_denotes denotes]
  refine ⟨read, ?_⟩
  rw [readNumber, read]

/-- Hexadecimal digits in both cases, after zeros, with a sign and with blanks around them. -/
theorem readInt_spelled_mixed :
    Spells (-255) ['-', '0', 'X', '0', '0', 'f', 'F'] ∧
    readInt "\t -0X00fF\n" = .ok (-255) ∧ readNumber "\t -0X00fF\n" = .ok (.int (-255)) := by
  have written : IsWritten 16 255 ['0', '0', 'f', 'F'] := ⟨2, ['f', 'F'], by decide, rfl⟩
  have spells : Spells (-255) ['-', '0', 'X', '0', '0', 'f', 'F'] :=
    .minus (n := 255) (.hexadecimal (.inr rfl) written)
  have text : String.ofList (['\t', ' '] ++ ['-', '0', 'X', '0', '0', 'f', 'F'] ++ ['\n']) =
      "\t -0X00fF\n" := by decide
  rw [← text]
  exact ⟨spells, readInt_spelled spells (List.all_eq_true.mp (by decide))
    (List.all_eq_true.mp (by decide))⟩

end ProtoNames.Number
