import Mathlib.Data.List.Basic
import ProtoNames.Compiler.Printout
import ProtoNames.Proofs.Numerals

/-!
Printed diagnostics are read back.

A line can be taken apart in several ways: the digits behind the file may be a place, or the
message may begin with them. What is printed has a blank behind the place, and none in it, so the
most that is read as a place is just that (`placements_printed`), whatever the message looks like.

`readMarker_text`: so each diagnostic is read as its marker. Only a number with more than 4300
digits is refused (`readMarker_of_not_isReadable`).
-/

namespace ProtoNames.Compiler

open Text Number

variable {n : Nat} {rest before after : List Char} {p : Printout}

/-! ### Places -/

theorem isDecimal_of_isDigit {c : Char} (digit : c.isDigit = true) : isDecimal c = true := by
  have small : c.toNat < 128 := by
    have := toNat_of_isDigit digit
    omega
  simp [isDecimal, decimalValue?, small, digit]

/-- A printed number is read up to its colon. -/
theorem numberAndColon?_printedNumber : numberAndColon? (Place.printedNumber n ++ rest) =
    some (Nat.toDigits 10 n, rest) := by
  have digits : ∀ c ∈ Nat.toDigits 10 n, isDecimal c = true :=
    fun c inside => isDecimal_of_isDigit (isDigit_of_mem_toDigits c inside)
  have colon : isDecimal ':' = false := by decide
  obtain ⟨c, cs, some_⟩ := List.exists_cons_of_ne_nil (@Nat.toDigits_ne_nil n 10)
  rw [numberAndColon?, Place.printedNumber, List.append_assoc,
    List.takeWhile_append_of_pos digits, List.dropWhile_append_of_pos digits]
  simp [colon, some_]

theorem numberAndColon?_blank : numberAndColon? (' ' :: rest) = none := by
  have blank : isDecimal ' ' = false := by decide
  simp [numberAndColon?, blank]

/-- How a place is read in front of a text. -/
def Place.placement (rest : List Char) : Place → Placement
  | file => ⟨none, none, rest⟩
  | line n => ⟨some (Nat.toDigits 10 n), none, rest⟩
  | column n m => ⟨some (Nat.toDigits 10 n), some (Nat.toDigits 10 m), rest⟩

/-- Of the ways to read a printed place the first one is the right one. -/
theorem placements_printed (place : Place) (rest : List Char) : ∃ others,
    placements (place.printed ++ ' ' :: rest) = place.placement (' ' :: rest) :: others := by
  cases place with
  | file => exact ⟨[], by simp [placements, Place.printed, Place.placement, numberAndColon?_blank]⟩
  | line n =>
    exact ⟨[⟨none, none, Place.printedNumber n ++ ' ' :: rest⟩], by
      simp [placements, Place.printed, Place.placement, numberAndColon?_printedNumber,
        numberAndColon?_blank]⟩
  | column n m =>
    exact ⟨[⟨some (Nat.toDigits 10 n), none, Place.printedNumber m ++ ' ' :: rest⟩,
      ⟨none, none, Place.printedNumber n ++ (Place.printedNumber m ++ ' ' :: rest)⟩], by
      simp [placements, Place.printed, Place.placement, numberAndColon?_printedNumber]⟩

/-- The digits of a number are read as the number, unless there are too many. -/
theorem numberFrom_toDigits : numberFrom (Nat.toDigits 10 n) =
    if n < Nat.pow 10 maxDecimalDigits then .ok (n : Int)
    else .error ⟨(Nat.toDigits 10 n).length⟩ := by
  rw [numberFrom, map_plain_of_bare isAlphanum_of_mem_toDigits, numeral?_toDigits]
  by_cases fits : n < Nat.pow 10 maxDecimalDigits
  · simp only [if_pos fits]
  · simp only [if_neg fits]

/-- Numbers with at most 4300 digits. -/
def Place.IsReadable : Place → Prop
  | file => True
  | line n => n < Nat.pow 10 maxDecimalDigits
  | column n m => n < Nat.pow 10 maxDecimalDigits ∧ m < Nat.pow 10 maxDecimalDigits

/-- The numbers of a place are read back. -/
theorem Place.numbers_of_isReadable (place : Place) (readable : place.IsReadable)
    (rest : List Char) :
    ((place.placement rest).line.map numberFrom).getD (.ok 0) = .ok place.lineNumber ∧
    (place.placement rest).column.mapM numberFrom = .ok place.columnNumber? := by
  cases place with
  | file => exact ⟨rfl, rfl⟩
  | line n =>
    have line : numberFrom (Nat.toDigits 10 n) = .ok n := numberFrom_toDigits.trans (if_pos readable)
    exact ⟨line, rfl⟩
  | column n m =>
    have line : numberFrom (Nat.toDigits 10 n) = .ok n :=
      numberFrom_toDigits.trans (if_pos readable.1)
    have column : numberFrom (Nat.toDigits 10 m) = .ok m :=
      numberFrom_toDigits.trans (if_pos readable.2)
    refine ⟨line, ?_⟩
    simp [Place.placement, column, Place.columnNumber?, Functor.map, Except.map]

/-- If a number is too long, one of the two is not read. -/
theorem Place.refused_of_not_isReadable (place : Place) (tooLong : ¬ place.IsReadable)
    (rest : List Char) :
    (∃ e, ((place.placement rest).line.map numberFrom).getD (.ok 0) = .error e) ∨
    ∃ e, (place.placement rest).column.mapM numberFrom = .error e := by
  cases place with
  | file => exact absurd trivial tooLong
  | line n => exact .inl ⟨_, numberFrom_toDigits.trans (if_neg tooLong)⟩
  | column n m =>
    rcases not_and_or.mp tooLong with long | long
    · exact .inl ⟨_, numberFrom_toDigits.trans (if_neg long)⟩
    · refine .inr ⟨⟨(Nat.toDigits 10 m).length⟩, ?_⟩
      simp [Place.placement, numberFrom_toDigits.trans (if_neg long), Functor.map, Except.map]

/-! ### Messages -/

namespace Printout

theorem toList_ne_nil {text : String} (some_ : text ≠ "") : text.toList ≠ [] := by
  simpa using some_

/-- With its mark a message still is on one line, and has no blanks around it. -/
theorem markedMessage_ne_nil (p : Printout) : p.markedMessage ≠ [] := by
  rw [markedMessage]
  split
  · exact List.cons_ne_nil _ _
  · exact toList_ne_nil p.message_nonempty

theorem markedMessage_uncut (p : Printout) : '\n' ∉ p.markedMessage := by
  rw [markedMessage]
  split
  · simp [warningMark, p.message_uncut]
  · exact p.message_uncut

theorem markedMessage_trimmed (p : Printout) : IsTrimmed p.markedMessage := by
  rw [markedMessage]
  split
  · obtain ⟨c, cs, some_⟩ := List.exists_cons_of_ne_nil (toList_ne_nil p.message_nonempty)
    have back := p.message_back
    rw [some_] at back ⊢
    refine ⟨?_, ?_⟩
    · simp [warningMark]
      decide
    · simpa [warningMark, List.getLast?_append] using back
  · exact ⟨p.message_front, p.message_back⟩

theorem trim_blank_message (p : Printout) : trim (' ' :: p.message.toList) = p.message.toList := by
  have blank : ∀ c ∈ [' '], isBlank c = true := List.forall_mem_singleton.mpr rfl
  simpa using trim_append (toList_ne_nil p.message_nonempty) ⟨p.message_front, p.message_back⟩
    blank (List.forall_mem_nil _)

/-- The mark of a message tells its severity. -/
theorem splitSeverity_markedMessage (p : Printout) : splitSeverity p.markedMessage =
    (p.marker.severity, p.message.toList) := by
  by_cases warning : p.isWarning = true
  · have marked : p.markedMessage = warningMark ++ ' ' :: p.message.toList := if_pos warning
    have severity : p.marker.severity = .warning := if_pos warning
    have mark : (warningMark.map Char.toLower == warningMark) = true := by decide
    rw [marked, severity, splitSeverity, List.take_left, if_pos mark, List.drop_left,
      trim_blank_message]
  · have bare : p.markedMessage = p.message.toList := if_neg warning
    have severity : p.marker.severity = .error := if_neg warning
    have unmarked := p.unmarked (Bool.eq_false_iff.mpr warning)
    rw [bare, severity, splitSeverity, if_neg (mt beq_iff_eq.mp unmarked)]

/-! ### Lines -/

theorem text_ne_nil (p : Printout) : p.text ≠ [] := by
  rw [text]
  exact List.append_ne_nil_of_right_ne_nil _ (List.cons_ne_nil _ _)

theorem text_trimmed (p : Printout) : IsTrimmed p.text := by
  have split : p.text =
      (p.file.toList ++ ':' :: (p.place.printed ++ [' '])) ++ p.markedMessage := by
    simp [text]
  refine ⟨?_, ?_⟩
  · obtain ⟨c, cs, some_⟩ := List.exists_cons_of_ne_nil (toList_ne_nil p.file_nonempty)
    have front := p.file_front
    rw [some_] at front
    rw [text, some_]
    exact front
  · rw [split, List.getLast?_append_of_ne_nil _ p.markedMessage_ne_nil]
    exact p.markedMessage_trimmed.back

theorem messageFrom?_markedMessage (p : Printout) :
    messageFrom? (' ' :: p.markedMessage) = some p.markedMessage := by
  have dropped : (' ' :: p.markedMessage).dropWhile isBlank = p.markedMessage := by
    rw [List.dropWhile_cons_of_pos (by decide), dropWhile_of_head p.markedMessage_trimmed.front]
  simp [messageFrom?, dropped, p.markedMessage_ne_nil, p.markedMessage_uncut]

/-- A printed line is taken apart into what was printed. -/
theorem diagnostic?_text (p : Printout) (blank : ∀ c ∈ before, isBlank c = true)
    (blank' : ∀ c ∈ after, isBlank c = true) :
    diagnostic? (before ++ p.text ++ after) =
      some ⟨p.file.toList, p.place.placement (' ' :: p.markedMessage), p.markedMessage⟩ := by
  obtain ⟨others, first⟩ := placements_printed p.place p.markedMessage
  obtain ⟨c, cs, some_⟩ := List.exists_cons_of_ne_nil (toList_ne_nil p.file_nonempty)
  have uncut : ∀ c ∈ p.file.toList, (c != ':') = true := by
    intro c inside
    exact bne_iff_ne.mpr (ne_of_mem_of_not_mem inside p.file_uncut)
  have rest : (p.place.placement (' ' :: p.markedMessage)).rest = ' ' :: p.markedMessage := by
    cases p.place <;> rfl
  have file : p.text.takeWhile (· != ':') = p.file.toList := by
    simp [text, List.takeWhile_append_of_pos uncut]
  have onwards : p.text.dropWhile (· != ':') =
      ':' :: (p.place.printed ++ ' ' :: p.markedMessage) := by
    simp [text, List.dropWhile_append_of_pos uncut]
  rw [diagnostic?, trim_append p.text_ne_nil p.text_trimmed blank blank', file, onwards, some_]
  simp only [first, List.findSome?_cons, rest, messageFrom?_markedMessage, Option.map_some,
    trim_of_isTrimmed p.markedMessage_trimmed]

/-- Reading a printed line is making a marker of what was printed. -/
theorem readMarker_eq (p : Printout) (blank : ∀ c ∈ before, isBlank c = true)
    (blank' : ∀ c ∈ after, isBlank c = true) :
    readMarker (String.ofList (before ++ p.text ++ after)) =
      (Diagnostic.toMarker ⟨p.file.toList, p.place.placement (' ' :: p.markedMessage),
        p.markedMessage⟩).map some := by
  rw [readMarker, String.toList_ofList, diagnostic?_text p blank blank']
  rfl

/-- Each diagnostic is read as its marker from the line that is printed, with blanks around it,
if its numbers have at most 4300 digits. -/
theorem readMarker_text (p : Printout) (readable : p.place.IsReadable)
    (blank : ∀ c ∈ before, isBlank c = true) (blank' : ∀ c ∈ after, isBlank c = true) :
    readMarker (String.ofList (before ++ p.text ++ after)) = .ok (some p.marker) := by
  obtain ⟨line, column⟩ := p.place.numbers_of_isReadable readable (' ' :: p.markedMessage)
  rw [readMarker_eq p blank blank']
  simp [Diagnostic.toMarker, splitSeverity_markedMessage, line, column, bind, Except.bind, pure,
    Except.pure, Except.map, marker]

theorem forall_mem_of_all {c? : Option Char} (dark : c?.all (!isBlank ·) = true) :
    ∀ c ∈ c?, isBlank c = false := by
  rintro c rfl
  simpa using dark

/-- A diagnostic whose message looks like another one. -/
def nested : Printout where
  file := "my file.proto"
  place := .column 3 5
  isWarning := true
  message := "12:7: Warning: x"
  file_nonempty := by decide
  file_uncut := by decide
  file_front := forall_mem_of_all (by decide)
  message_nonempty := by decide
  message_uncut := by decide
  message_front := forall_mem_of_all (by decide)
  message_back := forall_mem_of_all (by decide)
  unmarked := by decide

/-- It is read as what it is. -/
theorem readMarker_text_nested : nested.place.IsReadable ∧
    readMarker "\t my file.proto:3:5: warning: 12:7: Warning: x \n" =
      .ok (some ⟨"my file.proto", 3, some 5, .warning, "12:7: Warning: x"⟩) := by
  have readable : nested.place.IsReadable := ⟨fits_of_lt_ten (by decide), fits_of_lt_ten (by decide)⟩
  have text : String.ofList (['\t', ' '] ++ nested.text ++ [' ', '\n']) =
      "\t my file.proto:3:5: warning: 12:7: Warning: x \n" := by decide
  rw [← text]
  exact ⟨readable, readMarker_text nested readable (List.all_eq_true.mp (by decide))
    (List.all_eq_true.mp (by decide))⟩

/-- A number that is too long is refused. -/
theorem readMarker_of_not_isReadable (p : Printout) (tooLong : ¬ p.place.IsReadable) :
    ∃ e, readMarker (String.ofList p.text) = .error e := by
  have read := readMarker_eq p (List.forall_mem_nil _) (List.forall_mem_nil _)
  rw [List.nil_append, List.append_nil] at read
  rw [read]
  rcases p.place.refused_of_not_isReadable tooLong (' ' :: p.markedMessage) with
    ⟨e, line⟩ | ⟨e, column⟩
  · exact ⟨e, by simp [Diagnostic.toMarker, line, bind, Except.bind, Except.map]⟩
  · cases line : ((p.place.placement (' ' :: p.markedMessage)).line.map numberFrom).getD (.ok 0) with
    | error e => exact ⟨e, by simp [Diagnostic.toMarker, line, bind, Except.bind, Except.map]⟩
    | ok n => exact ⟨e, by simp [Diagnostic.toMarker, line, column, bind, Except.bind, Except.map]⟩

/-- An error so far to the right that the number of the column is too long. -/
def far : Printout where
  file := "a.proto"
  place := .column 3 (Nat.pow 10 maxDecimalDigits)
  isWarning := false
  message := "boom"
  file_nonempty := by decide
  file_uncut := by decide
  file_front := forall_mem_of_all (by decide)
  message_nonempty := by decide
  message_uncut := by decide
  message_front := forall_mem_of_all (by decide)
  message_back := forall_mem_of_all (by decide)
  unmarked := by decide

/-- So not every diagnostic is read back. -/
theorem far_not_read : readMarker (String.ofList far.text) ≠ .ok (some far.marker) := by
  obtain ⟨e, refused⟩ := readMarker_of_not_isReadable far fun readable =>
    Nat.lt_irrefl _ readable.2
  rw [refused]
  exact nofun

end Printout

end ProtoNames.Compiler
