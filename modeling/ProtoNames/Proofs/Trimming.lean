import Mathlib.Data.List.TakeWhile
import ProtoNames.Text.Blank

/-!
Blanks around a text.

`trim_append`: of a text that neither begins nor ends in a blank, trimming drops the blanks
around it and nothing else. Which characters count as blank does not matter for that
(`dropEnds_append`).
-/

namespace ProtoNames.Text

variable {before cs after : List Char}

/-- A text that neither begins nor ends in a blank. -/
structure IsTrimmed (cs : List Char) : Prop where
  front : ∀ c ∈ cs.head?, isBlank c = false
  back : ∀ c ∈ cs.getLast?, isBlank c = false

theorem isTrimmed_of_forall (dark : ∀ c ∈ cs, isBlank c = false) : IsTrimmed cs where
  front c first := dark c (List.mem_of_head? first)
  back c last := dark c (List.mem_of_getLast? last)

section Ends

variable {p : Char → Bool}

/-- Nothing is dropped in front of what does not begin with it. -/
theorem dropWhile_of_head (front : ∀ c ∈ cs.head?, p c = false) : cs.dropWhile p = cs := by
  cases cs with
  | nil => rfl
  | cons c cs => rw [List.dropWhile_cons, front c rfl]; rfl

/-- What is dropped at both ends ends where something stands that is kept. -/
theorem dropEnds_append (some_ : cs ≠ []) (front : ∀ c ∈ cs.head?, p c = false)
    (back : ∀ c ∈ cs.getLast?, p c = false) (dropped : ∀ c ∈ before, p c = true)
    (dropped' : ∀ c ∈ after, p c = true) :
    (((before ++ cs ++ after).dropWhile p).reverse.dropWhile p).reverse = cs := by
  have front : ∀ c ∈ (cs ++ after).head?, p c = false := by
    obtain ⟨c, rest, rfl⟩ := List.exists_cons_of_ne_nil some_
    exact front
  have backwards : ∀ c ∈ after.reverse, p c = true := by
    simpa using dropped'
  have back : ∀ c ∈ cs.reverse.head?, p c = false := by
    rw [List.head?_reverse]
    exact back
  rw [List.append_assoc, List.dropWhile_append_of_pos dropped, dropWhile_of_head front,
    List.reverse_append, List.dropWhile_append_of_pos backwards, dropWhile_of_head back,
    List.reverse_reverse]

/-- Nothing else is dropped. -/
theorem exists_ends (p : Char → Bool) (cs : List Char) : ∃ before after,
    cs = before ++ ((cs.dropWhile p).reverse.dropWhile p).reverse ++ after ∧
      (∀ c ∈ before, p c = true) ∧ ∀ c ∈ after, p c = true := by
  refine ⟨cs.takeWhile p, ((cs.dropWhile p).reverse.takeWhile p).reverse, ?_, ?_, ?_⟩
  · rw [List.append_assoc, ← List.reverse_append, List.takeWhile_append_dropWhile,
      List.reverse_reverse, List.takeWhile_append_dropWhile]
  · exact fun c inside => List.mem_takeWhile_imp inside
  · exact fun c inside => List.mem_takeWhile_imp (List.mem_reverse.mp inside)

end Ends

theorem trim_append (some_ : cs ≠ []) (trimmed : IsTrimmed cs)
    (blank : ∀ c ∈ before, isBlank c = true) (blank' : ∀ c ∈ after, isBlank c = true) :
    trim (before ++ cs ++ after) = cs :=
  dropEnds_append some_ trimmed.front trimmed.back blank blank'

theorem trim_of_isTrimmed (trimmed : IsTrimmed cs) : trim cs = cs := by
  by_cases some_ : cs = []
  · rw [some_]
    rfl
  · simpa using trim_append some_ trimmed (List.forall_mem_nil _) (List.forall_mem_nil _)

end ProtoNames.Text
