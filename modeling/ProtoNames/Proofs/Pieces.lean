import Mathlib.Data.List.Basic
import ProtoNames.Text.Pieces

/-!
Cutting and joining texts.

`pieces_joined`: texts that do not hold the separator are the pieces of the text that they are
joined to. `not_mem_of_mem_pieces`: pieces never hold it.
-/

namespace ProtoNames.Text

variable {separator : Char} {cs rest : List Char}

theorem pieces_of_not_mem (free : separator ∉ cs) : pieces separator cs = [cs] := by
  induction cs with
  | nil => rfl
  | cons c cs ih =>
    obtain ⟨other, free⟩ := not_or.mp (List.mem_cons.not.mp free)
    rw [pieces, if_neg fun same => other (beq_iff_eq.mp same).symm, ih free]

theorem pieces_append_cons (free : separator ∉ cs) :
    pieces separator (cs ++ separator :: rest) = cs :: pieces separator rest := by
  induction cs with
  | nil => simp [pieces]
  | cons c cs ih =>
    obtain ⟨other, free⟩ := not_or.mp (List.mem_cons.not.mp free)
    rw [List.cons_append, pieces, if_neg fun same => other (beq_iff_eq.mp same).symm, ih free]

/-- Cutting undoes joining. -/
theorem pieces_joined {parts : List String} (some_ : parts ≠ [])
    (free : ∀ part ∈ parts, separator ∉ part.toList) :
    pieces separator (joined (String.singleton separator) parts).toList =
      parts.map String.toList := by
  induction parts with
  | nil => exact absurd rfl some_
  | cons part others ih =>
    obtain ⟨here, free⟩ := List.forall_mem_cons.mp free
    cases others with
    | nil => exact pieces_of_not_mem here
    | cons next more =>
      have whole : (joined (String.singleton separator) (part :: next :: more)).toList =
          part.toList ++ separator ::
            (joined (String.singleton separator) (next :: more)).toList := by
        simp [joined]
      rw [whole, pieces_append_cons here, ih (by simp) free]
      rfl

theorem not_mem_of_mem_pieces {piece : List Char} (h : piece ∈ pieces separator cs) :
    separator ∉ piece := by
  induction cs generalizing piece with
  | nil =>
    rw [pieces, List.mem_singleton] at h
    simp [h]
  | cons c cs ih =>
    rw [pieces] at h
    split at h
    · rcases List.mem_cons.mp h with rfl | h
      · simp
      · exact ih h
    · next other =>
      have other : separator ≠ c := fun same => other (beq_iff_eq.mpr same.symm)
      split at h
      · next none =>
        rw [List.mem_singleton.mp h]
        simpa using other
      · next first others split_ =>
        rcases List.mem_cons.mp h with rfl | h
        · have free := ih (split_ ▸ List.mem_cons_self : first ∈ pieces separator cs)
          exact List.not_mem_cons_of_ne_of_not_mem other free
        · exact ih (split_ ▸ List.mem_cons_of_mem _ h)

end ProtoNames.Text
