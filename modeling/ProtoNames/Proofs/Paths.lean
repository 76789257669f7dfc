import ProtoNames.File.Path
import ProtoNames.Proofs.Pieces

/-!
Which paths lead nowhere.

Every path that is made up of paths that were read is *clean*: its parts are those that a
reader keeps. A clean path is read back as it was written (`ofString_toString`), so that
`uri_eq_error_iff` can say of it, by its parts, when it has no absolute form.
-/

namespace ProtoNames

open Text

namespace Path

variable {p q : Path} {around : Surroundings}

/-! ### Clean paths -/

/-- A part that a reader keeps as one part. -/
def IsPart (part : String) : Prop := part ≠ "" ∧ part ≠ "." ∧ '/' ∉ part.toList

/-- A path whose parts are those that a reader keeps. -/
def Clean (p : Path) : Prop := ∀ part ∈ p.parts, IsPart part

theorem clean_ofString (s : String) : (ofString s).Clean := by
  intro part inside
  obtain ⟨inside, kept⟩ := List.mem_filter.mp inside
  obtain ⟨piece, cut, rfl⟩ := List.mem_map.mp inside
  simp only [Bool.and_eq_true, bne_iff_ne] at kept
  refine ⟨kept.1, kept.2, ?_⟩
  rw [String.toList_ofList]
  exact not_mem_of_mem_pieces cut

theorem Clean.parent (clean : p.Clean) : p.parent.Clean := by
  intro part inside
  exact clean part (List.dropLast_subset _ inside)

theorem Clean.join (clean : p.Clean) (clean' : q.Clean) : (p.join q).Clean := by
  unfold Path.join
  split
  · intro part inside
    exact (List.mem_append.mp inside).elim (clean part) (clean' part)
  · exact clean'

/-! ### Writing and reading -/

theorem filter_parts (clean : p.Clean) :
    ((p.parts.map String.toList).map String.ofList).filter (fun part => part != "" && part != ".") =
      p.parts := by
  rw [List.map_map, List.filter_eq_self.mpr]
  · simp
  · intro part inside
    obtain ⟨part', inside', rfl⟩ := List.mem_map.mp inside
    simp [(clean part' inside').1, (clean part' inside').2.1]

/-- Clean parts, written with slashes between them and any number of slashes in front, are
read back. -/
theorem parts_read (clean : p.Clean) :
    ((pieces '/' (joinSlashes p.parts).toList).map String.ofList).filter
      (fun part => part != "" && part != ".") = p.parts := by
  by_cases none : p.parts = []
  · rw [none]
    decide
  · have free : ∀ part ∈ p.parts, '/' ∉ part.toList := fun part inside => (clean part inside).2.2
    have cut : pieces '/' (joinSlashes p.parts).toList = p.parts.map String.toList :=
      pieces_joined none free
    rw [cut, filter_parts clean]

theorem pieces_slash (cs : List Char) :
    ((pieces '/' ('/' :: cs)).map String.ofList).filter (fun part => part != "" && part != ".") =
      ((pieces '/' cs).map String.ofList).filter (fun part => part != "" && part != ".") := by
  simp [pieces]

/-- Written parts do not begin with a slash. -/
theorem head?_joinSlashes (clean : p.Clean) (cs : List Char) :
    (joinSlashes p.parts).toList ≠ '/' :: cs := by
  cases split : p.parts with
  | nil => simp [joinSlashes, joined]
  | cons part rest =>
    obtain ⟨nonempty, -, free⟩ := clean part (split ▸ List.mem_cons_self)
    intro slash
    have begins : ∃ more, (joinSlashes (part :: rest)).toList = part.toList ++ more := by
      cases rest with
      | nil => exact ⟨[], by simp [joinSlashes, joined]⟩
      | cons next more => exact ⟨'/' :: (joinSlashes (next :: more)).toList, by
          simp [joinSlashes, joined]⟩
    obtain ⟨more, whole⟩ := begins
    rw [whole] at slash
    cases chars : part.toList with
    | nil => exact nonempty (String.toList_eq_nil_iff.mp chars)
    | cons c others =>
      rw [chars] at slash free
      cases slash
      exact free List.mem_cons_self

/-- The slashes in front of a text that begins with none itself. -/
theorem rootOf_slashes {cs : List Char} (other : ∀ rest, cs ≠ '/' :: rest) :
    rootOf cs = .relative ∧ rootOf ('/' :: cs) = .absolute ∧
      rootOf ('/' :: '/' :: cs) = .doubleSlash := by
  cases cs with
  | nil => decide
  | cons c rest =>
    have different : c ≠ '/' := fun same => other rest (same ▸ rfl)
    simp [rootOf, different]

/-- A clean path is read back as it was written. -/
theorem ofString_toString (clean : p.Clean) : ofString p.toString = p := by
  obtain ⟨relative, absolute, doubleSlash⟩ := rootOf_slashes (head?_joinSlashes clean)
  have parts := parts_read clean
  rcases p with ⟨root, ps⟩
  cases root with
  | relative =>
    cases ps with
    | nil => decide
    | cons part rest =>
      simp only [toString, List.isEmpty_cons, Bool.false_eq_true, if_false, ofString]
      rw [parts, relative]
  | absolute =>
    simp only [toString, ofString, String.toList_append, String.reduceToList, List.cons_append,
      List.nil_append, pieces_slash, parts, absolute]
  | doubleSlash =>
    simp only [toString, ofString, String.toList_append, String.reduceToList, List.cons_append,
      List.nil_append, pieces_slash, parts, doubleSlash]

/-! ### Paths without an absolute form -/

/-- A relative path that begins with the home directory of a user that there is not. -/
def InForeignHome (around : Surroundings) (p : Path) : Prop :=
  p.root = .relative ∧
    ∃ part name, p.parts.head? = some part ∧ part ≠ "~" ∧ part.toList = '~' :: name ∧
      around.homes (String.ofList name) = none

/-- A path with a null character in one of its parts. -/
def HoldsNull (p : Path) : Prop := ∃ part ∈ p.parts, '\x00' ∈ part.toList

/-- A path behind which, once the home directory is known, links lead round in a circle. -/
def InCircle (around : Surroundings) (p : Path) : Prop :=
  ∃ q place, p.expandHome? around = some q ∧ around.real (q.partsFromRoot around) = .error place

theorem expandHome?_eq_none_iff : p.expandHome? around = none ↔ p.InForeignHome around := by
  rcases p with ⟨root, parts⟩
  cases root with
  | relative =>
    cases parts with
    | nil => simp [expandHome?, InForeignHome]
    | cons first rest =>
      by_cases own : first = "~"
      · simp [expandHome?, InForeignHome, own]
      · simp only [expandHome?, InForeignHome, beq_iff_eq, own, if_false, List.head?_cons,
          Option.some.injEq]
        split
        · next name chars => simp [own, chars]
        · next other =>
          simp only [reduceCtorEq, false_iff]
          rintro ⟨-, part, name, rfl, -, chars, -⟩
          exact other name chars
  | absolute => simp [expandHome?, InForeignHome]
  | doubleSlash => simp [expandHome?, InForeignHome]

/-- A clean path has no absolute form if and only if it begins in the home directory of no user,
holds a null character, or leads into a circle of links. -/
theorem uri_eq_error_iff (clean : p.Clean) :
    (∃ e, uri around p.toString = .error e) ↔
      p.InForeignHome around ∨ p.HoldsNull ∨ p.InCircle around := by
  simp only [uri, ofString_toString clean]
  cases expanded : p.expandHome? around with
  | none => simp [expandHome?_eq_none_iff.mp expanded]
  | some q =>
    have known : ¬ p.InForeignHome around := by
      rw [← expandHome?_eq_none_iff, expanded]
      simp
    have null : p.parts.any holdsNull = true ↔ p.HoldsNull := by
      simp [HoldsNull, holdsNull]
    have circle : p.InCircle around ↔
      ∃ place, around.real (q.partsFromRoot around) = .error place := by
      simp [InCircle, expanded]
    simp only [known, false_or, ← null, circle]
    cases p.parts.any holdsNull with
    | true => simp
    | false => cases around.real (q.partsFromRoot around) <;> simp

end Path

end ProtoNames
