import Mathlib.Data.List.Forall2
import ProtoNames.Proofs.InnermostScope
import ProtoNames.Report

/-!
What a report on a scope lists.

* `Scope.IsBuilt`: a scope as look-ups give it out. Its matches are told apart by name and
  declaration, and no name in it is empty or begins with a dot (`IsBuilt.isClean`).
* `requested_eq_answers`: a report takes away all dots in front of a name where a look-up takes
  away one, and it compares names and declarations anew. In a clean scope both come to the same.
* `exists_ordered`: rows show the matches that are listed, in the order of their names, and under
  one name in that of files.
* `exists_shown`: so there is one row for each declaration that a name means.
* `Report.lists_of_shows`: what a report says of the matches that its rows show.
-/

namespace ProtoNames

variable {s : Scope} {m m' : Match} {name : String} {a b : String} {as bs cs : List String}

/-! ### Dots in front -/

/-- A name that is not empty and does not begin with a dot. -/
def IsPlain (name : String) : Prop := ∃ c rest, name.toList = c :: rest ∧ c ≠ '.'

/-- A name without the dot in front, if there is one. -/
def withoutDot (name : String) : String :=
  match name.toList with
  | '.' :: rest => String.ofList rest
  | _ => name

theorem isPlain_joinDots {names : List String} (clean : AreSegments names) (some_ : names ≠ []) :
    IsPlain (joinDots names) := by
  obtain ⟨first, others, rfl⟩ := List.exists_cons_of_ne_nil some_
  obtain ⟨nonempty, free⟩ := clean first List.mem_cons_self
  obtain ⟨c, chars, spelled⟩ : ∃ c chars, first.toList = c :: chars :=
    List.exists_cons_of_ne_nil (by simpa using nonempty)
  have noDot : c ≠ '.' := by
    rintro rfl
    exact free (by simp [spelled])
  cases others with
  | nil => exact ⟨c, chars, spelled, noDot⟩
  | cons next more =>
    refine ⟨c, chars ++ '.' :: (joinDots (next :: more)).toList, ?_, noDot⟩
    rw [joinDots_cons (by simp)]
    simp [spelled]

theorem withoutDot_of_dotted {rest : List Char} (dotted : name.toList = '.' :: rest) :
    withoutDot name = String.ofList rest := by
  simp [withoutDot, dotted]

theorem withoutDot_of_undotted (undotted : ∀ rest, name.toList ≠ '.' :: rest) :
    withoutDot name = name := by
  unfold withoutDot
  split
  · next dotted => exact absurd dotted (undotted _)
  · rfl

/-- Where something is left that does not begin with a dot, one dot is all there was. -/
theorem withoutLeadingDots_of_isPlain (plain : IsPlain (withoutDot name)) :
    withoutLeadingDots name = withoutDot name := by
  obtain ⟨c, rest, spelled, noDot⟩ := plain
  have stays : (c :: rest).dropWhile (· == '.') = c :: rest :=
    List.dropWhile_cons_of_neg (by simpa)
  rw [withoutLeadingDots]
  by_cases dotted : ∃ chars, name.toList = '.' :: chars
  · obtain ⟨chars, dotted⟩ := dotted
    rw [withoutDot_of_dotted dotted, String.toList_ofList] at spelled
    rw [withoutDot_of_dotted dotted, dotted, List.dropWhile_cons_of_pos rfl, spelled, stays]
  · have undotted := withoutDot_of_undotted (not_exists.mp dotted)
    rw [undotted] at spelled
    rw [undotted, spelled, stays, ← spelled, String.ofList_toList]

theorem Match.name_of_answersTo (means : m.answersTo name = true) : m.name = withoutDot name := by
  unfold answersTo at means
  split at means
  · next dotted =>
    rw [withoutDot_of_dotted dotted]
    exact beq_iff_eq.mp (Bool.and_eq_true_iff.mp means).1
  · next undotted =>
    rw [withoutDot_of_undotted undotted]
    exact beq_iff_eq.mp means

/-! ### Clean scopes -/

theorem Match.isSame_iff : m.isSame m' = true ↔
    m.name = m'.name ∧ m.element.isSame m'.element = true := by
  simp [isSame]

theorem Match.isSame_comm : m.isSame m' = m'.isSame m := by
  rw [isSame, isSame, Element.isSame_comm, BEq.comm (a := m.name)]

/-- A scope in which matches are told apart by name and declaration, and names are plain. -/
structure Scope.IsClean (s : Scope) : Prop where
  apart : s.entries.Pairwise fun a b => a.isSame b = false
  plain : ∀ m ∈ s.entries, IsPlain m.name

namespace Scope.IsClean

variable (clean : s.IsClean)

include clean

theorem nodup : s.entries.Nodup := by
  refine clean.apart.imp ?_
  rintro m _ different rfl
  exact absurd different (by simp [Match.isSame, Element.isSame_refl])

theorem eq_of_isSame (member : m ∈ s.entries) (member' : m' ∈ s.entries)
    (same : m.isSame m' = true) : m = m' := by
  have symmetric : Std.Symm fun a b : Match => a.isSame b = true → a = b := by
    constructor
    intro a b eq same
    rw [Match.isSame_comm] at same
    exact (eq same).symm
  have unique : s.entries.Pairwise fun a b => a.isSame b = true → a = b :=
    clean.apart.imp fun different same => absurd (different.symm.trans same) (by simp)
  exact unique.forall_of_forall (fun _ _ _ => rfl) member member' same

/-- The matches that a name means are all under one name, so no declaration is met twice. -/
theorem lookup_eq (name : String) : s.lookup name = (s.answers name).map Match.element := by
  refine distinct_of_pairwise (List.pairwise_map.mpr ?_)
  refine (clean.apart.filter (·.answersTo name)).imp_of_mem fun {a b} answer answer' different => ?_
  have named := Match.name_of_answersTo (List.mem_filter.mp answer).2
  have named' := Match.name_of_answersTo (List.mem_filter.mp answer').2
  rw [← Bool.not_eq_true] at different ⊢
  exact fun same => different (Match.isSame_iff.mpr ⟨named.trans named'.symm, same⟩)

/-- A report selects the matches that a look-up selects. -/
theorem requested_eq_answers (name : String) : s.requested name = s.answers name := by
  -- whatever is meant has a plain name, which is the requested one without all of its dots
  have called : ∀ {m}, m ∈ s.entries → m.answersTo name = true →
      m.name = withoutLeadingDots name := by
    intro m member means
    have named := Match.name_of_answersTo means
    rw [withoutLeadingDots_of_isPlain (named ▸ clean.plain m member), named]
  refine List.filter_congr fun m member => Bool.eq_iff_iff.mpr ?_
  simp only [Bool.and_eq_true, beq_iff_eq, List.any_eq_true, clean.lookup_eq, List.mem_map]
  constructor
  · rintro ⟨named, _, ⟨m', answer, rfl⟩, same⟩
    obtain ⟨member', means⟩ := List.mem_filter.mp answer
    have named' := called member' means
    rwa [clean.eq_of_isSame member member' (Match.isSame_iff.mpr ⟨named.trans named'.symm, same⟩)]
  · intro means
    exact ⟨called member means, m.element, ⟨m, List.mem_filter.mpr ⟨member, means⟩, rfl⟩,
      Element.isSame_refl _⟩

end Scope.IsClean

/-! ### Scopes that are built -/

/-- A scope as look-ups give it out: it holds what was found at a place in a document that is
there, in whatever order. -/
inductive Scope.IsBuilt (scope : Scope) (modules : Builtin.Modules) : Prop
  | intro {setup : Setup} {p p' : Progress} {given : List Source} {site : Element}
      {r : ReferenceKind} {c : Criteria} {found : List Match} (carried : setup.modules = modules)
      (history : p.sources.History given) (available : site.source.IsAvailable modules given)
      (attached : site.Attached) (ran : (Query.find site r c).run setup p = (.ok found, p'))
      (listed : scope.Lists found)

/-- In a scope that is built all names are ends of full names. -/
theorem Scope.IsBuilt.isClean {modules : Builtin.Modules} (segmented : modules.NamesAreSegments)
    (built : s.IsBuilt modules) : s.IsClean := by
  obtain ⟨rfl, history, available, attached, ran, listed⟩ := built
  constructor
  · refine (listed.pairwise_iff fun different => ?_).mpr pairwise_distinct
    rwa [Match.isSame_comm]
  · intro m member
    have found := (mem_entries history available ran attached).mp (listed.mem_iff.mp member)
    obtain ⟨given', accounted, place⟩ := place_of_mem_found history available ran attached
    obtain ⟨available', within_⟩ := place m found
    have segments := within_.areSegments (available'.namesAreSegments segmented accounted)
    obtain ⟨left, rest, some_, split, named⟩ := (inFull_of_found history available ran m found).1
    rw [split] at segments
    rw [named]
    exact isPlain_joinDots segments.of_append.2 some_

/-! ### The order of rows -/

theorem keysInOrder_cons : keysInOrder (a :: as) (b :: bs) = true ↔
    a < b ∨ a = b ∧ keysInOrder as bs = true := by
  rw [keysInOrder]
  split
  · next same => simp [same]
  · next different => simp [different]

theorem keysInOrder_trans (h : keysInOrder as bs = true) (h' : keysInOrder bs cs = true) :
    keysInOrder as cs = true := by
  induction as generalizing bs cs with
  | nil => rfl
  | cons a as ih =>
    cases bs with
    | nil => cases h
    | cons b bs =>
      cases cs with
      | nil => cases h'
      | cons c cs =>
        rw [keysInOrder_cons] at h h' ⊢
        rcases h with less | ⟨rfl, onwards⟩
        · rcases h' with less' | ⟨rfl, -⟩
          · exact .inl (String.lt_trans less less')
          · exact .inl less
        · exact h'.imp_right fun ⟨same, onwards'⟩ => ⟨same, ih onwards onwards'⟩

theorem keysInOrder_total (as bs : List String) :
    keysInOrder as bs = true ∨ keysInOrder bs as = true := by
  induction as generalizing bs with
  | nil => exact .inl rfl
  | cons a as ih =>
    cases bs with
    | nil => exact .inr rfl
    | cons b bs =>
      simp only [keysInOrder_cons]
      rcases Std.lt_trichotomy a b with less | rfl | greater
      · exact .inl (.inl less)
      · exact (ih bs).imp (fun onwards => .inr ⟨rfl, onwards⟩) fun onwards => .inr ⟨rfl, onwards⟩
      · exact .inr (.inl greater)

/-- A match that comes earlier by its name, or under the same name by its file. -/
def Match.Precedes (a b : Match) : Prop :=
  a.name < b.name ∨ a.name = b.name ∧ a.element.source.document.uri ≤ b.element.source.document.uri

theorem Match.precedes_of_before (h : (Row.ofMatch m).before (Row.ofMatch m') = true) :
    m.Precedes m' := by
  simp only [Row.before, Row.sortKey, Row.ofMatch, keysInOrder_cons] at h
  refine h.imp_right fun ⟨named, onwards⟩ => ⟨named, ?_⟩
  rcases onwards with less | ⟨same, -⟩
  · exact Std.le_of_lt less
  · exact Std.le_of_eq same

/-! ### What rows show -/

/-- A row shows a declaration under a name: the name, the file, and the declaration's kind and
full name. -/
structure Row.Shows (row : Row) (name : String) (e : Element) : Prop where
  name : row.name = name
  uri : row.uri = e.source.document.uri
  kind : row.kind = e.kind.word
  fullName : row.fullName = e.fullName

theorem Row.Shows.row_eq {row : Row} {e : Element} (h : row.Shows name e) :
    row = ⟨name, e.source.document.uri, e.kind.word, e.fullName⟩ := by
  obtain ⟨_, _, _, _⟩ := row
  obtain ⟨rfl, rfl, rfl, rfl⟩ := h
  rfl

/-- The rows show what is to be listed, in order. -/
theorem Scope.exists_ordered (s : Scope) (name? : Option String) :
    ∃ ms : List Match, ms.Perm (s.listed name?) ∧ ms.Pairwise Match.Precedes ∧
      List.Forall₂ (fun m row => row.Shows m.name m.element) ms (s.rows name?) := by
  let before (a b : Match) : Bool := (Row.ofMatch a).before (Row.ofMatch b)
  have sorted : s.rows name? = ((s.listed name?).mergeSort before).map Row.ofMatch := by
    rw [rows, List.map_mergeSort]
    exact fun _ _ _ _ => rfl
  refine ⟨_, List.mergeSort_perm _ before, ?_, ?_⟩
  · refine (List.pairwise_mergeSort ?_ ?_ _).imp Match.precedes_of_before
    · exact fun _ _ _ => keysInOrder_trans
    · intro a b
      simpa [before, Row.before] using
        keysInOrder_total (Row.ofMatch a).sortKey (Row.ofMatch b).sortKey
  · rw [sorted, List.forall₂_map_right_iff]
    exact List.forall₂_same.mpr fun m _ => ⟨rfl, rfl, rfl, rfl⟩

/-- There is one row for each declaration that a name means, and no other row. -/
theorem Scope.IsClean.exists_shown (clean : s.IsClean) (name : String) :
    ∃ shown : List Element, shown.Perm (s.lookup name) ∧
      List.Forall₂ (fun e row => row.Shows (withoutDot name) e) shown (s.rows (some name)) := by
  obtain ⟨ms, perm, -, shows⟩ := s.exists_ordered (some name)
  have answers : ms.Perm (s.answers name) := clean.requested_eq_answers name ▸ perm
  have named : ∀ m ∈ ms, m.name = withoutDot name := fun m member =>
    Match.name_of_answersTo (List.mem_filter.mp (answers.mem_iff.mp member)).2
  refine ⟨ms.map Match.element, ?_, ?_⟩
  · rw [clean.lookup_eq]
    exact answers.map Match.element
  · rw [List.forall₂_map_left_iff]
    refine ((List.forall₂_and_left _ _).mpr ⟨named, shows⟩).imp ?_
    rintro m row ⟨named, shown⟩
    exact named ▸ shown

/-! ### The words of a report -/

namespace Report

/-- A report that says something after its first line. -/
def Says (h : ReportHeader) (text words : String) : Prop :=
  (title h ++ words).toList <+: text.toList

theorem says_append_iff {h : ReportHeader} {text words : String} :
    Says h (title h ++ text) words ↔ words.toList <+: text.toList := by
  simp [Says, List.prefix_append_right_inj]

/-- A report says that a name resolves if there is a row. -/
theorem says_resolves_iff {h : ReportHeader} {c : Option Compiler.Compilation}
    (asked : h.name? = some name) :
    Says h (report h s c) (name ++ " resolves to:\n") ↔ s.rows (some name) ≠ [] := by
  simp only [report, String.append_assoc, says_append_iff, asked, verdict]
  split
  · next empty =>
    -- the two verdicts differ in the first letter after the name
    rw [List.isEmpty_iff.mp empty]
    simp [List.prefix_append_right_inj]
  · next listed =>
    rw [List.isEmpty_iff] at listed
    simp [listed]

/-- A report gives a verdict and lists matches. Behind its title and the verdict there is a line
for each match, with the name, the declaration's kind and full name, and its file. What the
compiler said comes last. -/
def Lists (h : ReportHeader) (c : Option Compiler.Compilation) (text verdict : String)
    (ms : List Match) : Prop :=
  text = title h ++ verdict ++
    String.join (ms.map fun m => "  " ++ m.name ++ "  [" ++ m.element.kind.word ++ " " ++
      m.element.fullName ++ "]  " ++ m.element.source.document.uri ++ "\n") ++
    compilerPart c

theorem lines_of_shows {ms : List Match} {rows : List Row}
    (shows : List.Forall₂ (fun m row => row.Shows m.name m.element) ms rows) :
    rows.map Row.line = ms.map fun m => "  " ++ m.name ++ "  [" ++ m.element.kind.word ++ " " ++
      m.element.fullName ++ "]  " ++ m.element.source.document.uri ++ "\n" := by
  induction shows with
  | nil => rfl
  | cons shown _ ih => rw [List.map_cons, List.map_cons, ih, shown.row_eq, Row.line]

/-- A report lists what its rows show. -/
theorem lists_of_shows {h : ReportHeader} {c : Option Compiler.Compilation} {ms : List Match}
    (shows : List.Forall₂ (fun m row => row.Shows m.name m.element) ms (s.rows h.name?)) :
    Lists h c (report h s c) (verdict h (s.rows h.name?)) ms := by
  rw [Lists, report, lines_of_shows shows]

/-- A name resolves if there is a row. -/
theorem verdict_of_asked {h : ReportHeader} (asked : h.name? = some name) (rows : List Row) :
    verdict h rows = if rows.isEmpty then name ++ " does not resolve to any " ++ h.kind ++ ".\n"
      else name ++ " resolves to:\n" := by
  simp only [verdict, asked]

end Report

end ProtoNames
