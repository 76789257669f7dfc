import Mathlib.Data.List.Basic
import ProtoNames.Compiler.Compilation

/-!
The verdict on a compilation, and the diagnostics that were printed.

* `collect_eq`: what is collected are the printed markers, added one after the other.
* `mem_insertAll`: of the markers with one message on one line the first is kept, whatever its
  severity.
* `errors_insertAll_eq_nil_iff`: so an error is lost if a warning with its message came before
  it on its line.

If no error is lost, then the verdict is what was printed, in any order (`Job.ok_iff`).
-/

namespace ProtoNames.Compiler

open Text

variable {lines lines' : List String} {ms : List Marker} {m : Marker} {s : MarkerSet}

/-! ### Printed markers -/

/-- The markers on some lines of output, in order. There are none if a line cannot be read. -/
def markersOn : List String → Except NumberTooLong (List Marker)
  | [] => .ok []
  | line :: rest => do
    let found ← readMarker line
    let others ← markersOn rest
    return found.toList ++ others

theorem markersOn_cons_eq_ok {line : String} :
    markersOn (line :: lines) = .ok ms ↔
      ∃ found others, readMarker line = .ok found ∧ markersOn lines = .ok others ∧
        found.toList ++ others = ms := by
  rw [markersOn]
  cases readMarker line with
  | error e => simp [bind, Except.bind]
  | ok found => cases markersOn lines <;> simp [bind, Except.bind, pure, Except.pure]

theorem mem_of_markersOn (printed : markersOn lines = .ok ms) :
    m ∈ ms ↔ ∃ line ∈ lines, readMarker line = .ok (some m) := by
  induction lines generalizing ms with
  | nil =>
    cases printed
    simp
  | cons line lines ih =>
    obtain ⟨found, others, here, rest, rfl⟩ := markersOn_cons_eq_ok.mp printed
    simp only [List.mem_append, ih rest, List.mem_cons, exists_eq_or_imp, here]
    simp

theorem exists_markersOn_iff :
    (∃ ms, markersOn lines = .ok ms) ↔ ∀ line ∈ lines, ∃ found, readMarker line = .ok found := by
  induction lines with
  | nil => simp [markersOn]
  | cons line lines ih =>
    rw [List.forall_mem_cons, ← ih]
    constructor
    · rintro ⟨ms, printed⟩
      obtain ⟨found, others, here, rest, -⟩ := markersOn_cons_eq_ok.mp printed
      exact ⟨⟨found, here⟩, others, rest⟩
    · rintro ⟨⟨found, here⟩, others, rest⟩
      exact ⟨_, markersOn_cons_eq_ok.mpr ⟨found, others, here, rest, rfl⟩⟩

/-- The same lines in another order have the same markers. -/
theorem exists_markersOn_of_mem_iff (same : ∀ line, line ∈ lines' ↔ line ∈ lines)
    (printed : markersOn lines = .ok ms) :
    ∃ ms', markersOn lines' = .ok ms' ∧ ∀ m, m ∈ ms' ↔ m ∈ ms := by
  have readable := exists_markersOn_iff.mp ⟨ms, printed⟩
  obtain ⟨ms', printed'⟩ := exists_markersOn_iff.mpr fun line inside =>
    readable line ((same line).mp inside)
  refine ⟨ms', printed', fun m => ?_⟩
  simp only [mem_of_markersOn printed, mem_of_markersOn printed', same]

theorem Diagnostic.severity_of_toMarker {d : Diagnostic} (made : d.toMarker = .ok m) :
    m.severity = (splitSeverity d.message).1 := by
  unfold Diagnostic.toMarker at made
  generalize (d.placement.line.map numberFrom).getD (.ok 0) = line at made
  generalize d.placement.column.mapM numberFrom = column at made
  cases line with
  | error e => cases made
  | ok line =>
    cases column with
    | error e => cases made
    | ok column =>
      cases made
      rfl

/-- A marker on a line is an error or a warning. -/
theorem severity_of_readMarker {line : String} (read : readMarker line = .ok (some m)) :
    m.severity = .error ∨ m.severity = .warning := by
  unfold readMarker at read
  cases found : diagnostic? line.toList with
  | none => simp [found, pure, Except.pure] at read
  | some d =>
    obtain ⟨marker, made, same⟩ : ∃ marker, d.toMarker = .ok marker ∧ some marker = some m := by
      cases made : d.toMarker <;> simp_all [Except.map, Functor.map]
    cases same
    rw [Diagnostic.severity_of_toMarker made, splitSeverity]
    split
    · exact .inr rfl
    · exact .inl rfl

/-! ### Kept markers -/

/-- One marker says the same as another, on the same line. -/
def Marker.Repeats (m w : Marker) : Prop := w.message = m.message ∧ w.line = m.line

instance (m w : Marker) : Decidable (m.Repeats w) :=
  inferInstanceAs (Decidable (_ ∧ _))

namespace MarkerSet

/-- Adds markers one after the other, if they are new. -/
def insertAll (s : MarkerSet) (ms : List Marker) : MarkerSet := ms.foldl insert s

theorem accepts_iff : s.accepts m = true ↔ ∀ w ∈ s.markers, ¬ m.Repeats w := by
  simp [accepts, contains, Marker.Repeats]

theorem mem_insert {w : Marker} :
    w ∈ (s.insert m).markers ↔ w ∈ s.markers ∨ w = m ∧ ∀ k ∈ s.markers, ¬ m.Repeats k := by
  rw [← accepts_iff, insert]
  split
  · next new => simp [new]
  · next known => simp [known]

/-- What is new behind a marker is new to the rest, and says something else than the marker. -/
theorem forall_insert_iff {w : Marker} :
    (∀ k ∈ (s.insert m).markers, ¬ w.Repeats k) ↔
      (∀ k ∈ s.markers, ¬ w.Repeats k) ∧ ¬ w.Repeats m := by
  constructor
  · intro new
    have rest : ∀ k ∈ s.markers, ¬ w.Repeats k := fun k inside =>
      new k (mem_insert.mpr (.inl inside))
    refine ⟨rest, fun same => ?_⟩
    have kept : m ∈ (s.insert m).markers := by
      refine mem_insert.mpr (.inr ⟨rfl, fun k inside again => rest k inside ?_⟩)
      exact ⟨again.1.trans same.1, again.2.trans same.2⟩
    exact new m kept same
  · rintro ⟨rest, other⟩ k inside
    rcases mem_insert.mp inside with inside | ⟨rfl, -⟩
    · exact rest k inside
    · exact other

/-- Of the markers that say the same on the same line the first one is kept. -/
theorem mem_insertAll {w : Marker} :
    w ∈ (s.insertAll ms).markers ↔ w ∈ s.markers ∨
      ∃ before after, ms = before ++ w :: after ∧ ∀ k ∈ s.markers ++ before, ¬ w.Repeats k := by
  induction ms generalizing s with
  | nil => simp [insertAll]
  | cons m ms ih =>
    change w ∈ ((s.insert m).insertAll ms).markers ↔ _
    rw [ih, mem_insert, or_assoc]
    refine or_congr_right ?_
    constructor
    · rintro (⟨rfl, new⟩ | ⟨before, after, rfl, new⟩)
      · exact ⟨[], ms, rfl, by simpa using new⟩
      · refine ⟨m :: before, after, rfl, ?_⟩
        obtain ⟨first, later⟩ := List.forall_mem_append.mp new
        obtain ⟨first, here⟩ := forall_insert_iff.mp first
        exact List.forall_mem_append.mpr ⟨first, List.forall_mem_cons.mpr ⟨here, later⟩⟩
    · rintro ⟨before, after, split, new⟩
      obtain ⟨first, later⟩ := List.forall_mem_append.mp new
      cases before with
      | nil =>
        cases split
        exact .inl ⟨rfl, first⟩
      | cons k before =>
        cases split
        obtain ⟨here, later⟩ := List.forall_mem_cons.mp later
        exact .inr ⟨before, after, rfl,
          List.forall_mem_append.mpr ⟨forall_insert_iff.mpr ⟨first, here⟩, later⟩⟩

/-- What is printed is kept, or something that it repeats. -/
theorem exists_kept (before after : List Marker) (m : Marker) :
    ∃ k ∈ (empty.insertAll (before ++ m :: after)).markers, k ∈ before ++ [m] ∧ m.Repeats k := by
  cases found : before.find? (decide <| m.Repeats ·) with
  | none =>
    have new := List.find?_eq_none.mp found
    refine ⟨m, mem_insertAll.mpr (.inr ⟨before, after, rfl, ?_⟩), by simp, rfl, rfl⟩
    simpa [empty] using new
  | some k =>
    obtain ⟨same, first, later, rfl, new⟩ := List.find?_eq_some_iff_append.mp found
    have same : m.Repeats k := of_decide_eq_true same
    refine ⟨k, mem_insertAll.mpr (.inr ⟨first, later ++ m :: after, by simp, ?_⟩), by simp, same⟩
    intro b inside again
    have inside : b ∈ first := by simpa [empty] using inside
    have other : ¬ m.Repeats b := by simpa using new b inside
    exact other ⟨again.1.trans same.1, again.2.trans same.2⟩

/-- No error is kept if and only if each comes after something else that it repeats. -/
theorem errors_insertAll_eq_nil_iff :
    (empty.insertAll ms).errors = [] ↔ ∀ before m after, ms = before ++ m :: after →
      m.severity = .error → ∃ w ∈ before, w.severity ≠ .error ∧ m.Repeats w := by
  have none_ : (empty.insertAll ms).errors = [] ↔
      ∀ k ∈ (empty.insertAll ms).markers, k.severity ≠ .error := by
    simp [errors, List.filter_eq_nil_iff]
  rw [none_]
  constructor
  · rintro harmless before m after rfl error
    obtain ⟨k, kept, inside, same⟩ := exists_kept before after m
    have other := harmless k kept
    rcases List.mem_append.mp inside with inside | inside
    · exact ⟨k, inside, other, same⟩
    · rw [List.mem_singleton.mp inside] at other
      exact absurd error other
  · intro masked k kept error
    obtain inside | ⟨before, after, split, new⟩ := mem_insertAll.mp kept
    · exact absurd inside List.not_mem_nil
    · obtain ⟨w, inside, -, same⟩ := masked before k after split error
      exact new w (List.mem_append_right _ inside) same

end MarkerSet

/-! ### The verdict -/

/-- The markers that are collected are the printed ones, added one after the other. -/
theorem collect_eq (s : MarkerSet) (lines : List String) :
    (collect s lines).2 = (markersOn lines).map s.insertAll := by
  induction lines generalizing s with
  | nil => rfl
  | cons line lines ih =>
    rw [collect, markersOn, MarkerSet.addLine]
    cases readMarker line with
    | error e => rfl
    | ok found =>
      have onwards (s' : MarkerSet) (ms : List Marker) (next : s.insertAll ms = s') :
          (collect s' lines).2 = (do
            let others ← markersOn lines
            return ms ++ others : Except NumberTooLong (List Marker)).map s.insertAll := by
        rw [ih, ← next]
        cases markersOn lines with
        | error e => rfl
        | ok others =>
          simp [Except.map, bind, Except.bind, pure, Except.pure, MarkerSet.insertAll]
      cases found with
      | none => exact onwards s [] rfl
      | some m => exact onwards (s.insert m) [m] rfl

variable {j : Job}

theorem Job.result_eq (schema : j.isForSchema = true) (around : Surroundings) (scratch : String)
    (run : Run) :
    (j.result around scratch (some run)).2 =
      match markersOn (nonblankLines run.errorOutput) with
      | .error e => .error (.numberTooLong e)
      | .ok ms =>
        .ok ⟨j.path, j.command around scratch, run.status, MarkerSet.empty.insertAll ms⟩ := by
  have collected := collect_eq .empty (nonblankLines run.errorOutput)
  simp only [result, schema, ↓reduceIte, finish]
  cases gave : collect .empty (nonblankLines run.errorOutput) with
  | mk events outcome =>
    rw [gave] at collected
    cases printed : markersOn (nonblankLines run.errorOutput) with
    | error e =>
      rw [printed] at collected
      cases collected
      rfl
    | ok ms =>
      rw [printed] at collected
      cases collected
      rfl

theorem Job.exists_result_iff (schema : j.isForSchema = true) {around : Surroundings}
    {scratch : String} {run : Run} :
    (∃ c, (j.result around scratch (some run)).2 = .ok c) ↔
      ∃ printed, markersOn (nonblankLines run.errorOutput) = .ok printed := by
  rw [result_eq schema]
  cases markersOn (nonblankLines run.errorOutput) <;> simp

/-- A printed error is hidden if a warning that it repeats was printed before it. -/
def IsHidden (before : List Marker) (m : Marker) : Prop :=
  ∃ w ∈ before, w.severity = .warning ∧ m.Repeats w

instance (before : List Marker) (m : Marker) : Decidable (IsHidden before m) :=
  inferInstanceAs (Decidable (∃ w ∈ before, _))

/-- All errors among some printed markers are hidden. -/
def AllHidden (printed : List Marker) : Prop :=
  ∀ before m after, printed = before ++ m :: after → m.severity = .error → IsHidden before m

/-- No error among some printed markers is hidden. -/
def NoneHidden (printed : List Marker) : Prop :=
  ∀ before m after, printed = before ++ m :: after → m.severity = .error → ¬ IsHidden before m

theorem errors_eq_nil_iff_allHidden (printed : markersOn lines = .ok ms) :
    (MarkerSet.empty.insertAll ms).errors = [] ↔ AllHidden ms := by
  have warning : ∀ w ∈ ms, w.severity ≠ .error ↔ w.severity = .warning := by
    intro w inside
    obtain ⟨line, -, read⟩ := (mem_of_markersOn printed).mp inside
    rcases severity_of_readMarker read with severity | severity <;> simp [severity]
  rw [MarkerSet.errors_insertAll_eq_nil_iff]
  refine forall_congr' fun before => forall_congr' fun m => forall_congr' fun after => ?_
  refine forall_congr' fun split => imp_congr_right fun _ => exists_congr fun w => ?_
  refine and_congr_right fun inside => and_congr_left fun _ => warning w ?_
  rw [split]
  exact List.mem_append_left _ inside

/-- No error is hidden if nothing that is printed could hide it, in whatever order. -/
theorem noneHidden_of_apart {printed : List Marker} (members : ∀ m, m ∈ ms ↔ m ∈ printed)
    (apart : ∀ m ∈ printed, m.severity = .error → ¬ IsHidden printed m) : NoneHidden ms := by
  rintro before m after rfl error ⟨w, inside, warning, again⟩
  exact apart m ((members m).mp (by simp)) error
    ⟨w, (members w).mp (List.mem_append_left _ inside), warning, again⟩

/-- If no error is hidden, then all are hidden only if there are none. -/
theorem NoneHidden.allHidden_iff (seen : NoneHidden ms) :
    AllHidden ms ↔ ∀ m ∈ ms, m.severity ≠ .error := by
  constructor
  · intro hidden m inside error
    obtain ⟨before, after, split⟩ := List.append_of_mem inside
    exact seen before m after split error (hidden before m after split error)
  · rintro harmless before m after rfl error
    exact absurd error (harmless m (by simp))

theorem Job.ok_iff_of_result (schema : j.isForSchema = true) {around : Surroundings}
    {scratch : String} {run : Run} {c : Compilation}
    (result : (j.result around scratch (some run)).2 = .ok c)
    (printed : markersOn (nonblankLines run.errorOutput) = .ok ms) :
    c.ok = true ↔ run.status = 0 ∧ AllHidden ms := by
  rw [result_eq schema, printed] at result
  cases result
  rw [← errors_eq_nil_iff_allHidden printed]
  simp [Compilation.ok]

/-- The verdict on a schema file that was compiled. There is one, unless a number on a printed
line is too long. It is that all is well if and only if the exit status is 0 and every printed
error is hidden by a warning: one with the same message on the same line was printed before it.

So if no error is hidden, all is well if and only if the exit status is 0 and no printed line is
an error; and if no printed warning could hide an error, the order of the lines has no effect. -/
theorem Job.ok_iff (schema : j.isForSchema = true) (around : Surroundings) (scratch : String)
    (run : Run) :
    ((∃ c, (j.result around scratch (some run)).2 = .ok c) ↔
      ∀ line ∈ nonblankLines run.errorOutput, ∃ found, readMarker line = .ok found) ∧
    ∀ c, (j.result around scratch (some run)).2 = .ok c →
      ∃ printed, markersOn (nonblankLines run.errorOutput) = .ok printed ∧
        (c.ok = true ↔ run.status = 0 ∧ AllHidden printed) ∧
        (NoneHidden printed → (c.ok = true ↔ run.status = 0 ∧
          ∀ line ∈ nonblankLines run.errorOutput, ∀ m,
            readMarker line = .ok (some m) → m.severity ≠ .error)) ∧
        ((∀ m ∈ printed, m.severity = .error → ¬ IsHidden printed m) →
          ∀ run' : Run, run'.status = run.status →
            (∀ line, line ∈ nonblankLines run'.errorOutput ↔
              line ∈ nonblankLines run.errorOutput) →
            ∃ c', (j.result around scratch (some run')).2 = .ok c' ∧ c'.ok = c.ok) := by
  refine ⟨(exists_result_iff schema).trans exists_markersOn_iff, fun c result => ?_⟩
  obtain ⟨printed, read⟩ := (exists_result_iff schema).mp ⟨c, result⟩
  have verdict := ok_iff_of_result schema result read
  refine ⟨printed, read, verdict, fun seen => ?_, fun apart run' status same => ?_⟩
  · rw [verdict, seen.allHidden_iff]
    refine and_congr_right fun _ => ?_
    simp only [mem_of_markersOn read]
    exact ⟨fun harmless line inside m found => harmless m ⟨line, inside, found⟩,
      fun harmless m ⟨line, inside, found⟩ => harmless line inside m found⟩
  · obtain ⟨printed', read', members⟩ := exists_markersOn_of_mem_iff same read
    obtain ⟨c', result'⟩ := (exists_result_iff schema).mpr ⟨printed', read'⟩
    have seen : NoneHidden printed := noneHidden_of_apart (fun _ => Iff.rfl) apart
    have seen' : NoneHidden printed' := noneHidden_of_apart members apart
    refine ⟨c', result', Bool.eq_iff_iff.mpr ?_⟩
    rw [verdict, ok_iff_of_result schema result' read', status, seen.allHidden_iff,
      seen'.allHidden_iff]
    simp only [members]

/-- A check of a file, run where the root is the current directory. -/
def checkedWith (run : Run) : Except CompileError Compilation :=
  ((Job.check "/a.proto" []).result .plain "/tmp" (some run)).2

/-- A warning, and an error on another line. -/
def mixedRun : Run := ⟨0, "a.proto:1: warning: boom\na.proto:2: boom\n"⟩

/-- The error is not hidden, so that not all is well, and the order has no effect. -/
theorem Job.ok_iff_mixed :
    (Job.check "/a.proto" []).isForSchema = true ∧
    (∃ c, checkedWith mixedRun = .ok c ∧ c.ok = false) ∧
    ∃ c, checkedWith ⟨0, "a.proto:2: boom\na.proto:1: warning: boom\n"⟩ = .ok c ∧ c.ok = false := by
  have schema : (Job.check "/a.proto" []).isForSchema = true := by decide +kernel
  have printed : markersOn (nonblankLines mixedRun.errorOutput) =
      .ok [⟨"a.proto", 1, none, .warning, "boom"⟩, ⟨"a.proto", 2, none, .error, "boom"⟩] := by
    decide +kernel
  obtain ⟨exists_, verdicts⟩ := Job.ok_iff schema .plain "/tmp" mixedRun
  obtain ⟨c, result⟩ := exists_.mpr (exists_markersOn_iff.mp ⟨_, printed⟩)
  obtain ⟨markers, read, -, seen, apart⟩ := verdicts c result
  cases printed.symm.trans read
  have apart' : ∀ m ∈ [⟨"a.proto", 1, none, .warning, "boom"⟩,
      (⟨"a.proto", 2, none, .error, "boom"⟩ : Marker)], m.severity = .error →
        ¬ IsHidden [⟨"a.proto", 1, none, .warning, "boom"⟩,
          ⟨"a.proto", 2, none, .error, "boom"⟩] m := by
    decide
  have bad : c.ok = false := by
    refine Bool.eq_false_iff.mpr fun ok => ?_
    obtain ⟨-, harmless⟩ := (seen (noneHidden_of_apart (fun _ => Iff.rfl) apart')).mp ok
    exact harmless "a.proto:2: boom" (by decide +kernel) ⟨"a.proto", 2, none, .error, "boom"⟩
      (by decide +kernel) rfl
  obtain ⟨c', result', same⟩ := apart apart' ⟨0, "a.proto:2: boom\na.proto:1: warning: boom\n"⟩ rfl
    (by
      have lines : nonblankLines "a.proto:2: boom\na.proto:1: warning: boom\n" =
          (nonblankLines mixedRun.errorOutput).reverse := by decide +kernel
      intro line
      rw [lines, List.mem_reverse])
  exact ⟨schema, ⟨c, result, bad⟩, c', result', same.trans bad⟩

/-- A compilation is reported to be well although an error was printed, since a warning with the
same message came before it on its line. In the other order the same lines are a failure. -/
theorem Job.hidden_error_ok :
    "a.proto:3: boom" ∈ nonblankLines "a.proto:3: warning: boom\na.proto:3: boom\n" ∧
    readMarker "a.proto:3: boom" = .ok (some ⟨"a.proto", 3, none, .error, "boom"⟩) ∧
    (checkedWith ⟨0, "a.proto:3: warning: boom\na.proto:3: boom\n"⟩).map (·.ok) = .ok true ∧
    (checkedWith ⟨0, "a.proto:3: boom\na.proto:3: warning: boom\n"⟩).map (·.ok) = .ok false := by
  refine ⟨by decide +kernel, by decide +kernel, by decide +kernel, by decide +kernel⟩

end ProtoNames.Compiler
