import ProtoNames.Proofs.Repetition

/-!
How often a query checks whether it goes on.

`Checks` counts: with at least so much patience a query has the outcome that it has when nobody
loses patience, and leaves the rest of it; with less it is cancelled. The count adds up along
`>>=`. Looking for a document makes no check (`checks_destination`), so only the scopes around a
site and the imports that are taken from a queue count.
-/

namespace ProtoNames

variable {α β : Type} {s : Setup} {p mid : Progress} {n : Nat}

/-- The same progress, where the query is cancelled after so many more checks, if ever. -/
def Progress.limited (p : Progress) (patience : Option Nat) : Progress := { p with patience }

namespace Progress

variable {patience patience' : Option Nat}

@[simp] theorem limited_patience : (p.limited patience).patience = patience := rfl

@[simp] theorem limited_sources : (p.limited patience).sources = p.sources := rfl

@[simp] theorem limited_limited :
    (p.limited patience).limited patience' = p.limited patience' := rfl

theorem limited_eq (same : p.patience = patience) : p.limited patience = p := by
  rw [← same]
  rfl

end Progress

namespace Query

/-- A query makes so many checks. -/
structure Checks (s : Setup) (p : Progress) (q : Query α) (k : Nat) : Prop where
  patient : (q.run s (p.limited none)).2.patience = none
  enough : ∀ n, q.run s (p.limited (some (k + n))) =
    ((q.run s (p.limited none)).1, (q.run s (p.limited none)).2.limited (some n))
  short : ∀ n, n < k → (q.run s (p.limited (some n))).1 = .error .cancelled

variable {q : Query α} {f : α → Query β} {k l : Nat}

theorem Checks.limited {patience : Option Nat} (h : Checks s p q k) :
    Checks s (p.limited patience) q k := ⟨h.patient, h.enough, h.short⟩

/-- A query without checks takes no notice of patience. -/
theorem checks_zero
    (heedless : ∀ patience, q.run s (p.limited patience) =
      ((q.run s (p.limited none)).1, (q.run s (p.limited none)).2.limited patience)) :
    Checks s p q 0 := by
  refine ⟨?_, fun n => ?_, fun n few => absurd few (Nat.not_lt_zero n)⟩
  · rw [heedless none]
    rfl
  · rw [Nat.zero_add]
    exact heedless (some n)

theorem checks_pure (a : α) : Checks s p (pure a : Query α) 0 := checks_zero fun _ => rfl

theorem checks_throw (e : QueryError) : Checks s p (throw e : Query α) 0 := checks_zero fun _ => rfl

theorem checks_log (e : Event) : Checks s p (log e) 0 := checks_zero fun _ => rfl

theorem checks_check : Checks s p check 1 := by
  refine ⟨rfl, fun n => ?_, fun n few => ?_⟩
  · rw [Nat.add_comm]
    rfl
  · rw [Nat.lt_one_iff.mp few]
    rfl

/-- The checks of two queries add up if the first one returns. -/
theorem Checks.bind {a : α} (first : Checks s p q k)
    (ran : q.run s (p.limited none) = (.ok a, mid)) (second : Checks s mid (f a) l) :
    Checks s p (q >>= f) (k + l) := by
  have patient : mid.limited none = mid :=
    Progress.limited_eq (by simpa only [ran] using first.patient)
  have whole : (q >>= f : Query β).run s (p.limited none) = (f a).run s (mid.limited none) := by
    rw [run_bind, ran, patient]
  have passed : ∀ n, (q >>= f : Query β).run s (p.limited (some (k + n))) =
      (f a).run s (mid.limited (some n)) := by
    intro n
    rw [run_bind, first.enough, ran]
  refine ⟨?_, fun n => ?_, fun n few => ?_⟩
  · rw [whole]
    exact second.patient
  · rw [Nat.add_assoc, passed, whole, second.enough]
  · by_cases reaches : k ≤ n
    · obtain ⟨m, rfl⟩ := Nat.exists_eq_add_of_le reaches
      rw [passed]
      exact second.short m (by omega)
    · have cut := first.short n (by omega)
      rw [run_bind]
      cases stopped : q.run s (p.limited (some n)) with
      | mk result after =>
        rw [stopped] at cut
        cases cut
        rfl

/-- A query that fails makes no more checks. -/
theorem Checks.bind_error {e : QueryError} (first : Checks s p q k)
    (ran : q.run s (p.limited none) = (.error e, mid)) : Checks s p (q >>= f) k := by
  have whole : (q >>= f : Query β).run s (p.limited none) = (.error e, mid) := by
    rw [run_bind, ran]
  refine ⟨?_, fun n => ?_, fun n few => ?_⟩
  · rw [whole]
    simpa only [ran] using first.patient
  · rw [run_bind, first.enough, ran, whole]
  · have cut := first.short n few
    rw [run_bind]
    cases stopped : q.run s (p.limited (some n)) with
    | mk result after =>
      rw [stopped] at cut
      cases cut
      rfl

/-- What follows may make no checks of its own. -/
theorem Checks.andThen (first : Checks s p q k) (second : ∀ a mid, Checks s mid (f a) 0) :
    Checks s p (q >>= f) k := by
  cases ran : q.run s (p.limited none) with
  | mk result mid =>
    cases result with
    | error e => exact first.bind_error ran
    | ok a => exact first.bind ran (second a mid)

theorem Checks.map (first : Checks s p q k) (g : α → β) : Checks s p (g <$> q) k := by
  rw [← bind_pure_comp]
  exact first.andThen fun _ _ => checks_pure _

theorem checks_read_bind {g : Setup → Query α} (h : Checks s p (g s) k) :
    Checks s p (read >>= g) k := ⟨h.patient, h.enough, h.short⟩

theorem checks_ite {c : Prop} [Decidable c] {q q' : Query α} (h : Checks s p q k)
    (h' : Checks s p q' k) : Checks s p (if c then q else q') k := by
  split
  · exact h
  · exact h'

/-- Whoever does not lose patience passes a check. -/
theorem run_check_patient (patient : p.patience = none) : check.run s p = (.ok (), p) := by
  simp only [check, run_bind, run_get, patient, run_pure]

theorem run_checks_patient {γ : Type} (patient : p.patience = none) (times : List γ) :
    (times.forM fun _ => check).run s p = (.ok (), p) := by
  induction times with
  | nil => rfl
  | cons _ rest ih =>
    simp only [List.forM, run_bind, run_check_patient patient]
    exact ih

/-- As many checks are made as there are scopes around a site. -/
theorem checks_checks {γ : Type} (times : List γ) :
    Checks s p (times.forM fun _ => check) times.length := by
  induction times generalizing p with
  | nil => exact checks_pure ()
  | cons _ rest ih =>
    simp only [List.forM, List.length_cons, Nat.add_comm rest.length]
    exact checks_check.bind rfl ih

/-! ### Looking for documents -/

theorem checks_document (path : String) : Checks s p (document path) 0 := by
  apply checks_zero
  intro patience
  simp only [run_document]
  cases Path.uri s.around path <;> rfl

theorem checks_firstDocument (paths : List Path) : Checks s p (firstDocument paths) 0 := by
  induction paths generalizing p with
  | nil => exact checks_pure none
  | cons path rest ih =>
    refine (checks_document _).andThen fun found mid => ?_
    cases found with
    | none => exact ih
    | some d => exact checks_pure (some d)

theorem checks_resolve (i : ImportRef) : Checks s p (resolve i) 0 := by
  unfold resolve
  apply checks_read_bind
  apply checks_ite
  · refine checks_ite ((checks_throw _).andThen fun _ _ => ?_) ?_
    all_goals
      refine (checks_firstDocument _).andThen fun found mid => ?_
      cases found with
      | none => exact (checks_log _).andThen fun _ _ => checks_pure none
      | some d => exact checks_pure (some d)
  · exact (checks_log _).andThen fun _ _ => checks_pure none

theorem checks_supported (i : ImportRef) : Checks s p (supported i) 0 := by
  unfold supported
  apply checks_read_bind
  refine (checks_resolve i).andThen fun found mid => ?_
  cases found with
  | none => exact checks_pure none
  | some d =>
    exact checks_ite (checks_pure (some d)) ((checks_log _).andThen fun _ _ => checks_pure none)

theorem checks_builtInModule (module : String) : Checks s p (builtInModule module) 0 := by
  cases loaded : s.modules.document module with
  | error e =>
    unfold builtInModule
    apply checks_read_bind
    simp only [loaded]
    exact checks_ite ((checks_log _).andThen fun _ _ => checks_pure none) (checks_throw _)
  | ok d =>
    apply checks_zero
    intro patience
    simp only [builtInModule, run_bind, run_read, loaded, run_get, Progress.limited]
    cases p.builtInsUsed.contains module <;> rfl

theorem checks_builtIn (path : String) : Checks s p (builtIn path) 0 := by
  unfold builtIn
  apply checks_read_bind
  cases s.config.builtIns.lookup path with
  | none => exact checks_pure none
  | some module => exact checks_builtInModule module

theorem checks_destination (i : ImportRef) : Checks s p (destination i) 0 := by
  unfold destination
  apply checks_read_bind
  exact checks_ite ((checks_builtIn i.path).andThen fun _ _ => checks_pure _)
    ((checks_supported i).andThen fun _ _ => checks_pure _)

end Query

end ProtoNames
