import ProtoNames.Proofs.Fetch
import ProtoNames.Proofs.Run
import ProtoNames.Scope.Visibility

/-!
Queries that can be run again.

Within one query documents are only opened. `Settles` says that a query does no more than
that, and that whenever it is run again later it has the same outcome and finds all documents
read. It composes along `>>=`, and so holds of all that is done to find out where an import
leads: `settles_destination`.
-/

namespace ProtoNames

variable {α β : Type} {s : Setup} {p p' : Progress}

/-- Documents have been fetched between two points of a query, and nothing else has been done
with them. Nobody has begun to lose patience. -/
structure Progress.Grows (s : Setup) (p p' : Progress) : Prop where
  sources : SourceSet.Grows s.around.frames s.files s.config.extension p.sources p'.sources
  patience : p.patience = none → p'.patience = none

/-- A document is kept at some path. -/
def Progress.Stored (p : Progress) (d : Source) : Prop := ∃ u, p.sources.current? u = some d

theorem Progress.Grows.refl (p : Progress) : p.Grows s p := ⟨.refl, id⟩

theorem Progress.Grows.trans {p'' : Progress} (h : p.Grows s p') (h' : p'.Grows s p'') :
    p.Grows s p'' :=
  ⟨Relation.ReflTransGen.trans h.sources h'.sources, h'.patience ∘ h.patience⟩

/-- Documents have been looked for at paths that have an absolute form. -/
def SourceSet.Opens (s : Setup) : SourceSet → SourceSet → Prop :=
  Relation.ReflTransGen fun a b => ∃ path uri, Path.uri s.around path = .ok uri ∧
    b = (a.fetch s.around.frames s.files s.config.extension uri).sources

theorem SourceSet.Opens.grows {a b : SourceSet} (h : SourceSet.Opens s a b) :
    SourceSet.Grows s.around.frames s.files s.config.extension a b := by
  induction h with
  | refl => exact .refl
  | tail _ step ih =>
    obtain ⟨_, uri, -, rfl⟩ := step
    exact ih.tail ⟨uri, rfl⟩

/-- Documents have been opened between two points of a query, and nothing else has been done
with them. Nobody has begun to lose patience. -/
structure Progress.Opens (s : Setup) (p p' : Progress) : Prop where
  sources : SourceSet.Opens s p.sources p'.sources
  patience : p.patience = none → p'.patience = none

theorem Progress.Opens.refl (p : Progress) : p.Opens s p := ⟨.refl, id⟩

theorem Progress.Opens.trans {p'' : Progress} (h : p.Opens s p') (h' : p'.Opens s p'') :
    p.Opens s p'' :=
  ⟨Relation.ReflTransGen.trans h.sources h'.sources, h'.patience ∘ h.patience⟩

theorem Progress.Opens.grows (h : p.Opens s p') : p.Grows s p' := ⟨h.sources.grows, h.patience⟩

theorem Progress.Stored.grows {d : Source} (h : p.Stored d) (later : p.Grows s p') :
    p'.Stored d := by
  obtain ⟨u, known⟩ := h
  exact ⟨u, later.sources.keeps known⟩

/-- An import means a built-in file. -/
def ImportRef.Names (i : ImportRef) (s : Setup) (b : Source) : Prop :=
  ∃ module doc, s.config.builtIns.lookup i.path = some module ∧
    s.modules.document module = .ok doc ∧ b = ⟨.builtIn module, doc⟩

namespace Query

/-- A query only fetches documents, and has the same outcome if it is run again later. -/
def Replays (s : Setup) (q : Query α) : Prop :=
  ∀ p, p.Grows s (q.run s p).2 ∧
    ∀ p', (q.run s p).2.Grows s p' → (q.run s p').1 = (q.run s p).1

/-- A query only opens documents. Whenever it is run again later it has the same outcome and
finds all documents read. If it is cancelled when its patience runs out (`limited`), that is so
as long as it is given as much patience again. -/
structure Settles (s : Setup) (limited : Prop) (p : Progress) (q : Query α) : Prop where
  opens : p.Opens s (q.run s p).2
  again : ∀ p', SourceSet.Grows s.around.frames s.files s.config.extension
      (q.run s p).2.sources p'.sources →
    (limited → p'.patience = p.patience) →
    (q.run s p').1 = (q.run s p).1 ∧ (q.run s p').2.sources = p'.sources ∧
      (p'.patience = p.patience → (q.run s p').2.patience = (q.run s p).2.patience)

variable {limited : Prop}

theorem Settles.opens_of_run {q : Query α} {result : Except QueryError α}
    (h : Settles s limited p q) (ran : q.run s p = (result, p')) : p.Opens s p' := by
  have opens := h.opens
  rwa [ran] at opens

theorem settles_pure (a : α) : Settles s limited p (pure a : Query α) :=
  ⟨.refl p, fun _ _ _ => ⟨rfl, rfl, id⟩⟩

theorem settles_throw (e : QueryError) : Settles s limited p (throw e : Query α) :=
  ⟨.refl p, fun _ _ _ => ⟨rfl, rfl, id⟩⟩

theorem settles_log (e : Event) : Settles s limited p (log e) :=
  ⟨⟨.refl, id⟩, fun _ _ _ => ⟨rfl, rfl, id⟩⟩

theorem settles_read_bind {f : Setup → Query α} (h : Settles s limited p (f s)) :
    Settles s limited p (read >>= f) := ⟨h.opens, h.again⟩

theorem Settles.bind {q : Query α} {f : α → Query β} (first : Settles s limited p q)
    (second : ∀ a mid, q.run s p = (.ok a, mid) → Settles s limited mid (f a)) :
    Settles s limited p (q >>= f) := by
  obtain ⟨opens, again⟩ := first
  cases ran : q.run s p with
  | mk result mid =>
    rw [ran] at opens again second
    cases result with
    | error e =>
      have whole : (q >>= f : Query β).run s p = (.error e, mid) := by rw [run_bind, ran]
      refine ⟨by rw [whole]; exact opens, fun p' later patience => ?_⟩
      rw [whole] at later ⊢
      obtain ⟨same, kept, after⟩ := again p' later patience
      rw [run_bind]
      cases ran' : q.run s p' with
      | mk result' mid' =>
        rw [ran'] at same kept after
        cases same
        exact ⟨rfl, kept, after⟩
    | ok a =>
      have whole : (q >>= f : Query β).run s p = (f a).run s mid := by rw [run_bind, ran]
      obtain ⟨opens', again'⟩ := second a mid rfl
      refine ⟨by rw [whole]; exact opens.trans opens', fun p' later patience => ?_⟩
      rw [whole] at later ⊢
      obtain ⟨same, kept, after⟩ :=
        again p' (Relation.ReflTransGen.trans opens'.sources.grows later) patience
      rw [run_bind]
      cases ran' : q.run s p' with
      | mk result' mid' =>
        rw [ran'] at same kept after
        cases same
        simp only at kept after
        rw [← kept] at later ⊢
        obtain ⟨same, kept', after'⟩ := again' mid' later fun minds => after (patience minds)
        exact ⟨same, kept', after' ∘ after⟩

theorem settles_ite {c : Prop} [Decidable c] {q q' : Query α} (h : Settles s limited p q)
    (h' : Settles s limited p q') : Settles s limited p (if c then q else q') := by
  split
  · exact h
  · exact h'

/-! ### Looking for documents -/

theorem mapError_eq_ok {α ε ε' : Type} {f : ε → ε'} {x : Except ε α} {a : α} :
    x.mapError f = .ok a ↔ x = .ok a := by
  cases x with
  | error e => exact iff_of_false (by rintro ⟨⟩) (by rintro ⟨⟩)
  | ok b =>
    constructor
    all_goals
      rintro ⟨⟩
      rfl

theorem exists_mapError_eq_error {α ε ε' : Type} {f : ε → ε'} {x : Except ε α} :
    (∃ e', x.mapError f = .error e') ↔ ∃ e, x = .error e := by
  cases x with
  | error e => exact iff_of_true ⟨f e, rfl⟩ ⟨e, rfl⟩
  | ok a => exact iff_of_false (by rintro ⟨_, ⟨⟩⟩) (by rintro ⟨_, ⟨⟩⟩)

theorem run_document (path : String) :
    (document path).run s p =
      match Path.uri s.around path with
      | .error e => (.error (.path e), p)
      | .ok uri =>
        let f := p.sources.fetch s.around.frames s.files s.config.extension uri
        (f.outcome.mapError .stack,
          { p with sources := f.sources, journal := p.journal ++ f.events }) := by
  simp only [document, uriOf, run_bind, run_read]
  cases Path.uri s.around path with
  | error e => rfl
  | ok uri =>
    simp only [run_pure, run_get, run_set]
    cases (p.sources.fetch s.around.frames s.files s.config.extension uri).outcome <;> rfl

theorem settles_document (path : String) : Settles s limited p (document path) := by
  cases form : Path.uri s.around path with
  | error e =>
    constructor
    · simp only [run_document, form]
      exact .refl p
    · intro p' later patience
      simp only [run_document, form, true_and]
      exact id
  | ok uri =>
    constructor
    · simp only [run_document, form]
      exact ⟨.single ⟨path, uri, form, rfl⟩, id⟩
    · intro p' later patience
      simp only [run_document, form] at later ⊢
      have same := SourceSet.outcome_eq_of_found (SourceSet.found_of_grows later)
      exact ⟨congrArg (Except.mapError QueryError.stack) same, SourceSet.sources_of_grows later, id⟩

theorem opens_document (path : String) : p.Opens s ((document path).run s p).2 :=
  (settles_document path : Settles s True p (document path)).opens

theorem settles_firstDocument (paths : List Path) : Settles s limited p (firstDocument paths) := by
  induction paths generalizing p with
  | nil => exact settles_pure none
  | cons path rest ih =>
    apply (settles_document _).bind
    intro found mid _
    cases found with
    | none => exact ih
    | some d => exact settles_pure (some d)

theorem settles_resolve (i : ImportRef) : Settles s limited p (resolve i) := by
  unfold resolve
  apply settles_read_bind
  apply settles_ite
  · refine settles_ite (Settles.bind (settles_throw _) fun _ _ _ => ?_) ?_
    all_goals
      apply (settles_firstDocument _).bind
      intro found mid _
      cases found with
      | none => exact (settles_log _).bind fun _ _ _ => settles_pure none
      | some d => exact settles_pure (some d)
  · exact (settles_log _).bind fun _ _ _ => settles_pure none

theorem settles_supported (i : ImportRef) : Settles s limited p (supported i) := by
  unfold supported
  apply settles_read_bind
  apply (settles_resolve i).bind
  intro found mid _
  cases found with
  | none => exact settles_pure none
  | some d =>
    exact settles_ite (settles_pure (some d))
      ((settles_log _).bind fun _ _ _ => settles_pure none)

/-- What the module of a built-in file brings is the same whether it has been used before
or not. -/
theorem run_builtInModule {module : String} {d : Document}
    (loaded : s.modules.document module = .ok d) :
    ∃ after, (after.sources = p.sources ∧ after.patience = p.patience) ∧
      (builtInModule module).run s p = (.ok (some ⟨.builtIn module, d⟩), after) := by
  simp only [builtInModule, run_bind, run_read, loaded, run_get]
  by_cases used : p.builtInsUsed.contains module = true
  · simp only [used, if_true]
    exact ⟨p, ⟨rfl, rfl⟩, rfl⟩
  · simp only [used]
    refine ⟨_, ?_, rfl⟩
    exact ⟨rfl, rfl⟩

theorem settles_builtInModule (module : String) :
    Settles s limited p (builtInModule module) := by
  cases loaded : s.modules.document module with
  | error e =>
    unfold builtInModule
    apply settles_read_bind
    simp only [loaded]
    exact settles_ite ((settles_log _).bind fun _ _ _ => settles_pure none) (settles_throw _)
  | ok d =>
    obtain ⟨after, ⟨sources, patience⟩, ran⟩ := run_builtInModule (s := s) (p := p) loaded
    refine ⟨by rw [ran]; exact ⟨sources ▸ .refl, patience.trans⟩, fun p' _ _ => ?_⟩
    obtain ⟨after', ⟨sources', patience'⟩, ran'⟩ := run_builtInModule (s := s) (p := p') loaded
    rw [ran, ran']
    exact ⟨rfl, sources', fun same => (patience'.trans same).trans patience.symm⟩

theorem settles_builtIn (path : String) : Settles s limited p (builtIn path) := by
  unfold builtIn
  apply settles_read_bind
  cases s.config.builtIns.lookup path with
  | none => exact settles_pure none
  | some module => exact settles_builtInModule module

/-- Where an import leads does not change within a query. -/
theorem settles_destination (i : ImportRef) : Settles s limited p (destination i) := by
  unfold destination
  apply settles_read_bind
  apply settles_ite
  · exact (settles_builtIn i.path).bind fun found _ _ => settles_pure _
  · exact (settles_supported i).bind fun found _ _ => settles_pure _

theorem replays_destination (i : ImportRef) : Replays s (destination i) := by
  intro p
  obtain ⟨opens, again⟩ : Settles s False p (destination i) := settles_destination i
  exact ⟨opens.grows, fun p' later => (again p' later.sources False.elim).1⟩

/-! ### What is found -/

variable {i : ImportRef} {d : Source}

theorem stored_of_document {path : String} (ran : (document path).run s p = (.ok (some d), p')) :
    p'.Stored d := by
  rw [run_document] at ran
  cases uri : Path.uri s.around path with
  | error e => simp [uri] at ran
  | ok u =>
    simp only [uri, Prod.mk.injEq] at ran
    obtain ⟨found, rfl⟩ := ran
    have found := SourceSet.fetch_found_eq_some_iff.mpr (mapError_eq_ok.mp found)
    exact ⟨u, by simp only [SourceSet.current?_fetch, if_pos, found]⟩

theorem stored_of_firstDocument {paths : List Path}
    (ran : (firstDocument paths).run s p = (.ok (some d), p')) : p'.Stored d := by
  induction paths generalizing p with
  | nil => cases ran
  | cons path rest ih =>
    obtain ⟨found, mid, first, second⟩ := run_bind_eq_ok ran
    cases found with
    | none => exact ih second
    | some d' =>
      cases second
      exact stored_of_document first

theorem stored_of_resolve (ran : (resolve i).run s p = (.ok (some d), p')) : p'.Stored d := by
  unfold resolve at ran
  obtain ⟨_, _, ⟨⟩, ran⟩ := run_bind_eq_ok ran
  split at ran
  · split at ran
    · obtain ⟨_, _, ⟨⟩, -⟩ := run_bind_eq_ok ran
    · obtain ⟨found, mid, first, second⟩ := run_bind_eq_ok ran
      cases found with
      | none => cases second
      | some d' =>
        cases second
        exact stored_of_firstDocument first
  · cases ran

theorem stored_of_supported (ran : (supported i).run s p = (.ok (some d), p')) : p'.Stored d := by
  unfold supported at ran
  obtain ⟨_, _, ⟨⟩, ran⟩ := run_bind_eq_ok ran
  obtain ⟨found, mid, first, second⟩ := run_bind_eq_ok ran
  cases found with
  | none => cases second
  | some d' =>
    simp only at second
    split at second
    · cases second
      exact stored_of_resolve first
    · cases second

/-- A file that an import leads to is among the documents that are kept. -/
theorem stored_of_destination
    (ran : (destination i).run s p = (.ok (some (.imported d)), p')) : p'.Stored d := by
  unfold destination at ran
  obtain ⟨_, _, ⟨⟩, ran⟩ := run_bind_eq_ok ran
  split at ran <;> obtain ⟨found, mid, first, second⟩ := run_bind_eq_ok ran
  · cases found <;> cases second
  · cases found with
    | none => cases second
    | some d' =>
      cases second
      exact stored_of_supported first

/-- The built-in file for a path is the one that its module carries. -/
theorem named_of_builtIn {path : String} (ran : (builtIn path).run s p = (.ok (some d), p')) :
    ∃ module doc, s.config.builtIns.lookup path = some module ∧
      s.modules.document module = .ok doc ∧ d = ⟨.builtIn module, doc⟩ := by
  unfold builtIn at ran
  obtain ⟨_, _, ⟨⟩, ran⟩ := run_bind_eq_ok ran
  cases named : s.config.builtIns.lookup path with
  | none =>
    simp only [named] at ran
    cases ran
  | some module =>
    simp only [named] at ran
    cases loaded : s.modules.document module with
    | error e =>
      unfold builtInModule at ran
      obtain ⟨_, _, ⟨⟩, ran⟩ := run_bind_eq_ok ran
      simp only [loaded] at ran
      split at ran <;> cases ran
    | ok doc =>
      obtain ⟨after, -, gives⟩ := run_builtInModule (s := s) (p := p) loaded
      rw [gives] at ran
      cases ran
      exact ⟨module, doc, rfl, loaded, rfl⟩

theorem loaded_of_builtIn {path : String} (ran : (builtIn path).run s p = (.ok (some d), p')) :
    ∃ module, d.id = .builtIn module ∧ s.modules.document module = .ok d.document := by
  obtain ⟨module, doc, -, loaded, rfl⟩ := named_of_builtIn ran
  exact ⟨module, rfl, loaded⟩

/-- An import leads to no built-in file but the one that it means. -/
theorem names_of_destination
    (ran : (destination i).run s p = (.ok (some (.builtIn d)), p')) : i.Names s d := by
  unfold destination at ran
  obtain ⟨_, _, ⟨⟩, ran⟩ := run_bind_eq_ok ran
  split at ran <;> obtain ⟨found, mid, first, second⟩ := run_bind_eq_ok ran
  · cases found with
    | none => cases second
    | some d' =>
      cases second
      exact named_of_builtIn first
  · cases found <;> cases second

/-- A built-in file is identified by its module, and is what the module carries. -/
theorem loaded_of_destination
    (ran : (destination i).run s p = (.ok (some (.builtIn d)), p')) :
    ∃ module, d.id = .builtIn module ∧ s.modules.document module = .ok d.document := by
  obtain ⟨module, doc, -, loaded, rfl⟩ := names_of_destination ran
  exact ⟨module, rfl, loaded⟩

end Query

end ProtoNames
