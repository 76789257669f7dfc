import ProtoNames.Proofs.Expansion
import ProtoNames.Scope.Scope

/-!
What a query finds, by the files that its document sees.

`find_sees` is about every run: the matches are those of the site's own document and those of
the files that it sees by the re-export rule, and a query that finds nothing out has been
given criteria that make no sense, was cancelled, or met an import that could not be looked
for.
-/

namespace ProtoNames

variable {s : Setup} {p p' : Progress} {given : List Source}

namespace Query

theorem ofCriteria_cases {α : Type} (criteria : Except CriteriaError α) :
    (∃ a, criteria = .ok a ∧ (ofCriteria criteria).run s p = (.ok a, p)) ∨
    (∃ e, criteria = .error e ∧ (ofCriteria criteria).run s p = (.error (.criteria e), p)) := by
  cases criteria with
  | ok a => exact .inl ⟨a, rfl, rfl⟩
  | error e => exact .inr ⟨e, rfl, rfl⟩

/-- Checks alone are passed, or the query is given up. -/
theorem checks_cases {α : Type} (s : Setup) (p : Progress) (times : List α) :
    ∃ p', p.Grows s p' ∧ ((times.forM fun _ => check).run s p = (.ok (), p') ∨
      p.patience ≠ none ∧ (times.forM fun _ => check).run s p = (.error .cancelled, p')) := by
  induction times generalizing p with
  | nil => exact ⟨p, .refl p, .inl rfl⟩
  | cons _ rest ih =>
    simp only [List.forM, run_bind]
    obtain ⟨p₁, grows₁, passed | ⟨impatient, cancelled⟩⟩ := check_cases s p
    · rw [passed]
      obtain ⟨p₂, grows₂, passed | ⟨impatient, cancelled⟩⟩ := ih p₁
      · exact ⟨p₂, grows₁.trans grows₂, .inl passed⟩
      · have impatient₁ : p.patience ≠ none := fun none => impatient (grows₁.patience none)
        exact ⟨p₂, grows₁.trans grows₂, .inr ⟨impatient₁, cancelled⟩⟩
    · rw [cancelled]
      exact ⟨p₁, grows₁, .inr ⟨impatient, rfl⟩⟩

/-- The files that a document sees are expanded within the budget that they are given. -/
theorem visits_expands (start : Source) (accounted : p.sources.Accounted given) :
    Expands s p [(start.id, true)] (ImportRef.ofDocument start.document)
      ((visits start).run s p) := by
  simp only [visits, run_bind, run_read, run_get]
  apply expand_expands (Progress.grounded accounted)
  rw [← Progress.length_uris]
  exact Visited.credit_le _

/-- A query first looks at its criteria, then at whether it goes on, and then for the files
that its document sees. -/
theorem find_cases (site : Element) (r : ReferenceKind) (c : Criteria)
    (accounted : p.sources.Accounted given) :
    (∃ e, Wanted.ofCriteria r c = .error e ∧ (find site r c).run s p = (.error (.criteria e), p)) ∨
    (∃ p', p.Grows s p' ∧ p.patience ≠ none ∧ (find site r c).run s p = (.error .cancelled, p')) ∨
    (∃ wanted p₁ given' out, Wanted.ofCriteria r c = .ok wanted ∧ p.Grows s p₁ ∧
      given ⊆ given' ∧ p₁.sources.Accounted given' ∧
      Expands s p₁ [(site.source.id, true)] (ImportRef.ofDocument site.source.document) out ∧
      (find site r c).run s p =
        (out.1.map fun seen => wanted.inOwn site ++
          seen.flatMap (wanted.inVisit site.source.document.packagePath), out.2)) := by
  simp only [find, run_bind]
  rcases ofCriteria_cases (s := s) (p := p) (Wanted.ofCriteria r c) with
    ⟨wanted, sensible, ran⟩ | ⟨e, senseless, ran⟩
  · obtain ⟨p₁, grows, passed | ⟨impatient, cancelled⟩⟩ := checks_cases s p site.scopes
    · obtain ⟨given', more, accounted₁⟩ := accounted.grows grows.sources
      have expands := visits_expands (s := s) site.source accounted₁
      refine .inr (.inr ⟨wanted, p₁, given', _, sensible, grows, more, accounted₁, expands, ?_⟩)
      simp only [ran, passed]
      rcases (visits site.source).run s p₁ with ⟨_ | _, _⟩ <;> rfl
    · refine .inr (.inl ⟨p₁, grows, impatient, ?_⟩)
      simp only [ran, cancelled]
  · exact .inl ⟨e, senseless, by rw [ran]⟩

end Query

/-- The files that contribute to what is found from a document: those that it sees, except
itself, and the built-in files behind the imports that count. -/
structure Contributing (s : Setup) (p : Progress) (start : Source) (visits : List Visit) :
    Prop where
  imported : ∀ d, .imported d ∈ visits ↔ d ≠ start ∧ start.Sees s p d
  builtIn : ∀ b, .builtIn b ∈ visits ↔
    ∃ i : ImportRef, i.CountsFor s p start ∧ i.LeadsTo s p (.builtIn b)

/-- Once a document's imports are expanded, those that passed through the queue are the ones
that count. A file that leads back to the document is the document itself. -/
theorem Expands.queued_iff {start : Source} {visits : List Visit}
    (accounted : p.sources.Accounted given)
    (known : ∀ n, start.id = .reading n → start ∈ given)
    (h : Expands s p [(start.id, true)] (ImportRef.ofDocument start.document) (.ok visits, p')) :
    (∀ (i : ImportRef) d, i.CountsFor s p' start → i.LeadsTo s p' (.imported d) →
        d.id = start.id → d = start) ∧
      ∀ i, Queued s p' [(start.id, true)] (ImportRef.ofDocument start.document) i ↔
        i.CountsFor s p' start := by
  obtain ⟨later, stored, -, -⟩ := h
  obtain ⟨given', more, accounted'⟩ := accounted.grows later.sources
  have itself : ∀ i d, Queued s p' [(start.id, true)] (ImportRef.ofDocument start.document) i →
      i.LeadsTo s p' (.imported d) → d.id = start.id → d = start := by
    intro i d queued leads same
    obtain ⟨u, kept⟩ := stored i d queued leads
    obtain ⟨n, -, numbered⟩ := accounted'.numbered d (accounted'.kept kept)
    exact accounted'.distinct d (accounted'.kept kept) start
      (more (known n (same.symm.trans numbered))) same
  refine ⟨fun i d counting => itself i d ((queued_iff_countsFor itself).mpr counting), ?_⟩
  intro i
  exact queued_iff_countsFor itself

/-- The expansion of a document's imports gives the files that contribute. -/
theorem Expands.contributing {start : Source} {visits : List Visit}
    (accounted : p.sources.Accounted given)
    (known : ∀ n, start.id = .reading n → start ∈ given)
    (h : Expands s p [(start.id, true)] (ImportRef.ofDocument start.document) (.ok visits, p')) :
    Contributing s p' start visits := by
  obtain ⟨itself, counts⟩ := h.queued_iff accounted known
  obtain ⟨-, -, -, exact_⟩ := h
  constructor
  · intro d
    rw [exact_, sees_iff]
    have isNew : Visited.isNew [(start.id, true)] (.imported d) ↔ d.id ≠ start.id := by
      simp [Visited.isNew]
    rw [isNew]
    constructor
    · rintro ⟨other, i, queued, leads⟩
      exact ⟨fun same => other (congrArg Source.id same), i, (counts i).mp queued, leads⟩
    · rintro ⟨other, i, counting, leads⟩
      exact ⟨fun same => other (itself i d counting leads same), i, (counts i).mpr counting, leads⟩
  · intro b
    rw [exact_]
    constructor
    · rintro ⟨-, i, queued, leads⟩
      exact ⟨i, (counts i).mp queued, leads⟩
    · rintro ⟨i, counting, leads⟩
      exact ⟨trivial, i, (counts i).mpr counting, leads⟩

/-- Once a document's imports are expanded, what they lead to is kept, and none of them fails. -/
theorem Expands.settled {start : Source} {visits : List Visit} {i : ImportRef}
    (accounted : p.sources.Accounted given)
    (known : ∀ n, start.id = .reading n → start ∈ given)
    (h : Expands s p [(start.id, true)] (ImportRef.ofDocument start.document) (.ok visits, p'))
    (counting : i.CountsFor s p' start) :
    (∀ d, i.LeadsTo s p' (.imported d) → p'.Stored d) ∧ ∀ e, ¬ i.Fails s p' e := by
  have queued := ((h.queued_iff accounted known).2 i).mpr counting
  obtain ⟨-, stored, succeed, -⟩ := h
  exact ⟨fun d => stored i d queued, fun e => succeed i e queued⟩

section Find

variable {site : Element} {r : ReferenceKind} {c : Criteria} {found : List Match} {e : QueryError}

/-- What a query finds is made up of the document's own matches and of what the files that it
sees contribute. -/
theorem find_ok (history : p.sources.History given)
    (known : ∀ n, site.source.id = .reading n → site.source ∈ given)
    (ran : (Query.find site r c).run s p = (.ok found, p')) :
    ∃ wanted visits, Wanted.ofCriteria r c = .ok wanted ∧ p.Grows s p' ∧
      Contributing s p' site.source visits ∧
      found = wanted.inOwn site ++
        visits.flatMap (wanted.inVisit site.source.document.packagePath) := by
  rcases Query.find_cases site r c history.accounted with
    ⟨e, -, ran'⟩ | ⟨_, -, -, ran'⟩ |
      ⟨wanted, p₁, given', ⟨result, after⟩, sensible, grows, more, accounted, expands, ran'⟩
  · cases ran.symm.trans ran'
  · cases ran.symm.trans ran'
  · cases result with
    | error e => cases ran.symm.trans ran'
    | ok visits =>
      cases ran.symm.trans ran'
      have contributing := expands.contributing accounted fun n read => more (known n read)
      exact ⟨wanted, visits, sensible, grows.trans expands.1, contributing, rfl⟩

/-- Once a query has returned, all documents that its own one sees are kept. -/
theorem find_stored {d : Source} (history : p.sources.History given)
    (known : ∀ n, site.source.id = .reading n → site.source ∈ given)
    (ran : (Query.find site r c).run s p = (.ok found, p')) (sees : site.source.Sees s p' d) :
    p'.Stored d := by
  obtain ⟨i, counting, leads⟩ := sees_iff.mp sees
  rcases Query.find_cases site r c history.accounted with
    ⟨e, -, ran'⟩ | ⟨_, -, -, ran'⟩ |
      ⟨wanted, p₁, given', ⟨result, after⟩, -, -, more, accounted, expands, ran'⟩
  · cases ran.symm.trans ran'
  · cases ran.symm.trans ran'
  · cases result with
    | error e => cases ran.symm.trans ran'
    | ok visits =>
      cases ran.symm.trans ran'
      exact (expands.settled accounted (fun n read => more (known n read)) counting).1 d leads

/-- Once a query has returned, no import that counts for its document fails. -/
theorem find_succeeds {i : ImportRef} (history : p.sources.History given)
    (known : ∀ n, site.source.id = .reading n → site.source ∈ given)
    (ran : (Query.find site r c).run s p = (.ok found, p'))
    (counting : i.CountsFor s p' site.source) : ¬ i.Fails s p' e := by
  rcases Query.find_cases site r c history.accounted with
    ⟨e, -, ran'⟩ | ⟨_, -, -, ran'⟩ |
      ⟨wanted, p₁, given', ⟨result, after⟩, -, -, more, accounted, expands, ran'⟩
  · cases ran.symm.trans ran'
  · cases ran.symm.trans ran'
  · cases result with
    | error e => cases ran.symm.trans ran'
    | ok visits =>
      cases ran.symm.trans ran'
      exact (expands.settled accounted (fun n read => more (known n read)) counting).2 e

/-- A query fails because of its criteria, because it was cancelled, or because of an import
that counts. -/
theorem find_error (history : p.sources.History given)
    (ran : (Query.find site r c).run s p = (.error e, p')) :
    (∃ senseless, Wanted.ofCriteria r c = .error senseless ∧ e = .criteria senseless) ∨
    (e = .cancelled ∧ p.patience ≠ none) ∨
    ∃ i : ImportRef, i.CountsFor s p' site.source ∧ i.Fails s p' e := by
  rcases Query.find_cases site r c history.accounted with
    ⟨_, senseless, ran'⟩ | ⟨_, -, impatient, ran'⟩ |
      ⟨wanted, p₁, -, ⟨result, after⟩, -, grows, -, -, expands, ran'⟩
  · cases ran.symm.trans ran'
    exact .inl ⟨_, senseless, rfl⟩
  · cases ran.symm.trans ran'
    exact .inr (.inl ⟨rfl, impatient⟩)
  · cases result with
    | ok visits => cases ran.symm.trans ran'
    | error _ =>
      cases ran.symm.trans ran'
      obtain ⟨-, ⟨cancelled, impatient⟩ | ⟨i, queued, fails⟩⟩ := expands
      · exact .inr (.inl ⟨cancelled, fun none => impatient (grows.patience none)⟩)
      · exact .inr (.inr ⟨i, queued.countsFor, fails⟩)

/-- Import visibility is the re-export rule, on every run of a query. -/
theorem find_sees (site : Element) (r : ReferenceKind) (c : Criteria)
    (history : p.sources.History given)
    (known : ∀ n, site.source.id = .reading n → site.source ∈ given) :
    match (Query.find site r c).run s p with
    | (.ok found, p') =>
      ∃ wanted visits, Wanted.ofCriteria r c = .ok wanted ∧
        Contributing s p' site.source visits ∧
        found = wanted.inOwn site ++
          visits.flatMap (wanted.inVisit site.source.document.packagePath)
    | (.error e, p') =>
      (∃ senseless, Wanted.ofCriteria r c = .error senseless ∧ e = .criteria senseless) ∨
      (e = .cancelled ∧ p.patience ≠ none) ∨
      ∃ i : ImportRef, i.CountsFor s p' site.source ∧ i.Fails s p' e := by
  cases ran : (Query.find site r c).run s p with
  | mk result p' =>
    cases result with
    | error e => exact find_error history ran
    | ok found =>
      obtain ⟨wanted, visits, sensible, -, contributing, found⟩ := find_ok history known ran
      exact ⟨wanted, visits, sensible, contributing, found⟩

end Find

theorem ImportRef.LeadsTo.ran {i : ImportRef} {v : Visit} (leads : i.LeadsTo s p v) :
    ∃ after, (Query.destination i).run s p = (.ok (some v), after) ∧ p.Grows s after := by
  refine ⟨_, Prod.ext leads rfl, ?_⟩
  exact (Query.replays_destination i p).1

/-- What a document sees has been read. -/
theorem Source.Sees.read {start d : Source} (sees : start.Sees s p d)
    (accounted : p.sources.Accounted given) :
    (∃ n, d.id = .reading n) ∧
      ∃ frames uri text, Document.parse frames uri text = .ok d.document := by
  obtain ⟨i, -, leads⟩ := sees_iff.mp sees
  obtain ⟨after, ran, grows⟩ := leads.ran
  obtain ⟨u, kept⟩ := Query.stored_of_destination ran
  obtain ⟨given', -, accounted'⟩ := accounted.grows grows.sources
  have member := accounted'.kept kept
  obtain ⟨n, -, numbered⟩ := accounted'.numbered d member
  exact ⟨⟨n, numbered⟩, accounted'.parsed d member⟩

/-- What an import of a built-in file leads to is identified by its module, which carries it. -/
theorem ImportRef.LeadsTo.loaded {i : ImportRef} {b : Source}
    (leads : i.LeadsTo s p (.builtIn b)) :
    ∃ module, b.id = .builtIn module ∧ s.modules.document module = .ok b.document := by
  obtain ⟨after, ran, -⟩ := leads.ran
  exact Query.loaded_of_destination ran

theorem ImportRef.LeadsTo.id_of_builtIn {i : ImportRef} {b : Source}
    (leads : i.LeadsTo s p (.builtIn b)) : ∃ module, b.id = .builtIn module := by
  obtain ⟨module, id, -⟩ := leads.loaded
  exact ⟨module, id⟩

/-- Four files in the root directory. The first three are a ring, in which the second and the
third pass on what they import publicly. -/
def ringFiles : FileStore where
  entries := [
    ("/a.proto", "import 'b.proto'; message A { }".toUTF8.toList),
    ("/b.proto", "import public 'c.proto'; message B { }".toUTF8.toList),
    ("/c.proto", "import public 'a.proto'; import 'd.proto'; message C { }".toUTF8.toList),
    ("/d.proto", "message D { }".toUTF8.toList)]

/-- The ring with the first file read, for look-ups that are not strict. -/
def ringSetup : Setup :=
  { Setup.plain ringFiles with config := { Config.default with strict := false } }

/-- Reading the first file of the ring. -/
def ringStart : Fetch :=
  SourceSet.empty.fetch Surroundings.plain.frames ringFiles schemaExtension "/a.proto"

/-- The first file of the ring sees the second and, passed on by it, the third. -/
theorem find_sees_ring : ∃ start found p',
    ringStart.found = some start ∧
    (Query.find (.ofSource start) .type .anyType).run ringSetup ⟨ringStart.sources, [], [], none⟩ =
      (.ok found, p') ∧
    found.map Match.name = ["A", "B", "C"] ∧
    ∃ wanted visits, Wanted.ofCriteria .type .anyType = .ok wanted ∧
      Contributing ringSetup p' start visits ∧
      found = wanted.inOwn (.ofSource start) ++
        visits.flatMap (wanted.inVisit start.document.packagePath) := by
  have names : ringStart.found.map (fun start =>
      ((Query.find (.ofSource start) .type .anyType).run ringSetup
        ⟨ringStart.sources, [], [], none⟩).1.toOption.map (List.map Match.name)) =
      some (some ["A", "B", "C"]) := by decide +kernel
  cases opened : ringStart.found with
  | none => simp [opened] at names
  | some start =>
    have history : SourceSet.History ringStart.sources (ringStart.found.toList ++ []) :=
      .fetch _ ringFiles schemaExtension "/a.proto" .start
    have spec := find_sees (s := ringSetup) (p := ⟨ringStart.sources, [], [], none⟩)
      (.ofSource start) .type .anyType history (fun _ _ => by simp [opened, Element.ofSource])
    rw [opened] at names
    cases ran : (Query.find (.ofSource start) .type .anyType).run ringSetup
        ⟨ringStart.sources, [], [], none⟩ with
    | mk result p' =>
      rw [ran] at spec
      simp only [Option.map_some, ran] at names
      cases result with
      | error e => simp [Except.toOption] at names
      | ok found =>
        refine ⟨start, found, p', rfl, ran, ?_, spec⟩
        simpa [Except.toOption] using names

end ProtoNames
