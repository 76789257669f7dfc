import ProtoNames.Proofs.AbsoluteNames
import ProtoNames.Proofs.Repetition

/-!
One file, one document.

* `Progress.Holds.eq_of_uri`: in every state that is reached, documents that are kept and
  built-in files are told apart by their paths. Absolute paths begin with a slash, and the
  paths of built-in files do not.
* `find_offers_once`: so a query never offers one declaration twice under one name, and the
  declarations of its own file are those of its own document, whichever way imports come back
  to it.
-/

namespace ProtoNames

variable {s : Setup} {p p' : Progress} {site : Element} {d d' : Source}

/-! ### Paths -/

theorem Path.head?_uri {around : Surroundings} {path u : String}
    (form : Path.uri around path = .ok u) : u.toList.head? = some '/' := by
  simp only [Path.uri] at form
  split at form
  · cases form
  · split at form
    · cases form
    · split at form
      · cases form
      · cases form
        simp

/-! ### Modules -/

namespace Builtin

/-- The modules carry files of paths that tell them apart, from each other and from all files
that are read: a compiler makes one module of each file, whose path is seen from the directory in
which the compiler looked for it. -/
structure Modules.AreApart (modules : Modules) : Prop where
  distinct : ∀ ⦃module module' f f'⦄, modules module = .ok f → modules module' = .ok f' →
    f.path = f'.path → module = module'
  relative : ∀ ⦃module f⦄, modules module = .ok f → f.path.toList.head? ≠ some '/'

theorem Modules.document_eq_ok {modules : Modules} {module : String} {doc : Document}
    (loaded : modules.document module = .ok doc) :
    ∃ f, modules module = .ok f ∧ doc = f.toDocument := by
  unfold document at loaded
  cases carried : modules module with
  | error e =>
    rw [carried] at loaded
    cases loaded
  | ok f =>
    rw [carried] at loaded
    cases loaded
    exact ⟨f, rfl, rfl⟩

theorem mem_files_of_wellKnown {module : String} {f : FileDescriptor}
    (carried : wellKnown module = .ok f) : (module, f) ∈ files := by
  unfold wellKnown at carried
  split at carried
  · cases carried
  · split at carried
    · cases carried
    · split at carried
      · cases carried
      · next found =>
        cases carried
        obtain ⟨before, after, split, -⟩ := List.lookup_eq_some_iff.mp found
        simp [split]
      · cases carried

/-- The modules of the built-in files are told apart. -/
theorem areApart_wellKnown : wellKnown.AreApart := by
  have distinct : ∀ e ∈ files, ∀ e' ∈ files, e.2.path = e'.2.path → e.1 = e'.1 := by
    decide +kernel
  have relative : ∀ e ∈ files, e.2.path.toList.head? ≠ some '/' := by decide +kernel
  constructor
  · intro module module' f f' carried carried' same
    exact distinct _ (mem_files_of_wellKnown carried) _ (mem_files_of_wellKnown carried') same
  · intro module f carried
    exact relative _ (mem_files_of_wellKnown carried)

end Builtin

/-! ### Documents -/

section Apart

variable (apart : s.modules.AreApart)

include apart

theorem Source.IsBuiltIn.eq_of_uri (h : d.IsBuiltIn s.modules) (h' : d'.IsBuiltIn s.modules)
    (same : d.document.uri = d'.document.uri) : d = d' := by
  obtain ⟨module, id, loaded⟩ := h
  obtain ⟨module', id', loaded'⟩ := h'
  obtain ⟨file, carried, document⟩ := Builtin.Modules.document_eq_ok loaded
  obtain ⟨file', carried', document'⟩ := Builtin.Modules.document_eq_ok loaded'
  rw [document, document'] at same
  obtain rfl : module = module' := apart.distinct carried carried' same
  rcases d with ⟨_, document⟩
  rcases d' with ⟨_, document'⟩
  cases id
  cases id'
  cases loaded.symm.trans loaded'
  rfl

/-- A document that is kept has a path of another form than the built-in files. -/
theorem Source.IsBuiltIn.uri_ne (reached : p.sources.Reached s) (h : d.IsBuiltIn s.modules)
    (stored : p.Stored d') : d.document.uri ≠ d'.document.uri := by
  obtain ⟨module, -, loaded⟩ := h
  obtain ⟨file, carried, document⟩ := Builtin.Modules.document_eq_ok loaded
  obtain ⟨u, known⟩ := stored
  obtain ⟨_, form⟩ := reached.absolute known
  intro same
  have path : file.path = u := by
    rw [document, reached.tidy.uri_eq known] at same
    exact same
  exact apart.relative carried (path ▸ Path.head?_uri form)

end Apart

/-- A document is at hand: it is kept, or a module carries it. -/
def Progress.Holds (p : Progress) (s : Setup) (d : Source) : Prop :=
  p.Stored d ∨ d.IsBuiltIn s.modules

namespace Progress.Holds

theorem grows (h : p.Holds s d) (later : p.Grows s p') : p'.Holds s d :=
  h.imp_left (·.grows later)

theorem available {given : List Source} (h : p.Holds s d) (accounted : p.sources.Accounted given) :
    d.IsAvailable s.modules given := by
  rcases h with ⟨u, known⟩ | builtIn
  · exact .inl (accounted.kept known)
  · exact .inr builtIn

/-- Documents that are kept and built-in files are told apart by their paths. -/
theorem eq_of_uri (apart : s.modules.AreApart) (reached : p.sources.Reached s)
    (h : p.Holds s d) (h' : p.Holds s d') (same : d.document.uri = d'.document.uri) : d = d' := by
  rcases h with stored | builtIn <;> rcases h' with stored' | builtIn'
  · obtain ⟨u, known⟩ := stored
    obtain ⟨u', known'⟩ := stored'
    rw [reached.tidy.uri_eq known, reached.tidy.uri_eq known'] at same
    subst same
    exact Option.some.inj (known.symm.trans known')
  · exact absurd same.symm (builtIn'.uri_ne apart reached stored)
  · exact absurd same (builtIn.uri_ne apart reached stored')
  · exact builtIn.eq_of_uri apart builtIn' same

/-- So their identities say no more than their paths. -/
theorem id_eq_iff (apart : s.modules.AreApart) (reached : p.sources.Reached s)
    (h : p.Holds s d) (h' : p.Holds s d') : d.id = d'.id ↔ d.document.uri = d'.document.uri := by
  constructor
  · intro same
    obtain ⟨given, history⟩ := reached.history
    rw [(h.available history.accounted).eq_of_id history.accounted
      (h'.available history.accounted) same]
  · intro same
    rw [h.eq_of_uri apart reached h' same]

end Progress.Holds

/-! ### Matches -/

/-- What there is to see of a match: its name, the file, and the place in the file. -/
def Match.place (m : Match) : String × String × List Step := (m.name, m.uri, m.element.steps)

/-- Whatever becomes of a query, it only looks for documents. -/
theorem opens_of_find {r : ReferenceKind} {c : Criteria} {result : Except QueryError (List Match)}
    (reached : p.sources.Reached s) (ran : (Query.find site r c).run s p = (result, p')) :
    p.Opens s p' := by
  obtain ⟨given, history⟩ := reached.history
  exact (Query.settles_find site r c history.accounted).opens_of_run ran

section Found

variable {r : ReferenceKind} {c : Criteria} {found : List Match}
  (reached : p.sources.Reached s) (held : p.Holds s site.source)
  (ran : (Query.find site r c).run s p = (.ok found, p'))

include reached held ran

/-- After a query the documents are at hand in which its matches stand. -/
theorem holds_of_mem_found : ∀ m ∈ found, p'.Holds s m.element.source := by
  obtain ⟨given, history⟩ := reached.history
  have known := (held.available history.accounted).known
  obtain ⟨w, visits, -, grows, contributing, rfl⟩ := find_ok history known ran
  rintro ⟨name, e⟩ member
  rcases List.mem_append.mp member with own | visited
  · rw [Wanted.source_of_mem_inOwn own]
    exact held.grows grows
  · obtain ⟨v, visit, seen⟩ := List.mem_flatMap.mp visited
    obtain ⟨-, rfl | rfl⟩ := Wanted.within_of_mem_inVisit seen
    · exact .inl (find_stored history known ran ((contributing.imported _).mp visit).2)
    · obtain ⟨i, -, leads⟩ := (contributing.builtIn _).mp visit
      exact .inr leads.loaded

/-- No two matches of a query have the same name, the same file and the same place in it. -/
theorem eq_of_place (apart : s.modules.AreApart) (attached : site.Attached) :
    ∀ m ∈ found, ∀ m' ∈ found, m.place = m'.place → m = m' := by
  obtain ⟨given, history⟩ := reached.history
  obtain ⟨_, -, within_⟩ :=
    place_of_mem_found history (held.available history.accounted) ran attached
  have opens := opens_of_find reached ran
  have reached' := reached.opens opens.sources
  rintro ⟨name, e⟩ member ⟨name', e'⟩ member' same
  simp only [Match.place, Match.uri, Prod.mk.injEq] at same
  obtain ⟨rfl, uri, steps⟩ := same
  have source : e.source = e'.source :=
    (holds_of_mem_found reached held ran _ member).eq_of_uri apart reached'
      (holds_of_mem_found reached held ran _ member') uri
  have place : e = e' := (within_ _ member).2.eq_of_steps (within_ _ member').2 source steps
  rw [place]

/-- What a query finds in its own file, it finds in its own document. -/
theorem within_of_uri (apart : s.modules.AreApart) (attached : site.Attached) : ∀ m ∈ found,
    m.uri = site.source.document.uri → (Element.ofSource site.source).Within m.element := by
  obtain ⟨given, history⟩ := reached.history
  obtain ⟨_, -, within_⟩ :=
    place_of_mem_found history (held.available history.accounted) ran attached
  have opens := opens_of_find reached ran
  intro m member uri
  have source : m.element.source = site.source :=
    (holds_of_mem_found reached held ran m member).eq_of_uri apart (reached.opens opens.sources)
      (held.grows opens.grows) uri
  rw [← source]
  exact (within_ m member).2

end Found

theorem Match.isSame_refl (m : Match) : m.isSame m = true := by
  simp [isSame, Element.isSame_refl]

/-- A declaration is never offered twice under one name: in a scope no two entries have the
same name, the same file and the same place in it. What stands in the file of the site is
offered as it stands in the site's own document. That holds in every state that is reached, for
every site in a document that was opened there, with any modules that are told apart. -/
theorem find_offers_once {r : ReferenceKind} {c : Criteria} {path : String} {p₁ p₂ : Progress}
    {scope : Scope} (apart : s.modules.AreApart) (reached : p.sources.Reached s)
    (opened : (Query.document path).run s p = (.ok (some site.source), p₁))
    (later : p₁.Opens s p₂) (attached : site.Attached)
    (ran : (Query.scopeOf site r c).run s p₂ = (.ok scope, p')) :
    (scope.entries.map Match.place).Nodup ∧
      ∀ m ∈ scope.entries, m.uri = site.source.document.uri →
        (Element.ofSource site.source).Within m.element := by
  have held : p₂.Holds s site.source :=
    .inl ((Query.stored_of_document opened).grows later.grows)
  have reached₂ : p₂.sources.Reached s := by
    have opens := Query.opens_document (s := s) (p := p) path
    rw [opened] at opens
    exact reached.opens (opens.trans later).sources
  obtain ⟨found, mid, ran, built⟩ := Query.run_bind_eq_ok ran
  cases built
  have mem_found : ∀ m ∈ (Scope.ofMatches found).entries, m ∈ found := by
    obtain ⟨given, history⟩ := reached₂.history
    have available := held.available history.accounted
    exact fun m => (mem_entries history available ran attached).mp
  constructor
  · apply (nodup_distinct Match.isSame_refl).map_on
    intro m member m' member' same
    exact eq_of_place reached₂ held ran apart attached m (mem_found m member) m'
      (mem_found m' member') same
  · intro m member
    exact within_of_uri reached₂ held ran apart attached m (mem_found m member)

/-- Files that import each other, themselves, and one file in several ways. -/
def tangledFiles : FileStore where
  entries := [
    ("/a.proto", ("import 'b.proto'; import 'x/../b.proto'; import 'a.proto'; " ++
      "import public './c.proto'; message A { }").toUTF8.toList),
    ("/b.proto", "import public 'c.proto'; import public '/a.proto'; message B { }".toUTF8.toList),
    ("/c.proto", "import public 'b.proto'; message C { }".toUTF8.toList)]

/-- What happened before: a text stood in place of one file, and another file was opened. -/
def tangledOperations : List Operation :=
  [.request "/b.proto" (.overlay "message Old { }"), .request "c.proto" .fetch,
    .request "/y/../b.proto" .invalidate]

/-- The state after that. -/
def tangledWorkspace : Workspace SourceSet :=
  (SourceSet.keeper.run .plain schemaExtension ⟨.empty, tangledFiles⟩ tangledOperations).2

/-- Looking up with the files that there are then. -/
def tangledSetup : Setup := .plain tangledWorkspace.files

theorem tangledWorkspace_reached : tangledWorkspace.documents.Reached tangledSetup :=
  ⟨tangledFiles, tangledOperations, rfl⟩

/-- The first file is opened. -/
def tangledOpened : Except QueryError (Option Source) × Progress :=
  (Query.document "a.proto").run tangledSetup ⟨tangledWorkspace.documents, [], [], none⟩

/-- The types that are offered in a document. -/
def tangledScope (start : Source) : Except QueryError Scope × Progress :=
  (Query.scopeOf (.ofSource start) .type .anyType).run tangledSetup tangledOpened.2

/-- Each message of the files is offered once. -/
theorem find_offers_once_tangled : ∃ start scope,
    tangledOpened.1 = .ok (some start) ∧ (tangledScope start).1 = .ok scope ∧
    scope.entries.map Match.place =
      [("A", "/a.proto", [.child 4]), ("B", "/b.proto", [.child 2]), ("C", "/c.proto", [.child 1])] ∧
    (scope.entries.map Match.place).Nodup ∧
    ∀ m ∈ scope.entries, m.uri = start.document.uri → (Element.ofSource start).Within m.element := by
  have facts : tangledOpened.1.toOption.bind (fun found => found.bind fun start =>
      (tangledScope start).1.toOption.map fun scope => scope.entries.map Match.place) =
      some [("A", "/a.proto", [.child 4]), ("B", "/b.proto", [.child 2]),
        ("C", "/c.proto", [.child 1])] := by decide +kernel
  obtain ⟨found, opened, facts⟩ := Option.bind_eq_some_iff.mp facts
  obtain ⟨start, rfl, facts⟩ := Option.bind_eq_some_iff.mp facts
  obtain ⟨scope, returned, places⟩ := Option.map_eq_some_iff.mp facts
  have opened := Query.eq_ok_of_toOption opened
  have returned := Query.eq_ok_of_toOption returned
  have opens : (Query.document "a.proto").run tangledSetup
      ⟨tangledWorkspace.documents, [], [], none⟩ =
        (.ok (some (Element.ofSource start).source), tangledOpened.2) := Prod.ext opened rfl
  have ran : (Query.scopeOf (.ofSource start) .type .anyType).run tangledSetup tangledOpened.2 =
      (.ok scope, (tangledScope start).2) := Prod.ext returned rfl
  exact ⟨start, scope, opened, returned, places,
    find_offers_once Builtin.areApart_wellKnown tangledWorkspace_reached opens (.refl _)
      (.document start) ran⟩

end ProtoNames
