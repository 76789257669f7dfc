import ProtoNames.Proofs.Paths
import ProtoNames.Proofs.Visibility

/-!
Imports that lead nowhere, and what they do to a query.

* `NoSchema` gives the reasons for which nothing is read at a path. A search goes on behind such
  a path, up to the first where there is something (`firstDocument_answer`).
* At a path that has no absolute form, or whose file there is no room to read, the search ends,
  and the query with it. An import is `IsAstray` if its search comes to such a path
  (`exists_fails_iff`).
* `find_returns_iff`: a query returns if and only if no import that counts is astray. Then it
  has all matches of its own document and of the imports that are found, whatever became of
  the others.
-/

namespace ProtoNames

variable {s : Setup} {p p' : Progress} {given : List Source} {i : ImportRef} {d : Source}
  {path : Path} {paths : List Path} {sources : SourceSet}

/-! ### Paths at which nothing is read -/

/-- Why there is no schema at an absolute path. -/
inductive FileStore.NoSchema (files : FileStore) (frames : Nat) (extension uri : String) : Prop
  | otherExtension : endsIn uri extension = false → NoSchema files frames extension uri
  | missing : files.bytes? uri = none → NoSchema files frames extension uri
  | noText {bytes : List UInt8} {error : Text.Utf8Error} : files.bytes? uri = some bytes →
      fileText bytes = .error error → NoSchema files frames extension uri
  | malformed {bytes : List UInt8} {text : String} {error : ParseError} :
      files.bytes? uri = some bytes → fileText bytes = .ok text →
      Document.parse frames uri text = .error (.refused error) →
      NoSchema files frames extension uri

/-- Where no schema can be read, there is none, or no room to read it. -/
theorem FileStore.schema?_eq_none_iff {files : FileStore} {frames : Nat} {extension uri : String} :
    files.schema? frames extension uri = none ↔
      files.NoSchema frames extension uri ∨ files.IsTooDeep frames extension uri := by
  constructor
  · intro none
    unfold schema? at none
    split at none
    · next suffix =>
      cases present : files.bytes? uri with
      | none => exact .inl (.missing present)
      | some bytes =>
        cases read : fileText bytes with
        | error error => exact .inl (.noText present read)
        | ok text =>
          rcases parsed : Document.parse frames uri text with (error | _) | doc
          · exact .inl (.malformed present read parsed)
          · exact .inr ⟨suffix, bytes, text, present, read, parsed⟩
          · simp [present, read, parsed, Except.toOption] at none
    · next other => exact .inl (.otherExtension (Bool.eq_false_iff.mpr other))
  · rintro (reason | tooDeep)
    · unfold schema?
      cases reason with
      | otherExtension other => simp [other]
      | missing absent => simp [absent]
      | noText present read => simp [present, read, Except.toOption]
      | malformed present read parsed => simp [present, read, parsed, Except.toOption]
    · exact tooDeep.schema?_eq_none

/-- A file that there is no room to read may be a schema for all that is known. -/
theorem FileStore.NoSchema.not_isTooDeep {files : FileStore} {frames : Nat}
    {extension uri : String} (reason : files.NoSchema frames extension uri) :
    ¬ files.IsTooDeep frames extension uri := by
  rintro ⟨suffix, bytes, text, present, read, tooDeep⟩
  cases reason with
  | otherExtension other => simp [other] at suffix
  | missing absent => simp [absent] at present
  | noText present' read' =>
    cases present.symm.trans present'
    simp [read] at read'
  | malformed present' read' parsed =>
    cases present.symm.trans present'
    cases read.symm.trans read'
    simp [tooDeep] at parsed

namespace Path

/-- There is nothing at a path: no document has been read there, and there is no schema. -/
def Bare (path : Path) (s : Setup) (sources : SourceSet) : Prop :=
  ∃ uri, Path.uri s.around path.toString = .ok uri ∧ sources.current? uri = none ∧
    s.files.NoSchema s.around.frames s.config.extension uri

/-- There is a file at a path that has not been read, and no room to read it. -/
def TooDeep (path : Path) (s : Setup) (sources : SourceSet) : Prop :=
  ∃ uri, Path.uri s.around path.toString = .ok uri ∧ sources.current? uri = none ∧
    s.files.IsTooDeep s.around.frames s.config.extension uri

/-- What is given to whoever asks for the document at a path. -/
def answer (path : Path) (s : Setup) (sources : SourceSet) : Except QueryError (Option Source) :=
  match Path.uri s.around path.toString with
  | .error e => .error (.path e)
  | .ok uri =>
    (sources.fetch s.around.frames s.files s.config.extension uri).outcome.mapError .stack

theorem bare_iff : path.Bare s sources ↔ path.answer s sources = .ok none := by
  unfold Bare answer
  cases Path.uri s.around path.toString with
  | error e => simp
  | ok uri =>
    simp only [Except.ok.injEq, exists_eq_left', Query.mapError_eq_ok]
    rcases SourceSet.fetch_cases sources s.around.frames s.files s.config.extension uri with
      ⟨d, known, eq⟩ | ⟨unknown, unreadable, _, _, eq, ⟨rfl, room⟩ | ⟨rfl, tooDeep⟩⟩ |
        ⟨doc, unknown, readable, eq⟩
    · simp [eq, known]
    · simpa [eq, unknown, room] using FileStore.schema?_eq_none_iff.mp unreadable
    · simp only [eq, reduceCtorEq, iff_false]
      exact fun bare => bare.2.not_isTooDeep tooDeep
    · simp only [eq, Except.ok.injEq, reduceCtorEq, iff_false]
      rintro ⟨-, reason⟩
      exact absurd (readable.symm.trans (FileStore.schema?_eq_none_iff.mpr (.inl reason))) (by simp)

/-- A path that ends all search: it has no absolute form, because it begins in the home directory
of no user, holds a null character, or leads into a circle of links, or else there is no room to
read the file there. -/
def IsAstray (path : Path) (s : Setup) (sources : SourceSet) : Prop :=
  path.InForeignHome s.around ∨ path.HoldsNull ∨ path.InCircle s.around ∨ path.TooDeep s sources

theorem isAstray_iff (clean : path.Clean) :
    path.IsAstray s sources ↔ ∃ error, path.answer s sources = .error error := by
  have lost : path.IsAstray s sources ↔
      (∃ e, Path.uri s.around path.toString = .error e) ∨ path.TooDeep s sources := by
    rw [uri_eq_error_iff clean, IsAstray, or_assoc, or_assoc]
  rw [lost, TooDeep, answer]
  cases Path.uri s.around path.toString with
  | error e => simp
  | ok uri =>
    have : Nonempty StackError := ⟨.exhausted⟩
    simp [Query.exists_mapError_eq_error, SourceSet.fetch_outcome_eq_error_iff]

end Path

/-- A search through a list of paths comes to one of them: there is nothing at those before
it. -/
inductive SearchReaches (s : Setup) (sources : SourceSet) : List Path → Path → Prop
  | here {path : Path} {rest : List Path} : SearchReaches s sources (path :: rest) path
  | further {other path : Path} {rest : List Path} : other.Bare s sources →
      SearchReaches s sources rest path → SearchReaches s sources (other :: rest) path

theorem searchReaches_cons {other : Path} : SearchReaches s sources (other :: paths) path ↔
    path = other ∨ other.Bare s sources ∧ SearchReaches s sources paths path := by
  constructor
  · intro reached
    cases reached with
    | here => exact .inl rfl
    | further bare reached => exact .inr ⟨bare, reached⟩
  · rintro (rfl | ⟨bare, reached⟩)
    · exact .here
    · exact .further bare reached

theorem SearchReaches.mem (reached : SearchReaches s sources paths path) : path ∈ paths := by
  induction reached with
  | here => exact List.mem_cons_self
  | further _ _ ih => exact List.mem_cons_of_mem _ ih

namespace Query

/-- Asking for a document changes the sources only if there is one. -/
theorem run_document_answer (path : Path) (s : Setup) (p : Progress) :
    ∃ p', (document path.toString).run s p = (path.answer s p.sources, p') ∧
      (path.Bare s p.sources → p'.sources = p.sources) := by
  rw [run_document, Path.answer]
  cases form : Path.uri s.around path.toString with
  | error e => exact ⟨p, rfl, fun _ => rfl⟩
  | ok uri =>
    refine ⟨_, rfl, ?_⟩
    rintro ⟨uri', form', unknown, none⟩
    cases Except.ok.inj (form.symm.trans form')
    exact (SourceSet.fetch_of_unreadable unknown
      (FileStore.schema?_eq_none_iff.mpr (.inl none))).1

/-- A search ends with the answer at the first path where there is anything. -/
theorem firstDocument_answer (paths : List Path) (s : Setup) (p : Progress)
    {given : Except QueryError (Option Source)} (something : given ≠ .ok none) :
    ((firstDocument paths).run s p).1 = given ↔
      ∃ path, SearchReaches s p.sources paths path ∧ path.answer s p.sources = given := by
  induction paths generalizing p with
  | nil =>
    refine iff_of_false something.symm ?_
    rintro ⟨path, reached, -⟩
    cases reached
  | cons path rest ih =>
    unfold firstDocument
    rw [run_bind]
    obtain ⟨p', ran, same⟩ := run_document_answer path s p
    rw [ran]
    simp only [searchReaches_cons, or_and_right, exists_or, exists_eq_left]
    by_cases bare : path.Bare s p.sources
    · have onwards := ih p'
      rw [same bare] at onwards
      rw [Path.bare_iff.mp bare]
      simp only [bare, true_and, something.symm, false_or]
      exact onwards
    · simp only [bare, false_and, exists_false, or_false]
      cases answered : path.answer s p.sources with
      | error e => rfl
      | ok found =>
        cases found with
        | none => exact absurd (Path.bare_iff.mpr answered) bare
        | some d => rfl

end Query

/-! ### Imports -/

namespace Query

/-- Nothing but its resolution makes an import fail whose dialect is looked at. -/
theorem run_supported (i : ImportRef) (s : Setup) (p : Progress) :
    ((supported i).run s p).1 = ((resolve i).run s p).1.map fun found =>
      found.filter fun d => s.config.supports d.document := by
  unfold supported
  rw [run_bind, run_read]
  simp only [run_bind]
  rcases (resolve i).run s p with ⟨_ | _ | d, after⟩
  · rfl
  · rfl
  · cases counts : s.config.supports d.document with
    | true =>
      simp only [counts, if_true, run_pure]
      simp [Except.map, Option.filter, counts]
    | false =>
      simp only [counts, Bool.false_eq_true, if_false, run_bind, run_log, run_pure]
      simp [Except.map, Option.filter, counts]

end Query

namespace ImportRef

/-- An import looks for its file at a path. -/
def Tries (i : ImportRef) (s : Setup) (sources : SourceSet) (path : Path) : Prop :=
  i.isBuiltIn s.config = false ∧ endsIn i.path s.config.extension = true ∧
    SearchReaches s sources (i.candidatePaths s.config) path

/-- An import looks for its file at a path that ends all search. -/
def IsAstray (i : ImportRef) (s : Setup) (sources : SourceSet) : Prop :=
  ∃ path, i.Tries s sources path ∧ path.IsAstray s sources

/-- An import finds a document, and its dialect is supported. -/
def Finds (i : ImportRef) (s : Setup) (sources : SourceSet) (d : Source) : Prop :=
  ∃ path, i.Tries s sources path ∧ path.answer s sources = .ok (some d) ∧
    s.config.supports d.document = true

theorem clean_of_mem_candidatePaths (h : path ∈ i.candidatePaths s.config) : path.Clean := by
  unfold candidatePaths at h
  rcases List.mem_append.mp h with beside | inside
  · split at beside
    · cases beside
    · rw [List.mem_singleton.mp beside]
      exact (Path.clean_ofString _).parent.join (Path.clean_ofString _)
  · obtain ⟨root, -, rfl⟩ := List.mem_map.mp inside
    exact (Path.clean_ofString _).join (Path.clean_ofString _)

end ImportRef

/-- A setup in which every place is named where imports are looked for, and every built-in
file is carried by a module, or by none at all. -/
structure Setup.InOrder (s : Setup) : Prop where
  named : s.config.unnamedInclude = false
  carried : ∀ path module error, s.config.builtIns.lookup path = some module →
    s.modules.document module = .error error → error.isAbsence = true

section InOrder

variable (inOrder : s.InOrder)

include inOrder

namespace Query

/-- Resolving an import is searching its candidate paths, if it has the right extension. -/
theorem resolve_answer (i : ImportRef) (p : Progress)
    {given : Except QueryError (Option Source)} (something : given ≠ .ok none) :
    ((resolve i).run s p).1 = given ↔ endsIn i.path s.config.extension = true ∧
      ∃ path, SearchReaches s p.sources (i.candidatePaths s.config) path ∧
        path.answer s p.sources = given := by
  rw [← firstDocument_answer _ s p something]
  unfold resolve
  rw [run_bind, run_read]
  cases suffix : endsIn i.path s.config.extension with
  | true =>
    simp only [suffix, inOrder.named, if_true, Bool.false_eq_true, if_false, run_bind, true_and]
    rcases (firstDocument (i.candidatePaths s.config)).run s p with ⟨_ | _ | d, after⟩ <;> rfl
  | false =>
    simp only [suffix, Bool.false_eq_true, if_false, run_bind, run_log, run_pure, false_and,
      iff_false]
    exact something.symm

/-- The built-in file behind an import is found without failure. -/
theorem builtIn_ok (path : String) (p : Progress) :
    ∃ found, ((builtIn path).run s p).1 = .ok found ∧
      ∀ b, found = some b ↔ ∃ module doc, s.config.builtIns.lookup path = some module ∧
        s.modules.document module = .ok doc ∧ b = ⟨.builtIn module, doc⟩ := by
  unfold builtIn
  rw [run_bind, run_read]
  cases named : s.config.builtIns.lookup path with
  | none =>
    simp only [named, run_pure]
    exact ⟨none, rfl, by simp⟩
  | some module =>
    simp only [named]
    cases loaded : s.modules.document module with
    | error error =>
      have absent := inOrder.carried path module error named loaded
      simp only [builtInModule, run_read, loaded, absent, if_true, run_bind, run_log, run_pure]
      exact ⟨none, rfl, by simp [loaded]⟩
    | ok doc =>
      obtain ⟨after, -, ran⟩ := run_builtInModule (s := s) (p := p) loaded
      simp only [ran]
      exact ⟨some ⟨.builtIn module, doc⟩, rfl, by simp [loaded, eq_comm]⟩

end Query

namespace ImportRef

/-- An import leads to an imported file if and only if its search finds it. -/
theorem leadsTo_iff_finds : i.LeadsTo s p (.imported d) ↔ i.Finds s p.sources d := by
  rw [leadsTo_imported_iff, Query.resolve_answer inOrder i p (by simp)]
  constructor
  · rintro ⟨notBuiltIn, ⟨suffix, path, reached, offers⟩, counts⟩
    exact ⟨path, ⟨notBuiltIn, suffix, reached⟩, offers, counts⟩
  · rintro ⟨path, ⟨notBuiltIn, suffix, reached⟩, offers, counts⟩
    exact ⟨notBuiltIn, ⟨suffix, path, reached, offers⟩, counts⟩

/-- An import leads to a built-in file if and only if it means one. -/
theorem leadsTo_iff_names {b : Source} : i.LeadsTo s p (.builtIn b) ↔ i.Names s b := by
  unfold LeadsTo Query.destination
  rw [Query.run_bind, Query.run_read]
  cases builtIn : i.isBuiltIn s.config with
  | true =>
    obtain ⟨found, ran, spec⟩ := Query.builtIn_ok inOrder i.path p
    rw [Names, ← spec b]
    simp only [builtIn, if_true, bind_pure_comp, Query.run_map, ran]
    cases found <;> simp [Except.map]
  | false =>
    simp only [builtIn, Bool.false_eq_true, if_false, bind_pure_comp, Query.run_map]
    refine iff_of_false ?_ ?_
    · rcases (Query.supported i).run s p with ⟨_ | _ | d, after⟩ <;> simp [Except.map]
    · rintro ⟨module, doc, named, -, -⟩
      simp [isBuiltIn, named] at builtIn

/-- An import fails if and only if it is astray. -/
theorem exists_fails_iff : (∃ e, i.Fails s p e) ↔ i.IsAstray s p.sources := by
  unfold Fails Query.destination
  rw [Query.run_bind, Query.run_read]
  cases builtIn : i.isBuiltIn s.config with
  | true =>
    obtain ⟨found, ran, -⟩ := Query.builtIn_ok inOrder i.path p
    simp only [builtIn, if_true, bind_pure_comp, Query.run_map, ran]
    refine iff_of_false (by simp [Except.map]) ?_
    rintro ⟨path, ⟨notBuiltIn, -, -⟩, -⟩
    exact absurd (builtIn.symm.trans notBuiltIn) (by simp)
  | false =>
    have spec (error : QueryError) :=
      Query.resolve_answer inOrder i p
        (show (.error error : Except QueryError (Option Source)) ≠ .ok none by simp)
    have errs : (∃ e, ((Query.supported i).run s p).1.map (Option.map Visit.imported) = .error e) ↔
        ∃ error, ((Query.resolve i).run s p).1 = .error error := by
      rw [Query.run_supported]
      cases ((Query.resolve i).run s p).1 <;> simp [Except.map]
    simp only [builtIn, Bool.false_eq_true, if_false, bind_pure_comp, Query.run_map, errs, spec]
    constructor
    · rintro ⟨error, suffix, path, reached, astray⟩
      have clean := clean_of_mem_candidatePaths reached.mem
      exact ⟨path, ⟨builtIn, suffix, reached⟩, (Path.isAstray_iff clean).mpr ⟨error, astray⟩⟩
    · rintro ⟨path, ⟨-, suffix, reached⟩, astray⟩
      have clean := clean_of_mem_candidatePaths reached.mem
      obtain ⟨error, answered⟩ := (Path.isAstray_iff clean).mp astray
      exact ⟨error, suffix, path, reached, answered⟩

end ImportRef

end InOrder

/-! ### Queries -/

/-- A query returns if and only if no import that counts is astray. It has then the matches of
its own document, of every file that such an import finds, and of every built-in file that
one means. -/
theorem find_returns_iff {site : Element} {r : ReferenceKind} {c : Criteria} {w : Wanted}
    {result : Except QueryError (List Match)} (history : p.sources.History given)
    (known : ∀ n, site.source.id = .reading n → site.source ∈ given)
    (inOrder : s.InOrder) (valid : Wanted.ofCriteria r c = .ok w)
    (patient : p.patience = none) (ran : (Query.find site r c).run s p = (result, p')) :
    ((∃ found, result = .ok found) ↔
      ∀ i : ImportRef, i.CountsFor s p' site.source → ¬ i.IsAstray s p'.sources) ∧
    ∀ found, result = .ok found → ∃ visits : List Visit,
      found = w.inOwn site ++
        visits.flatMap (w.inVisit site.source.document.packagePath) ∧
      (∀ d, .imported d ∈ visits ↔ d ≠ site.source ∧
        ∃ i : ImportRef, i.CountsFor s p' site.source ∧ i.Finds s p'.sources d) ∧
      ∀ b, .builtIn b ∈ visits ↔
        ∃ i : ImportRef, i.CountsFor s p' site.source ∧ i.Names s b := by
  rcases Query.find_cases site r c history.accounted with
    ⟨e, senseless, -⟩ | ⟨_, -, impatient, -⟩ |
      ⟨wanted, p₁, given', ⟨outcome, after⟩, sensible, grows, more, accounted, expands, ran'⟩
  · exact absurd (valid.symm.trans senseless) (by simp)
  · exact absurd patient impatient
  cases valid.symm.trans sensible
  cases outcome with
  | error e =>
    cases ran.symm.trans ran'
    obtain ⟨-, ⟨-, impatient⟩ | ⟨i, queued, fails⟩⟩ := expands
    · exact absurd (grows.patience patient) impatient
    · have astray := (ImportRef.exists_fails_iff inOrder).mp ⟨e, fails⟩
      refine ⟨iff_of_false (by simp [Except.map]) fun none => ?_, by simp [Except.map]⟩
      exact none i queued.countsFor astray
  | ok visits =>
    cases ran.symm.trans ran'
    have known' : ∀ n, site.source.id = .reading n → site.source ∈ given' :=
      fun n read => more (known n read)
    refine ⟨iff_of_true ⟨_, rfl⟩ ?_, ?_⟩
    · intro i counting astray
      obtain ⟨e, fails⟩ := (ImportRef.exists_fails_iff inOrder).mpr astray
      exact (expands.settled accounted known' counting).2 e fails
    · rintro found ⟨⟩
      have contributing := expands.contributing accounted known'
      refine ⟨visits, rfl, ?_, ?_⟩
      · intro d
        simp only [contributing.imported d, sees_iff, ImportRef.leadsTo_iff_finds inOrder]
      · intro b
        simp only [contributing.builtIn b, ImportRef.leadsTo_iff_names inOrder]

/-- The usual built-in files are in order, wherever else imports are looked for. -/
theorem Setup.inOrder_of_wellKnown {s : Setup} (named : s.config.unnamedInclude = false)
    (usual : s.config.builtIns = Builtin.wellKnownImports)
    (modules : s.modules = Builtin.wellKnown) : s.InOrder := by
  have all : ∀ e ∈ Builtin.wellKnownImports, (Builtin.wellKnown.document e.2).isOk = true := by
    decide +kernel
  refine ⟨named, ?_⟩
  intro path module error listed fails
  rw [usual, List.lookup_eq_some_iff] at listed
  obtain ⟨before, after, listed, -⟩ := listed
  have loads := all (path, module) (listed ▸ by simp)
  rw [modules] at fails
  simp [fails, Except.isOk, Except.toBool] at loads

/-- A file with four imports. The first means a file that is missing, the second one that is no
schema, the third one of another extension. -/
def doubtfulFiles : FileStore where
  entries := [
    ("/a.proto", ("import 'gone.proto'; import 'bad.proto'; import 'b.txt'; " ++
      "import 'b.proto'; message A { }").toUTF8.toList),
    ("/bad.proto", "message \x7b".toUTF8.toList),
    ("/b.txt", "message T { }".toUTF8.toList),
    ("/b.proto", "message B { }".toUTF8.toList)]

/-- Reading the file. -/
def doubtfulStart : Fetch :=
  SourceSet.empty.fetch Surroundings.plain.frames doubtfulFiles schemaExtension "/a.proto"

/-- The usual settings, and these files. -/
def doubtfulSetup : Setup := .plain doubtfulFiles

/-- None of the three imports is astray, and so the fourth is found. -/
theorem find_returns_doubtful : ∃ start found p',
    doubtfulStart.found = some start ∧
    (Query.find (.ofSource start) .type .anyType).run doubtfulSetup
      ⟨doubtfulStart.sources, [], [], none⟩ = (.ok found, p') ∧
    found.map Match.name = ["A", "B"] ∧
    (∀ i : ImportRef, i.CountsFor doubtfulSetup p' start →
      ¬ i.IsAstray doubtfulSetup p'.sources) ∧
    ∃ visits : List Visit, ∀ d, .imported d ∈ visits ↔ d ≠ start ∧
      ∃ i : ImportRef, i.CountsFor doubtfulSetup p' start ∧
        i.Finds doubtfulSetup p'.sources d := by
  have facts : doubtfulStart.found.bind (fun start =>
      ((Query.find (.ofSource start) .type .anyType).run doubtfulSetup
        ⟨doubtfulStart.sources, [], [], none⟩).1.toOption.map (List.map Match.name)) =
      some ["A", "B"] := by decide +kernel
  obtain ⟨start, opened, facts⟩ := Option.bind_eq_some_iff.mp facts
  obtain ⟨found, returned, names⟩ := Option.map_eq_some_iff.mp facts
  have history : SourceSet.History doubtfulStart.sources (doubtfulStart.found.toList ++ []) :=
    .fetch _ doubtfulFiles schemaExtension "/a.proto" .start
  have known : ∀ n, (Element.ofSource start).source.id = .reading n →
      (Element.ofSource start).source ∈ doubtfulStart.found.toList ++ [] :=
    fun _ _ => by simp [opened, Element.ofSource]
  have inOrder : doubtfulSetup.InOrder := Setup.inOrder_of_wellKnown rfl rfl rfl
  cases ran : (Query.find (.ofSource start) .type .anyType).run doubtfulSetup
      ⟨doubtfulStart.sources, [], [], none⟩ with
  | mk result p' =>
    obtain ⟨returns, whole⟩ := find_returns_iff history known inOrder rfl rfl ran
    rw [ran] at returned
    cases result with
    | error e => simp [Except.toOption] at returned
    | ok found' =>
      cases returned
      obtain ⟨visits, -, imported, -⟩ := whole found rfl
      exact ⟨start, found, p', opened, ran, names, returns.mp ⟨found, rfl⟩, visits, imported⟩

/-- A file with an import that is looked for in the current directory as well. -/
def strayFiles : FileStore where
  entries := [("/a.proto", "import \"~otheruser/b.proto\"; message A { }".toUTF8.toList)]

/-- Reading the file. -/
def strayStart : Fetch :=
  SourceSet.empty.fetch Surroundings.plain.frames strayFiles schemaExtension "/a.proto"

/-- Imports are looked for in the current directory. -/
def straySetup : Setup :=
  { Setup.plain strayFiles with config := { Config.default with includePaths := ["."] } }

/-- The import seems to begin in a home directory. Not even the file's own message is found. -/
theorem stray_import_fails : ∃ start p', strayStart.found = some start ∧
    (Query.find (.ofSource start) .type .anyType).run straySetup
      ⟨strayStart.sources, [], [], none⟩ = (.error (.path .unknownHome), p') := by
  have facts : strayStart.found.bind (fun start =>
      match ((Query.find (.ofSource start) .type .anyType).run straySetup
        ⟨strayStart.sources, [], [], none⟩).1 with
      | .error (.path e) => some e
      | _ => none) = some .unknownHome := by decide +kernel
  obtain ⟨start, opened, facts⟩ := Option.bind_eq_some_iff.mp facts
  cases ran : (Query.find (.ofSource start) .type .anyType).run straySetup
      ⟨strayStart.sources, [], [], none⟩ with
  | mk result p' =>
    rw [ran] at facts
    split at facts
    · next e failed =>
      cases facts
      cases failed
      exact ⟨start, p', opened, ran⟩
    · cases facts

end ProtoNames
