import ProtoNames.Proofs.Catalogue
import ProtoNames.Proofs.Replay

/-!
What can have become of a set of documents.

A state is `Reached` if some sequence of operations leads to it, from any files at the start.
Whatever every request keeps holds in all of them (`Reached.induct`): the two tables are tidy,
documents are told apart by their identity, paths are absolute, and what was loaded has the
right extension. Looking for documents leads to states that are reached as well
(`Reached.opens`), so what a query leaves behind is one of them.
-/

namespace ProtoNames

variable {around : Surroundings} {extension : String}

/-- Some operations lead to this state, from no documents and some files. -/
def Workspace.Reached (around : Surroundings) (extension : String) (x : Workspace SourceSet) :
    Prop :=
  ∃ files operations, (SourceSet.keeper.run around extension ⟨.empty, files⟩ operations).2 = x

/-- Some operations lead to these documents, with the files that there are. -/
def SourceSet.Reached (s : Setup) (sources : SourceSet) : Prop :=
  Workspace.Reached s.around s.config.extension ⟨sources, s.files⟩

namespace Keeper

variable {σ : Type} {k : Keeper σ} {x : Workspace σ}

theorem run_append (before after : List Operation) :
    (k.run around extension x (before ++ after)).2 =
      (k.run around extension (k.run around extension x before).2 after).2 := by
  induction before generalizing x with
  | nil => rfl
  | cons op rest ih => exact ih

/-- What every request keeps, operations keep. -/
theorem run_keeps (around : Surroundings) (extension : String) (P : σ → Prop)
    (answer : ∀ files path uri r y, Path.uri around path = .ok uri → P y →
      P (k.answer around.frames files extension uri r y).2)
    (operations : List Operation) (start : P x.documents) :
    P (k.run around extension x operations).2.documents := by
  induction operations generalizing x with
  | nil => exact start
  | cons op rest ih =>
    apply ih
    cases op with
    | request path r =>
      cases form : Path.uri around path with
      | error e => simpa only [perform, form] using start
      | ok uri => simpa only [perform, form] using answer x.files path uri r _ form start
    | _ => exact start

end Keeper

namespace SourceSet

/-- What a request does to a set of documents: nothing, or a fetch, or text in place of a
file, or forgetting. -/
theorem answer_cases (frames : Nat) (files : FileStore) (extension uri : String) (r : Request)
    (s : SourceSet) :
    (s.answer frames files extension uri r).2 = s ∨
    (s.answer frames files extension uri r).2 = (s.fetch frames files extension uri).sources ∨
    (∃ text d,
      s.addOverlay frames uri text = .ok ((s.answer frames files extension uri r).2, d)) ∨
    (s.answer frames files extension uri r).2 = s.invalidate uri := by
  cases r with
  | fetch => exact .inr (.inl rfl)
  | known => exact .inl rfl
  | contains => exact .inl rfl
  | invalidate => exact .inr (.inr (.inr rfl))
  | overlay text =>
    simp only [answer]
    cases added : s.addOverlay frames uri text with
    | error failure =>
      left
      cases failure <;> rfl
    | ok result => exact .inr (.inr (.inl ⟨text, result.2, added⟩))

/-- What is kept by all that a request can do holds in every state that is reached. -/
theorem Reached.induct {s : Setup} {sources : SourceSet} {P : SourceSet → Prop}
    (reached : sources.Reached s) (start : P .empty)
    (fetch : ∀ y files path uri, Path.uri s.around path = .ok uri → P y →
      P (y.fetch s.around.frames files s.config.extension uri).sources)
    (overlay : ∀ y y' path uri text d, Path.uri s.around path = .ok uri → P y →
      y.addOverlay s.around.frames uri text = .ok (y', d) → P y')
    (invalidate : ∀ y uri, P y → P (y.invalidate uri)) : P sources := by
  obtain ⟨files, operations, leads⟩ := reached
  have kept := SourceSet.keeper.run_keeps (x := ⟨.empty, files⟩) s.around
    s.config.extension P ?_ operations start
  · rw [leads] at kept
    exact kept
  · intro files path uri r y form holds
    rcases answer_cases s.around.frames files s.config.extension uri r y with
      same | eq | ⟨text, d, added⟩ | eq
    · exact same.symm ▸ holds
    · exact eq.symm ▸ fetch y files path uri form holds
    · exact overlay y _ path uri text d form holds added
    · exact eq.symm ▸ invalidate y uri holds

variable {s : Setup} {sources sources' : SourceSet} {u : String} {d : Source}

theorem Tidy.fetch (tidy : sources.Tidy) (frames : Nat) (files : FileStore)
    (extension uri : String) : (sources.fetch frames files extension uri).sources.Tidy := by
  rcases fetch_cases sources frames files extension uri with
    ⟨_, -, eq⟩ | ⟨-, -, _, _, eq, -⟩ | ⟨doc, unknown, readable, eq⟩
  · rw [eq]
    exact tidy
  · rw [eq]
    exact tidy
  · obtain ⟨-, _, text, -, -, parsed⟩ := FileStore.schema?_eq_some_iff.mp readable
    rw [eq]
    exact tidy.keep unknown (Document.parse_uri parsed)

theorem Reached.tidy (reached : sources.Reached s) : sources.Tidy := by
  apply reached.induct tidy_empty
  · intro y files path uri _ tidy
    exact tidy.fetch _ files _ uri
  · intro y y' path uri text d _ tidy added
    exact tidy.addOverlay added
  · intro y uri tidy
    exact tidy.invalidate uri

theorem Reached.history (reached : sources.Reached s) : ∃ given, sources.History given := by
  refine reached.induct (P := fun y => ∃ given, y.History given) ⟨[], .start⟩ ?_ ?_ ?_
  · rintro y files path uri - ⟨given, history⟩
    exact ⟨_, history.fetch _ files _ uri⟩
  · rintro y y' path uri text d - ⟨given, history⟩ added
    exact ⟨_, history.overlay added⟩
  · rintro y uri ⟨given, history⟩
    exact ⟨_, history.invalidate uri⟩

/-- Documents are kept under absolute paths. -/
theorem Reached.absolute (reached : sources.Reached s) (known : sources.current? u = some d) :
    ∃ path, Path.uri s.around path = .ok u := by
  refine reached.induct (P := fun y => ∀ u d, y.current? u = some d →
    ∃ path, Path.uri s.around path = .ok u) ?_ ?_ ?_ ?_ u d known
  · intro u d known
    cases known
  · intro y files path uri form absolute u d known
    rw [current?_fetch] at known
    split at known
    · next same => exact ⟨path, same ▸ form⟩
    · exact absolute u d known
  · intro y y' path uri text _ form absolute added u d known
    rw [current?_addOverlay added] at known
    split at known
    · next same => exact ⟨path, same ▸ form⟩
    · exact absolute u d known
  · intro y uri absolute u d known
    rw [current?_invalidate] at known
    split at known
    · cases known
    · exact absolute u d known

/-- Whatever was loaded has the right extension. -/
theorem Reached.suffixed (reached : sources.Reached s) {e : String × Source}
    (stands : e ∈ sources.loaded) : endsIn e.1 s.config.extension = true := by
  refine reached.induct (P := fun y => ∀ e ∈ y.loaded, endsIn e.1 s.config.extension = true)
    ?_ ?_ ?_ ?_ e stands
  · simp [empty]
  · intro y files path uri _ suffixed
    rcases fetch_cases y s.around.frames files s.config.extension uri with
      ⟨_, -, eq⟩ | ⟨-, -, _, _, eq, -⟩ | ⟨doc, -, readable, eq⟩
    · exact eq.symm ▸ suffixed
    · exact eq.symm ▸ suffixed
    · rw [eq]
      intro e stands
      rcases List.mem_cons.mp stands with rfl | stands
      · exact (FileStore.schema?_eq_some_iff.mp readable).1
      · exact suffixed e (mem_withoutEntry.mp stands).1
  · intro y y' path uri text d _ suffixed added e stands
    obtain ⟨_, -, -, rfl⟩ := addOverlay_inv added
    exact suffixed e (mem_withoutEntry.mp stands).1
  · intro y uri suffixed e stands
    exact suffixed e (mem_withoutEntry.mp stands).1

/-- Looking for documents leads from a state that is reached to another. -/
theorem Reached.opens (reached : sources.Reached s) (opens : SourceSet.Opens s sources sources') :
    sources'.Reached s := by
  induction opens with
  | refl => exact reached
  | @tail mid _ _ step ih =>
    obtain ⟨path, uri, form, rfl⟩ := step
    obtain ⟨files, operations, leads⟩ := ih
    refine ⟨files, operations ++ [.request path .fetch], ?_⟩
    rw [Keeper.run_append, leads]
    simp only [Keeper.run, Keeper.perform, form]
    rfl

/-- Opening one path after the other is looking for documents. -/
theorem opens_run {x : Workspace SourceSet} {operations : List Operation}
    (fetches : ∀ op ∈ operations, ∃ path, op = .request path .fetch) (files : x.files = s.files) :
    SourceSet.Opens s x.documents
      (keeper.run s.around s.config.extension x operations).2.documents := by
  induction operations generalizing x with
  | nil => exact .refl
  | cons op rest ih =>
    obtain ⟨⟨path, rfl⟩, others⟩ := List.forall_mem_cons.mp fetches
    simp only [Keeper.run, Keeper.perform]
    cases form : Path.uri s.around path with
    | error e => exact ih others files
    | ok uri =>
      refine .head ⟨path, uri, form, ?_⟩ (ih others files)
      rw [files]
      rfl

/-! ### What looking for documents leaves as it is -/

/-- A table stays as it is if it has no entry to take away. -/
theorem withoutEntry_of_lookup {table : List (String × Source)} {uri : String}
    (absent : table.lookup uri = none) : withoutEntry table uri = table := by
  rw [withoutEntry, List.filter_eq_self]
  intro e stands
  have other : (uri == e.1) = false := by simpa using List.lookup_eq_none_iff.mp absent e stands
  simpa [bne_iff_ne] using (beq_eq_false_iff_ne.mp other).symm

/-- Documents are only added to others: all entries stay as they are, and each that is added is
counted. -/
structure Extends (sources sources' : SourceSet) : Prop where
  overlays : sources'.overlays = sources.overlays
  loaded : ∃ added, sources'.loaded = added ++ sources.loaded ∧
    sources'.loadCount = sources.loadCount + added.length

theorem Grows.extends {frames : Nat} {files : FileStore}
    (grows : Grows frames files extension sources sources') :
    sources.Extends sources' := by
  induction grows with
  | refl => exact ⟨rfl, [], rfl, rfl⟩
  | @tail mid _ _ step ih =>
    obtain ⟨uri, rfl⟩ := step
    obtain ⟨overlays, added, loaded, counted⟩ := ih
    rcases fetch_cases mid frames files extension uri with
      ⟨_, -, eq⟩ | ⟨-, -, _, _, eq, -⟩ | ⟨doc, unknown, -, eq⟩
    · rw [eq]
      exact ⟨overlays, added, loaded, counted⟩
    · rw [eq]
      exact ⟨overlays, added, loaded, counted⟩
    · have absent : mid.loaded.lookup uri = none := (Option.or_eq_none_iff.mp unknown).2
      rw [eq]
      refine ⟨overlays, (uri, (mid.keep uri doc).2) :: added, ?_, ?_⟩
      · simp only [keep]
        rw [withoutEntry_of_lookup absent, loaded, List.cons_append]
      · simp only [keep, counted, List.length_cons]
        omega

/-- As many files are loaded as paths get a document. -/
theorem Extends.loadCount_add (h : sources.Extends sources') (tidy : sources.Tidy)
    (tidy' : sources'.Tidy) :
    sources'.loadCount + sources.size = sources.loadCount + sources'.size := by
  obtain ⟨overlays, added, loaded, counted⟩ := h
  rw [tidy.size_eq, tidy'.size_eq, overlays, loaded, List.length_append, counted]
  omega

end SourceSet

end ProtoNames
