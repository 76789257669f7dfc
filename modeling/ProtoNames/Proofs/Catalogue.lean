import Mathlib.Data.Finmap
import ProtoNames.File.Workspace
import ProtoNames.Proofs.Fetch

/-!
Two tables that are one map.

A set of documents has a table of files that were loaded and one of texts that stand in place
of files. A `Catalogue` is one finite map from absolute paths to documents, with a record of
what has been read. `run_refines`: in any sequence of operations, interleaved with any changes
to files, the two give the same answers.

`Represents` relates a set of documents to a catalogue, and `Represents.answer` shows that one
request keeps it. All of it rests on `Tidy`, which says how the two tables share the paths.
-/

namespace ProtoNames

theorem Document.parse_uri {frames : Nat} {uri text : String} {d : Document}
    (parsed : Document.parse frames uri text = .ok d) : d.uri = uri := by
  unfold parse ofTokens at parsed
  split at parsed
  · exact absurd parsed (by simp)
  · exact absurd parsed (by simp)
  · cases parsed
    rfl

/-- What reading a file gives: a document if it has the right extension and is a schema, and a
failure if there is no room to find out. -/
def FileStore.reading (files : FileStore) (frames : Nat) (extension uri : String) :
    Except StackError (Option Document) :=
  if endsIn uri extension then
    match files.bytes? uri with
    | none => .ok none
    | some bytes =>
      match fileText bytes with
      | .error _ => .ok none
      | .ok text =>
        match Document.parse frames uri text with
        | .ok d => .ok (some d)
        | .error (.refused _) => .ok none
        | .error .tooDeep => .error .exhausted
  else .ok none

/-! ### Catalogues -/

/-- Where a document was read from. -/
inductive Origin
  | file | text
  deriving DecidableEq, Repr

/-- One map from absolute paths to their documents, and where the documents came from that
have been read so far, the last one first. -/
structure Catalogue where
  held : Finmap fun _ : String => Source
  readings : List Origin

namespace Catalogue

/-- Nothing has been read. -/
def empty : Catalogue := ⟨∅, []⟩

/-- A document that is read anew is numbered by the readings before it, and becomes the
document at its path. -/
def take (c : Catalogue) (origin : Origin) (uri : String) (d : Document) :
    Except OperationError Answer × Catalogue :=
  let source : Source := ⟨.reading c.readings.length, d⟩
  (.ok (.document (some source)), ⟨c.held.insert uri source, origin :: c.readings⟩)

/-- What becomes of a request. A document that is held is given out without a look at its
file. What cannot be read, from a file or from a text, changes nothing. -/
def answer (frames : Nat) (files : FileStore) (extension uri : String) (r : Request)
    (c : Catalogue) : Except OperationError Answer × Catalogue :=
  match r with
  | .fetch =>
    match c.held.lookup uri with
    | some source => (.ok (.document (some source)), c)
    | none =>
      match files.reading frames extension uri with
      | .ok (some d) => c.take .file uri d
      | .ok none => (.ok (.document none), c)
      | .error e => (.error (.stack e), c)
  | .known => (.ok (.document (c.held.lookup uri)), c)
  | .overlay text =>
    match Document.parse frames uri text with
    | .ok d => c.take .text uri d
    | .error (.refused e) => (.error (.text e), c)
    | .error .tooDeep => (.error (.stack .exhausted), c)
  | .invalidate => (.ok .done, { c with held := c.held.erase uri })
  | .contains => (.ok (.truth (decide (uri ∈ c.held))), c)

/-- A catalogue as a way of keeping documents. -/
def keeper : Keeper Catalogue where
  answer := answer
  size c := c.held.keys.card
  loadCount c := c.readings.count .file

end Catalogue

/-! ### Two tables -/

/-- Every path has at most one entry in at most one of the two tables, and every document
stands under the path that it was read at. -/
structure SourceSet.Tidy (s : SourceSet) : Prop where
  overlays_nodup : (s.overlays.map (·.1)).Nodup
  loaded_nodup : (s.loaded.map (·.1)).Nodup
  apart : (s.overlays.map (·.1)).Disjoint (s.loaded.map (·.1))
  keyed : ∀ e ∈ s.overlays ++ s.loaded, e.2.document.uri = e.1

/-- A set of documents and a catalogue hold the same documents, and have read as many. -/
structure Represents (s : SourceSet) (c : Catalogue) : Prop where
  tidy : s.Tidy
  agrees : ∀ u, s.current? u = c.held.lookup u
  numbered : s.next = c.readings.length
  counted : s.loadCount = c.readings.count .file

section Tables

variable {table : List (String × Source)} {uri u : String} {d : Source} {e : String × Source}

theorem mem_withoutEntry : e ∈ withoutEntry table uri ↔ e ∈ table ∧ e.1 ≠ uri := by
  simp [withoutEntry]

theorem mem_map_withoutEntry :
    u ∈ (withoutEntry table uri).map (·.1) ↔ u ∈ table.map (·.1) ∧ u ≠ uri := by
  simp only [List.mem_map, mem_withoutEntry]
  constructor
  · rintro ⟨e, ⟨stands, other⟩, rfl⟩
    exact ⟨⟨e, stands, rfl⟩, other⟩
  · rintro ⟨⟨e, stands, rfl⟩, other⟩
    exact ⟨e, ⟨stands, other⟩, rfl⟩

theorem nodup_withoutEntry (nodup : (table.map (·.1)).Nodup) :
    ((withoutEntry table uri).map (·.1)).Nodup :=
  nodup.sublist (List.filter_sublist.map _)

/-- A new entry for a path takes the place of the old one. -/
theorem nodup_cons_withoutEntry (nodup : (table.map (·.1)).Nodup) :
    (((uri, d) :: withoutEntry table uri).map (·.1)).Nodup := by
  rw [List.map_cons, List.nodup_cons, mem_map_withoutEntry]
  exact ⟨fun again => again.2 rfl, nodup_withoutEntry nodup⟩

end Tables

namespace SourceSet

variable {s s' : SourceSet} {uri u : String} {d : Source}

theorem mem_uris : u ∈ s.uris ↔ (s.current? u).isSome := by
  simp only [uris, List.mem_eraseDups, List.mem_append, current?, Option.isSome_or,
    Bool.or_eq_true, List.lookup_isSome_iff, List.mem_map, beq_iff_eq]
  grind

theorem eraseDups_of_nodup {uris : List String} (nodup : uris.Nodup) : uris.eraseDups = uris := by
  induction uris with
  | nil => rfl
  | cons u rest ih =>
    obtain ⟨new, nodup⟩ := List.nodup_cons.mp nodup
    have others : rest.filter (fun v => !v == u) = rest := by
      rw [List.filter_eq_self]
      intro v stands
      have other : v ≠ u := fun same => new (same ▸ stands)
      simp [other]
    rw [List.eraseDups_cons, others, ih nodup]

/-- The two tables share no path, so each entry of each is counted. -/
theorem Tidy.uris_eq (tidy : s.Tidy) :
    s.uris = s.overlays.map (·.1) ++ s.loaded.map (·.1) := by
  apply eraseDups_of_nodup
  exact List.nodup_append'.mpr ⟨tidy.overlays_nodup, tidy.loaded_nodup, tidy.apart⟩

theorem Tidy.nodup_uris (tidy : s.Tidy) : s.uris.Nodup := by
  rw [tidy.uris_eq]
  exact List.nodup_append'.mpr ⟨tidy.overlays_nodup, tidy.loaded_nodup, tidy.apart⟩

theorem Tidy.size_eq (tidy : s.Tidy) : s.size = s.overlays.length + s.loaded.length := by
  simp [size, tidy.uris_eq]

/-- What is current is an entry of one of the tables. -/
theorem mem_of_current? (known : s.current? u = some d) : (u, d) ∈ s.overlays ++ s.loaded := by
  have mem_of_lookup : ∀ table : List (String × Source), table.lookup u = some d →
      (u, d) ∈ table := by
    intro table found
    obtain ⟨before, after, rfl, -⟩ := List.lookup_eq_some_iff.mp found
    simp
  rw [current?, Option.or_eq_some_iff] at known
  rcases known with overlaid | ⟨-, loaded⟩
  · exact List.mem_append_left _ (mem_of_lookup _ overlaid)
  · exact List.mem_append_right _ (mem_of_lookup _ loaded)

/-- The document at a path was read at this path. -/
theorem Tidy.uri_eq (tidy : s.Tidy) (known : s.current? u = some d) : d.document.uri = u :=
  tidy.keyed _ (mem_of_current? known)

theorem not_mem_overlays (unknown : s.current? uri = none) : uri ∉ s.overlays.map (·.1) := by
  intro overlaid
  have kept : uri ∈ s.uris := by simp [uris, List.mem_eraseDups, overlaid]
  rw [mem_uris, unknown] at kept
  exact absurd kept (by simp)

/-! ### What keeps the tables tidy -/

theorem tidy_empty : empty.Tidy :=
  ⟨List.nodup_nil, List.nodup_nil, List.disjoint_nil_left _, by simp [empty]⟩

theorem Tidy.addOverlay (tidy : s.Tidy) {frames : Nat} {text : String}
    (added : s.addOverlay frames uri text = .ok (s', d)) : s'.Tidy := by
  obtain ⟨doc, parsed, rfl, rfl⟩ := addOverlay_inv added
  refine ⟨nodup_cons_withoutEntry tidy.overlays_nodup, nodup_withoutEntry tidy.loaded_nodup,
    ?_, ?_⟩
  · intro u overlaid loaded
    obtain ⟨loaded, other⟩ := mem_map_withoutEntry.mp loaded
    rcases List.mem_cons.mp overlaid with same | overlaid
    · exact other same
    · exact tidy.apart (mem_map_withoutEntry.mp overlaid).1 loaded
  · intro e stands
    rcases List.mem_append.mp stands with overlaid | loaded
    · rcases List.mem_cons.mp overlaid with rfl | overlaid
      · exact Document.parse_uri parsed
      · exact tidy.keyed e (List.mem_append_left _ (mem_withoutEntry.mp overlaid).1)
    · exact tidy.keyed e (List.mem_append_right _ (mem_withoutEntry.mp loaded).1)

theorem Tidy.invalidate (tidy : s.Tidy) (uri : String) : (s.invalidate uri).Tidy := by
  refine ⟨nodup_withoutEntry tidy.overlays_nodup, nodup_withoutEntry tidy.loaded_nodup, ?_, ?_⟩
  · intro u overlaid loaded
    exact tidy.apart (mem_map_withoutEntry.mp overlaid).1 (mem_map_withoutEntry.mp loaded).1
  · intro e stands
    rcases List.mem_append.mp stands with overlaid | loaded
    · exact tidy.keyed e (List.mem_append_left _ (mem_withoutEntry.mp overlaid).1)
    · exact tidy.keyed e (List.mem_append_right _ (mem_withoutEntry.mp loaded).1)

theorem Tidy.keep (tidy : s.Tidy) (unknown : s.current? uri = none) {doc : Document}
    (named : doc.uri = uri) : (s.keep uri doc).1.Tidy := by
  refine ⟨tidy.overlays_nodup, nodup_cons_withoutEntry tidy.loaded_nodup, ?_, ?_⟩
  · intro u overlaid loaded
    rcases List.mem_cons.mp loaded with same | loaded
    · subst same
      exact not_mem_overlays unknown overlaid
    · exact tidy.apart overlaid (mem_map_withoutEntry.mp loaded).1
  · intro e stands
    rcases List.mem_append.mp stands with overlaid | loaded
    · exact tidy.keyed e (List.mem_append_left _ overlaid)
    · rcases List.mem_cons.mp loaded with rfl | loaded
      · exact named
      · exact tidy.keyed e (List.mem_append_right _ (mem_withoutEntry.mp loaded).1)

end SourceSet

/-! ### One request -/

/-- A document that is not known is read from its file. -/
theorem SourceSet.fetch_of_unknown {s : SourceSet} {uri : String} (unknown : s.current? uri = none)
    (frames : Nat) (files : FileStore) (extension : String) :
    (∃ doc, files.reading frames extension uri = .ok (some doc) ∧
      files.Spells frames uri doc ∧ s.fetch frames files extension uri =
        ⟨(s.keep uri doc).1, .ok (some (s.keep uri doc).2), [.fileLoaded uri]⟩) ∨
    ∃ outcome events, s.fetch frames files extension uri = ⟨s, outcome, events⟩ ∧
      (outcome = .ok none ∧ files.reading frames extension uri = .ok none ∨
        outcome = .error .exhausted ∧ files.reading frames extension uri = .error .exhausted) := by
  unfold fetch load FileStore.reading FileStore.Spells
  rw [unknown]
  by_cases suffix : endsIn uri extension = true
  · cases files.bytes? uri with
    | none => simp [suffix]
    | some bytes =>
      cases read : fileText bytes with
      | error e => simp [suffix, read]
      | ok text =>
        rcases parsed : Document.parse frames uri text with (e | _) | doc <;>
          simp [suffix, read, parsed, keep]
  · simp [suffix]

/-- Where a schema can be read, it is what reading gives. -/
theorem FileStore.reading_of_schema? {files : FileStore} {frames : Nat} {extension uri : String}
    {doc : Document} (readable : files.schema? frames extension uri = some doc) :
    files.reading frames extension uri = .ok (some doc) := by
  obtain ⟨suffix, bytes, text, present, read, parsed⟩ := schema?_eq_some_iff.mp readable
  simp [reading, suffix, present, read, parsed]

namespace Represents

variable {s s' : SourceSet} {c : Catalogue} {uri : String} {d : Source}

theorem empty : Represents .empty .empty := by
  refine ⟨SourceSet.tidy_empty, ?_, rfl, rfl⟩
  intro u
  simp [SourceSet.current?, SourceSet.empty, Catalogue.empty]

/-- Two sets hold as many documents if they hold the same. -/
theorem size_eq (h : Represents s c) : s.size = c.held.keys.card := by
  have same : c.held.keys = s.uris.toFinset := by
    ext u
    rw [List.mem_toFinset, SourceSet.mem_uris, h.agrees, Finmap.mem_keys, Finmap.lookup_isSome]
  rw [same, List.toFinset_card_of_nodup h.tidy.nodup_uris]
  rfl

/-- A new reading at a path, which changes the document there and no other. -/
theorem take (h : Represents s c) {doc : Document} (origin : Origin) (tidy : s'.Tidy)
    (current : ∀ u, s'.current? u =
      if u = uri then some ⟨.reading s.next, doc⟩ else s.current? u)
    (next : s'.next = s.next + 1)
    (counted : s'.loadCount = (origin :: c.readings).count .file) :
    (c.take origin uri doc).1 = .ok (.document (some ⟨.reading s.next, doc⟩)) ∧
      Represents s' (c.take origin uri doc).2 := by
  rw [h.numbered] at current
  refine ⟨by rw [h.numbered]; rfl, tidy, ?_, next.trans (congrArg (· + 1) h.numbered), counted⟩
  intro u
  rw [current]
  split
  · next same =>
    subst same
    simp only [Catalogue.take, Finmap.lookup_insert]
  · next other =>
    rw [h.agrees]
    simp only [Catalogue.take, Finmap.lookup_insert_of_ne _ other]

/-- A request is answered alike, and afterwards the same documents are held. -/
theorem answer (h : Represents s c) (frames : Nat) (files : FileStore) (extension uri : String)
    (r : Request) :
    (s.answer frames files extension uri r).1 = (c.answer frames files extension uri r).1 ∧
      Represents (s.answer frames files extension uri r).2
        (c.answer frames files extension uri r).2 := by
  cases r with
  | fetch =>
    simp only [SourceSet.answer, Catalogue.answer, ← h.agrees uri]
    cases known : s.current? uri with
    | some d =>
      rw [SourceSet.fetch, known]
      exact ⟨rfl, h⟩
    | none =>
      rcases SourceSet.fetch_of_unknown known frames files extension with
        ⟨doc, readable, spells, eq⟩ | ⟨_, events, eq, ⟨rfl, read⟩ | ⟨rfl, read⟩⟩
      · obtain ⟨_, text, -, -, parsed⟩ := spells
        have counted : s.loadCount + 1 = (Origin.file :: c.readings).count .file := by
          rw [h.counted, List.count_cons_self]
        have taken := h.take .file
          (h.tidy.keep known (Document.parse_uri parsed))
          (fun u => SourceSet.current?_keep known doc) rfl counted
        simp only [eq, readable]
        exact ⟨taken.1.symm, taken.2⟩
      · rw [eq, read]
        exact ⟨rfl, h⟩
      · rw [eq, read]
        exact ⟨rfl, h⟩
  | known =>
    refine ⟨?_, h⟩
    simp only [SourceSet.answer, Catalogue.answer, h.agrees]
  | overlay text =>
    simp only [SourceSet.answer, Catalogue.answer]
    cases added : s.addOverlay frames uri text with
    | error failure =>
      have parsed : Document.parse frames uri text = .error failure := by
        unfold SourceSet.addOverlay at added
        cases parsed : Document.parse frames uri text with
        | error e => simpa [parsed, Except.map] using added
        | ok doc => simp [parsed, Except.map] at added
      rw [parsed]
      cases failure <;> exact ⟨rfl, h⟩
    | ok result =>
      obtain ⟨s', d⟩ := result
      obtain ⟨doc, parsed, rfl, next⟩ := SourceSet.addOverlay_inv added
      have counted : s'.loadCount = (Origin.text :: c.readings).count .file := by
        rw [next, List.count_cons_of_ne (by decide)]
        exact h.counted
      have taken := h.take .text (h.tidy.addOverlay added)
        (fun u => SourceSet.current?_addOverlay added) (by rw [next]) counted
      rw [parsed]
      exact ⟨taken.1.symm, taken.2⟩
  | invalidate =>
    refine ⟨rfl, h.tidy.invalidate uri, ?_, h.numbered, h.counted⟩
    intro u
    simp only [SourceSet.answer, Catalogue.answer, SourceSet.current?_invalidate]
    split
    · next same =>
      subst same
      simp only [Finmap.lookup_erase]
    · next other =>
      simp only [h.agrees, Finmap.lookup_erase_ne other]
  | contains =>
    refine ⟨?_, h⟩
    have same : s.contains uri = decide (uri ∈ c.held) := by
      rw [SourceSet.contains, h.agrees, Bool.eq_iff_iff, decide_eq_true_iff, Finmap.lookup_isSome]
    simp only [SourceSet.answer, Catalogue.answer, same]

end Represents

/-! ### Any number of operations -/

namespace Keeper

variable {σ τ : Type}

/-- Two ways of keeping documents answer each request alike, as long as what they keep is
related. -/
structure Agree (k : Keeper σ) (l : Keeper τ) (related : σ → τ → Prop) : Prop where
  answer : ∀ frames files extension uri r x y, related x y →
    (k.answer frames files extension uri r x).1 = (l.answer frames files extension uri r y).1 ∧
      related (k.answer frames files extension uri r x).2
        (l.answer frames files extension uri r y).2
  size : ∀ x y, related x y → k.size x = l.size y
  loadCount : ∀ x y, related x y → k.loadCount x = l.loadCount y

variable {k : Keeper σ} {l : Keeper τ} {related : σ → τ → Prop} {x : Workspace σ}
  {y : Workspace τ}

theorem Agree.perform (agree : Agree k l related) (around : Surroundings) (extension : String)
    (op : Operation) (files : x.files = y.files) (documents : related x.documents y.documents) :
    (k.perform around extension x op).1 = (l.perform around extension y op).1 ∧
      (k.perform around extension x op).2.files = (l.perform around extension y op).2.files ∧
      related (k.perform around extension x op).2.documents
        (l.perform around extension y op).2.documents := by
  cases op with
  | request path r =>
    simp only [Keeper.perform]
    cases Path.uri around path with
    | error e => exact ⟨rfl, files, documents⟩
    | ok uri =>
      rw [files]
      obtain ⟨same, still⟩ := agree.answer around.frames y.files extension uri r _ _ documents
      exact ⟨same, rfl, still⟩
  | size =>
    refine ⟨?_, files, documents⟩
    simp only [Keeper.perform, agree.size _ _ documents]
  | loadCount =>
    refine ⟨?_, files, documents⟩
    simp only [Keeper.perform, agree.loadCount _ _ documents]
  | write uri bytes => exact ⟨rfl, congrArg (·.write uri bytes) files, documents⟩
  | delete uri => exact ⟨rfl, congrArg (·.delete uri) files, documents⟩

theorem Agree.run (agree : Agree k l related) (around : Surroundings) (extension : String)
    (operations : List Operation) (files : x.files = y.files)
    (documents : related x.documents y.documents) :
    (k.run around extension x operations).1 = (l.run around extension y operations).1 ∧
      (k.run around extension x operations).2.files =
        (l.run around extension y operations).2.files ∧
      related (k.run around extension x operations).2.documents
        (l.run around extension y operations).2.documents := by
  induction operations generalizing x y with
  | nil => exact ⟨rfl, files, documents⟩
  | cons op rest ih =>
    obtain ⟨answer, files, documents⟩ := agree.perform around extension op files documents
    obtain ⟨answers, files, documents⟩ := ih files documents
    exact ⟨congrArg₂ List.cons answer answers, files, documents⟩

end Keeper

end ProtoNames
