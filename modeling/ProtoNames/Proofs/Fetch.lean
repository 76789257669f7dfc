import Mathlib.Logic.Relation
import ProtoNames.File.SourceSet

/-!
Fetching documents, again and again.

* `fetch_cases` says all that one fetch can do: a document that is known is given again, a
  schema file is read and kept, and otherwise nothing changes.
* `found_of_grows`: once a path has been asked for, every later answer is the same, also
  after any number of other fetches. Answers of "nothing there" last as well, because only
  readable schema files are ever added.
* `History.accounted`: whatever is done with documents, no two that were given out have the
  same identity.
-/

namespace ProtoNames

/-- The document that a file spells, if it has the right extension and is a schema that there is
room to read. -/
def FileStore.schema? (files : FileStore) (frames : Nat) (extension uri : String) :
    Option Document :=
  if endsIn uri extension then do
    let bytes ← files.bytes? uri
    let text ← (fileText bytes).toOption
    (Document.parse frames uri text).toOption
  else none

/-- A file has the bytes of a text that spells a document. -/
def FileStore.Spells (files : FileStore) (frames : Nat) (uri : String) (doc : Document) : Prop :=
  ∃ bytes text, files.bytes? uri = some bytes ∧ fileText bytes = .ok text ∧
    Document.parse frames uri text = .ok doc

/-- A file has the right extension, but there is no room to read it. -/
def FileStore.IsTooDeep (files : FileStore) (frames : Nat) (extension uri : String) : Prop :=
  endsIn uri extension = true ∧ ∃ bytes text, files.bytes? uri = some bytes ∧
    fileText bytes = .ok text ∧ Document.parse frames uri text = .error .tooDeep

section Schemas

variable {files : FileStore} {frames : Nat} {extension uri : String} {doc : Document}

theorem FileStore.schema?_eq_some_iff : files.schema? frames extension uri = some doc ↔
    endsIn uri extension = true ∧ files.Spells frames uri doc := by
  have toOption_eq_some : ∀ {ε α : Type} {result : Except ε α} {a : α},
      result.toOption = some a ↔ result = .ok a := by
    intro ε α result a
    cases result <;> simp [Except.toOption]
  simp only [schema?, Spells, bind, Option.ite_none_right_eq_some, Option.bind_eq_some_iff,
    toOption_eq_some, exists_and_left]

theorem FileStore.IsTooDeep.schema?_eq_none (h : files.IsTooDeep frames extension uri) :
    files.schema? frames extension uri = none := by
  obtain ⟨suffix, bytes, text, present, read, tooDeep⟩ := h
  simp [schema?, suffix, present, read, tooDeep, Except.toOption]

end Schemas

theorem lookup_withoutEntry (table : List (String × Source)) (uri u : String) :
    (withoutEntry table uri).lookup u = if u = uri then none else table.lookup u := by
  unfold withoutEntry
  induction table with
  | nil => simp
  | cons e rest ih => grind

namespace SourceSet

variable {s s' : SourceSet} {frames : Nat} {files : FileStore} {extension uri u : String}
  {d : Source}

/-! ### One fetch -/

/-- All that a fetch can do. -/
theorem fetch_cases (s : SourceSet) (frames : Nat) (files : FileStore) (extension uri : String) :
    (∃ d, s.current? uri = some d ∧ s.fetch frames files extension uri = ⟨s, .ok (some d), []⟩) ∨
    (s.current? uri = none ∧ files.schema? frames extension uri = none ∧
      ∃ outcome events, s.fetch frames files extension uri = ⟨s, outcome, events⟩ ∧
        (outcome = .ok none ∧ ¬ files.IsTooDeep frames extension uri ∨
          outcome = .error .exhausted ∧ files.IsTooDeep frames extension uri)) ∨
    (∃ doc, s.current? uri = none ∧ files.schema? frames extension uri = some doc ∧
      s.fetch frames files extension uri =
        ⟨(s.keep uri doc).1, .ok (some (s.keep uri doc).2), [.fileLoaded uri]⟩) := by
  unfold fetch load FileStore.schema? FileStore.IsTooDeep
  cases s.current? uri with
  | some d => exact .inl ⟨d, rfl, rfl⟩
  | none =>
    by_cases suffix : endsIn uri extension = true
    · cases files.bytes? uri with
      | none => simp [suffix]
      | some bytes =>
        cases read : fileText bytes with
        | error e => simp [suffix, read, Except.toOption]
        | ok text =>
          rcases parsed : Document.parse frames uri text with (e | _) | doc <;>
            simp [suffix, read, parsed, Except.toOption, keep]
    · simp [suffix]

/-- Where no schema can be read and none has been, a fetch finds nothing and changes nothing. -/
theorem fetch_of_unreadable (unknown : s.current? uri = none)
    (unreadable : files.schema? frames extension uri = none) :
    (s.fetch frames files extension uri).sources = s ∧
      (s.fetch frames files extension uri).found = none := by
  rcases fetch_cases s frames files extension uri with
    ⟨d, known, -⟩ | ⟨-, -, _, _, eq, ⟨rfl, -⟩ | ⟨rfl, -⟩⟩ | ⟨doc, -, readable, -⟩
  · exact absurd (known.symm.trans unknown) (by simp)
  · rw [eq]
    exact ⟨rfl, rfl⟩
  · rw [eq]
    exact ⟨rfl, rfl⟩
  · exact absurd (readable.symm.trans unreadable) (by simp)

/-- A fetch fails only for lack of room to read a file. -/
theorem fetch_outcome_eq_error_iff {e : StackError} :
    (s.fetch frames files extension uri).outcome = .error e ↔
      s.current? uri = none ∧ files.IsTooDeep frames extension uri := by
  cases e
  rcases fetch_cases s frames files extension uri with
    ⟨d, known, eq⟩ | ⟨unknown, -, _, _, eq, ⟨rfl, room⟩ | ⟨rfl, tooDeep⟩⟩ | ⟨doc, -, readable, eq⟩
  · simp [eq, known]
  · simp [eq, room]
  · simp [eq, unknown, tooDeep]
  · have room : ¬ files.IsTooDeep frames extension uri := by
      intro tooDeep
      exact absurd (readable.symm.trans tooDeep.schema?_eq_none) (by simp)
    simp [eq, room]

/-- What is found is the document that is given. -/
theorem fetch_found_eq_some_iff :
    (s.fetch frames files extension uri).found = some d ↔
      (s.fetch frames files extension uri).outcome = .ok (some d) := by
  unfold Fetch.found
  cases (s.fetch frames files extension uri).outcome <;> simp

/-- A reading that is kept becomes the document at its path, and no other path changes. -/
theorem current?_keep (unknown : s.current? uri = none) (doc : Document) :
    (s.keep uri doc).1.current? u =
      if u = uri then some (s.keep uri doc).2 else s.current? u := by
  have notOverlaid : s.overlays.lookup uri = none := (Option.or_eq_none_iff.mp unknown).1
  unfold current? keep
  by_cases same : u = uri
  · subst same
    simp [notOverlaid]
  · simp [same, List.lookup_cons, lookup_withoutEntry, beq_eq_false_iff_ne.mpr same]

/-- A fetch changes the document at the path that is asked for, and no other. -/
theorem current?_fetch : (s.fetch frames files extension uri).sources.current? u =
    if u = uri then (s.fetch frames files extension uri).found else s.current? u := by
  rcases fetch_cases s frames files extension uri with
    ⟨d, known, eq⟩ | ⟨unknown, unreadable, -⟩ | ⟨doc, unknown, -, eq⟩
  · rw [eq]
    split
    · next same => exact same ▸ known
    · rfl
  · obtain ⟨same, nothing⟩ := fetch_of_unreadable unknown unreadable
    rw [same, nothing]
    split
    · next same => exact same ▸ unknown
    · rfl
  · rw [eq]
    exact current?_keep unknown doc

theorem fetch_found_of_known (known : s.current? uri = some d) :
    (s.fetch frames files extension uri).found = some d := by
  rcases fetch_cases s frames files extension uri with
    ⟨d', known', eq⟩ | ⟨unknown, -⟩ | ⟨_, unknown, -⟩
  · rw [eq]
    exact known'.symm.trans known
  · exact absurd (known.symm.trans unknown) (by simp)
  · exact absurd (known.symm.trans unknown) (by simp)

/-- Nothing is found where nothing is known and no schema can be read. -/
theorem fetch_found_eq_none_iff : (s.fetch frames files extension uri).found = none ↔
    s.current? uri = none ∧ files.schema? frames extension uri = none := by
  rcases fetch_cases s frames files extension uri with
    ⟨d, known, eq⟩ | ⟨unknown, unreadable, -⟩ | ⟨doc, unknown, readable, eq⟩
  · simp [eq, known, Fetch.found]
  · simp [unknown, unreadable, (fetch_of_unreadable unknown unreadable).2]
  · simp [eq, readable, Fetch.found]

/-! ### Fetching on -/

/-- `s'` comes from `s` by fetching documents. -/
def Grows (frames : Nat) (files : FileStore) (extension : String) :
    SourceSet → SourceSet → Prop :=
  Relation.ReflTransGen fun s s' => ∃ uri, s' = (s.fetch frames files extension uri).sources

/-- Fetching keeps the documents that there are. -/
theorem Grows.keeps (grows : Grows frames files extension s s') (known : s.current? u = some d) :
    s'.current? u = some d := by
  induction grows with
  | refl => exact known
  | @tail mid _ _ step ih =>
    obtain ⟨uri, rfl⟩ := step
    rw [current?_fetch]
    split
    · next same =>
      subst same
      exact fetch_found_of_known ih
    · exact ih

/-- Fetching adds only what can be read in files. -/
theorem Grows.adds (grows : Grows frames files extension s s') (known : s'.current? u = some d) :
    s.current? u = some d ∨ files.schema? frames extension u = some d.document := by
  induction grows with
  | refl => exact .inl known
  | @tail mid _ _ step ih =>
    obtain ⟨uri, rfl⟩ := step
    rw [current?_fetch] at known
    split at known
    · next same =>
      subst same
      rcases fetch_cases mid frames files extension u with
        ⟨d', known', eq⟩ | ⟨unknown, unreadable, -⟩ | ⟨doc, -, readable, eq⟩
      · rw [eq] at known
        exact ih (known'.trans known)
      · rw [(fetch_of_unreadable unknown unreadable).2] at known
        exact absurd known (by simp)
      · rw [eq] at known
        cases known
        exact .inr readable
    · exact ih known

/-- Whoever asks for a path again, after whatever other fetches, gets the same answer. -/
theorem found_of_grows
    (grows : Grows frames files extension (s.fetch frames files extension uri).sources s') :
    (s'.fetch frames files extension uri).found = (s.fetch frames files extension uri).found := by
  have answered : (s.fetch frames files extension uri).sources.current? uri =
      (s.fetch frames files extension uri).found := by rw [current?_fetch, if_pos rfl]
  cases found : (s.fetch frames files extension uri).found with
  | some d => exact fetch_found_of_known (grows.keeps (answered.trans found))
  | none =>
    have unreadable := (fetch_found_eq_none_iff.mp found).2
    refine fetch_found_eq_none_iff.mpr ⟨?_, unreadable⟩
    cases known : s'.current? uri with
    | none => rfl
    | some d =>
      rcases grows.adds known with before | readable
      · exact absurd (before.symm.trans (answered.trans found)) (by simp)
      · exact absurd (readable.symm.trans unreadable) (by simp)

/-- Nothing but what is found is told by an outcome, apart from its failure, which is about the
file. -/
theorem outcome_eq_of_found {t : SourceSet}
    (same : (s.fetch frames files extension uri).found =
      (t.fetch frames files extension uri).found) :
    (s.fetch frames files extension uri).outcome =
      (t.fetch frames files extension uri).outcome := by
  cases found : (s.fetch frames files extension uri).found with
  | some d =>
    rw [fetch_found_eq_some_iff.mp found, fetch_found_eq_some_iff.mp (same.symm.trans found)]
  | none =>
    have unknown := (fetch_found_eq_none_iff.mp found).1
    have unknown' := (fetch_found_eq_none_iff.mp (same.symm.trans found)).1
    have failures {e : StackError} : (s.fetch frames files extension uri).outcome = .error e ↔
        (t.fetch frames files extension uri).outcome = .error e := by
      rw [fetch_outcome_eq_error_iff, fetch_outcome_eq_error_iff]
      simp [unknown, unknown']
    unfold Fetch.found at found same
    cases outcome : (s.fetch frames files extension uri).outcome with
    | error e => exact (failures.mp outcome).symm
    | ok given =>
      cases outcome' : (t.fetch frames files extension uri).outcome with
      | error e => exact absurd ((failures.mpr outcome').symm.trans outcome) (by simp)
      | ok given' =>
        rw [outcome, outcome'] at same
        exact congrArg Except.ok same

/-- Whoever asks for a path again finds nothing new to read. -/
theorem sources_of_grows
    (grows : Grows frames files extension (s.fetch frames files extension uri).sources s') :
    (s'.fetch frames files extension uri).sources = s' := by
  rcases fetch_cases s' frames files extension uri with
    ⟨_, -, eq⟩ | ⟨unknown, unreadable, -⟩ | ⟨doc, unknown, readable, eq⟩
  · rw [eq]
  · exact (fetch_of_unreadable unknown unreadable).1
  · -- then there was nothing at first, although the file can be read
    have answered : (s.fetch frames files extension uri).found = none := by
      cases found : (s.fetch frames files extension uri).found with
      | none => rfl
      | some d =>
        have known : (s.fetch frames files extension uri).sources.current? uri = some d := by
          rw [current?_fetch, if_pos rfl, found]
        exact absurd ((grows.keeps known).symm.trans unknown) (by simp)
    have unreadable := (fetch_found_eq_none_iff.mp answered).2
    exact absurd (readable.symm.trans unreadable) (by simp)

/-! ### Histories -/

/-- Text that is put in place of a file is read anew. -/
theorem addOverlay_inv {text : String} (added : s.addOverlay frames uri text = .ok (s', d)) :
    ∃ doc, Document.parse frames uri text = .ok doc ∧ d = ⟨.reading s.next, doc⟩ ∧
      s' = { s with
        overlays := (uri, d) :: withoutEntry s.overlays uri
        loaded := withoutEntry s.loaded uri
        next := s.next + 1 } := by
  unfold addOverlay at added
  cases parsed : Document.parse frames uri text with
  | error e => simp [parsed, Except.map] at added
  | ok doc =>
    simp only [parsed, Except.map, Except.ok.injEq, Prod.mk.injEq] at added
    obtain ⟨rfl, rfl⟩ := added
    exact ⟨doc, rfl, rfl, rfl⟩

theorem current?_addOverlay {text : String}
    (added : s.addOverlay frames uri text = .ok (s', d)) :
    s'.current? u = if u = uri then some d else s.current? u := by
  obtain ⟨doc, -, -, rfl⟩ := addOverlay_inv added
  unfold current?
  by_cases same : u = uri
  · simp [same]
  · simp [same, List.lookup_cons, lookup_withoutEntry, beq_eq_false_iff_ne.mpr same]

theorem current?_invalidate :
    (s.invalidate uri).current? u = if u = uri then none else s.current? u := by
  unfold current? invalidate
  by_cases same : u = uri <;> simp [same, lookup_withoutEntry]

/-- What can have become of a set of documents, with all documents that were given out on
the way. A document can also be read apart from the set; it is numbered with the others. -/
inductive History : SourceSet → List Source → Prop
  | start : History .empty []
  | overlay {frames : Nat} {s s' : SourceSet} {given : List Source} {uri text : String}
      {d : Source} :
      History s given → s.addOverlay frames uri text = .ok (s', d) → History s' (d :: given)
  | fetch {s : SourceSet} {given : List Source} (frames : Nat) (files : FileStore)
      (extension uri : String) :
      History s given →
      History (s.fetch frames files extension uri).sources
        ((s.fetch frames files extension uri).found.toList ++ given)
  | invalidate {s : SourceSet} {given : List Source} (uri : String) :
      History s given → History (s.invalidate uri) given
  | apart {frames : Nat} {s : SourceSet} {given : List Source} {uri text : String}
      {doc : Document} :
      History s given → Document.parse frames uri text = .ok doc →
      History { s with next := s.next + 1 } (⟨.reading s.next, doc⟩ :: given)

/-- All documents that are kept were given out, and what was given out can be told apart by
identity. Readings to come are numbered differently. -/
structure Accounted (s : SourceSet) (given : List Source) : Prop where
  kept : ∀ ⦃u d⦄, s.current? u = some d → d ∈ given
  numbered : ∀ d ∈ given, ∃ n < s.next, d.id = .reading n
  distinct : ∀ d ∈ given, ∀ d' ∈ given, d.id = d'.id → d = d'
  parsed : ∀ d ∈ given, ∃ frames uri text, Document.parse frames uri text = .ok d.document

variable {given : List Source}

/-- A new reading joins those that were given out. -/
theorem Accounted.give (h : s.Accounted given) {doc : Document} {text : String}
    (parsed : Document.parse frames uri text = .ok doc) (next : s'.next = s.next + 1)
    (kept : ∀ ⦃u d⦄, s'.current? u = some d →
      d = ⟨.reading s.next, doc⟩ ∨ s.current? u = some d) :
    s'.Accounted (⟨.reading s.next, doc⟩ :: given) := by
  -- the number of the new reading is on no earlier one
  have fresh : ∀ d ∈ given, d.id ≠ .reading s.next := by
    intro d hd same
    obtain ⟨n, lt, numbered⟩ := h.numbered d hd
    rw [numbered] at same
    cases same
    exact absurd lt (Nat.lt_irrefl _)
  constructor
  · intro u d known
    rcases kept known with rfl | before
    · exact List.mem_cons_self
    · exact List.mem_cons_of_mem _ (h.kept before)
  · intro d hd
    rcases List.mem_cons.mp hd with rfl | hd
    · exact ⟨s.next, by omega, rfl⟩
    · obtain ⟨n, lt, numbered⟩ := h.numbered d hd
      exact ⟨n, by omega, numbered⟩
  · intro d hd d' hd' same
    rcases List.mem_cons.mp hd with rfl | hd <;> rcases List.mem_cons.mp hd' with rfl | hd'
    · rfl
    · exact absurd same.symm (fresh d' hd')
    · exact absurd same (fresh d hd)
    · exact h.distinct d hd d' hd' same
  · intro d hd
    rcases List.mem_cons.mp hd with rfl | hd
    · exact ⟨frames, uri, text, parsed⟩
    · exact h.parsed d hd

/-- A document that was given out can be given out again. -/
theorem Accounted.again (h : s.Accounted given) (known : d ∈ given) : s.Accounted (d :: given) := by
  have same : ∀ d', d' ∈ d :: given ↔ d' ∈ given := by simp [known]
  constructor
  · intro u d' hd'
    exact (same d').mpr (h.kept hd')
  · intro d' hd'
    exact h.numbered d' ((same d').mp hd')
  · intro a ha b hb
    exact h.distinct a ((same a).mp ha) b ((same b).mp hb)
  · intro d' hd'
    exact h.parsed d' ((same d').mp hd')

theorem Accounted.fetch (h : s.Accounted given) (frames : Nat) (files : FileStore)
    (extension uri : String) :
    (s.fetch frames files extension uri).sources.Accounted
      ((s.fetch frames files extension uri).found.toList ++ given) := by
  rcases fetch_cases s frames files extension uri with
    ⟨d, known, eq⟩ | ⟨unknown, unreadable, -⟩ | ⟨doc, unknown, readable, eq⟩
  · rw [eq]
    exact h.again (h.kept known)
  · obtain ⟨same, nothing⟩ := fetch_of_unreadable unknown unreadable
    rw [same, nothing]
    exact h
  · rw [eq]
    obtain ⟨-, _, text, -, -, parsed⟩ := FileStore.schema?_eq_some_iff.mp readable
    apply h.give parsed rfl
    intro u d known
    rw [current?_keep unknown doc] at known
    split at known
    · exact .inl (Option.some.inj known).symm
    · exact .inr known

/-- However documents were read, replaced and forgotten, they are accounted for. -/
theorem History.accounted (h : History s given) : s.Accounted given := by
  induction h with
  | start => exact ⟨by simp [current?, empty], by simp, by simp, by simp⟩
  | overlay _ added ih =>
    obtain ⟨doc, parsed, rfl, next⟩ := addOverlay_inv added
    apply ih.give parsed (by rw [next])
    intro u d hd
    rw [current?_addOverlay added] at hd
    split at hd
    · exact .inl (Option.some.inj hd).symm
    · exact .inr hd
  | fetch frames files extension uri _ ih => exact ih.fetch frames files extension uri
  | invalidate uri _ ih =>
    refine ⟨?_, ih.numbered, ih.distinct, ih.parsed⟩
    intro u d hd
    rw [current?_invalidate] at hd
    split at hd
    · exact absurd hd (by simp)
    · exact ih.kept hd
  | apart _ parsed ih => exact ih.give parsed rfl fun u d hd => .inr hd

/-- Fetching on, only more documents are given out. -/
theorem Accounted.grows (h : s.Accounted given) (grows : Grows frames files extension s s') :
    ∃ given', given ⊆ given' ∧ s'.Accounted given' := by
  induction grows with
  | refl => exact ⟨given, List.Subset.refl _, h⟩
  | tail _ step ih =>
    obtain ⟨uri, rfl⟩ := step
    obtain ⟨given', sub, accounted⟩ := ih
    exact ⟨_, List.subset_append_of_subset_right _ sub, accounted.fetch frames files extension uri⟩

end SourceSet

end ProtoNames
