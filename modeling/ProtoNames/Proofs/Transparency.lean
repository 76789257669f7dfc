import Mathlib.Data.Option.Basic
import ProtoNames.Proofs.OneDocument
import ProtoNames.Proofs.Twins

/-!
What has been read before does not matter.

Two states of a session are `Alike` if asking for any path gives the same document in both,
whether it has been read or not. They stay alike while documents are looked for. Imports lead
to the same documents in both, along the same chains (`ImportChain.alike`), so a query finds the
same declarations under the same names (`find_alike`), although documents that are the same may
have been read at different times and so have different identities.
-/

namespace ProtoNames

variable {s : Setup} {p p' q q' : Progress} {d d' : Source} {i : ImportRef}

/-! ### What can be read -/

namespace SourceSet

/-- What asking for a path gives: the document that has been read, or else what reading its
file gives. -/
def reads (s : Setup) (sources : SourceSet) (uri : String) : Except StackError (Option Document) :=
  match sources.current? uri with
  | some d => .ok (some d.document)
  | none => s.files.reading s.around.frames s.config.extension uri

variable {sources sources' : SourceSet} {uri u : String} {d : Source}

theorem reads_of_known (known : sources.current? uri = some d) :
    sources.reads s uri = .ok (some d.document) := by
  rw [reads, known]

theorem reads_of_unknown (unknown : sources.current? uri = none) :
    sources.reads s uri = s.files.reading s.around.frames s.config.extension uri := by
  rw [reads, unknown]

theorem document_fetch :
    (sources.fetch s.around.frames s.files s.config.extension uri).outcome.map
      (Option.map (·.document)) = sources.reads s uri := by
  cases known : sources.current? uri with
  | some d =>
    rw [reads_of_known known, fetch, known]
    rfl
  | none =>
    rw [reads_of_unknown known]
    rcases fetch_of_unknown known s.around.frames s.files s.config.extension with
      ⟨doc, read, -, eq⟩ | ⟨_, _, eq, ⟨rfl, read⟩ | ⟨rfl, read⟩⟩
    · rw [eq, read]
      rfl
    · rw [eq, read]
      rfl
    · rw [eq, read]
      rfl

/-- Looking for documents does not change what can be read. -/
theorem Grows.reads_eq
    (grows : Grows s.around.frames s.files s.config.extension sources sources') :
    sources'.reads s u = sources.reads s u := by
  cases known : sources.current? u with
  | some d => rw [reads_of_known known, reads_of_known (grows.keeps known)]
  | none =>
    rw [reads_of_unknown known]
    cases known' : sources'.current? u with
    | none => rw [reads_of_unknown known']
    | some d =>
      rcases grows.adds known' with before | readable
      · exact absurd (before.symm.trans known) (by simp)
      · rw [reads_of_known known', FileStore.reading_of_schema? readable]

/-- Every file that was loaded still spells the document that was read. -/
def IsFresh (frames : Nat) (files : FileStore) (sources : SourceSet) : Prop :=
  ∀ e ∈ sources.loaded, files.Spells frames e.1 e.2.document

/-- As long as no file has changed, what can be read is what stands in place of files, and
what the other files spell. -/
theorem Reached.reads_eq (reached : sources.Reached s)
    (fresh : sources.IsFresh s.around.frames s.files) :
    sources.reads s u = match (sources.overlays.lookup u).map (·.document) with
      | some doc => .ok (some doc)
      | none => s.files.reading s.around.frames s.config.extension u := by
  rw [reads, current?]
  cases sources.overlays.lookup u with
  | some d => rfl
  | none =>
    cases loaded : sources.loaded.lookup u with
    | none => rfl
    | some d =>
      have stands : (u, d) ∈ sources.loaded := by
        obtain ⟨before, after, split, -⟩ := List.lookup_eq_some_iff.mp loaded
        simp [split]
      have readable := FileStore.schema?_eq_some_iff.mpr ⟨reached.suffixed stands, fresh _ stands⟩
      exact (FileStore.reading_of_schema? readable).symm

end SourceSet

/-- Two states in which every path gives the same document. Nobody loses patience. -/
structure Progress.Alike (s : Setup) (p p' : Progress) : Prop where
  reached : p.sources.Reached s
  reached' : p'.sources.Reached s
  patient : p.patience = none
  patient' : p'.patience = none
  reads : ∀ u, p.sources.reads s u = p'.sources.reads s u

/-- Two sources at hand that are the same document. -/
structure Source.Twins (s : Setup) (p p' : Progress) (d d' : Source) : Prop where
  held : p.Holds s d
  held' : p'.Holds s d'
  document : d.document = d'.document

namespace Progress.Alike

theorem symm (h : p.Alike s p') : p'.Alike s p :=
  ⟨h.reached', h.reached, h.patient', h.patient, fun u => (h.reads u).symm⟩

theorem later (h : p.Alike s p') (opens : p.Opens s q) (opens' : p'.Opens s q') :
    q.Alike s q' := by
  refine ⟨h.reached.opens opens.sources, h.reached'.opens opens'.sources,
    opens.patience h.patient, opens'.patience h.patient', fun u => ?_⟩
  rw [opens.sources.grows.reads_eq, opens'.sources.grows.reads_eq, h.reads]

/-- In states that are alike, identities agree on what is one document. -/
theorem pairing (apart : s.modules.AreApart) (h : p.Alike s p') :
    Pairing (Source.Twins s p p') where
  document _ _ twins := twins.document
  id_iff _ _ _ _ twins twins' := by
    rw [twins.held.id_eq_iff apart h.reached twins'.held,
      twins.held'.id_eq_iff apart h.reached' twins'.held', twins.document, twins'.document]

end Progress.Alike

theorem Source.Twins.symm (h : d.Twins s p p' d') : d'.Twins s p' p d :=
  ⟨h.held', h.held, h.document.symm⟩

theorem Source.Twins.later (h : d.Twins s p p' d') (opens : p.Opens s q) (opens' : p'.Opens s q') :
    d.Twins s q q' d' :=
  ⟨h.held.grows opens.grows, h.held'.grows opens'.grows, h.document⟩

/-! ### Where imports lead -/

/-- Outcomes on two sides: one failure, or results that are related. -/
inductive SameOutcome {α β : Type} (related : α → β → Prop) :
    Except QueryError α → Except QueryError β → Prop
  | error (e : QueryError) : SameOutcome related (.error e) (.error e)
  | ok {a : α} {b : β} : related a b → SameOutcome related (.ok a) (.ok b)

/-- Two sources of one document. -/
def Source.Agrees (d d' : Source) : Prop := d.document = d'.document

/-- Outcomes that give the same document, or fail alike. -/
theorem sameOutcome_of_documents {found found' : Except StackError (Option Source)}
    (same : found.map (Option.map (·.document)) = found'.map (Option.map (·.document))) :
    SameOutcome (Option.Rel Source.Agrees) (found.mapError .stack) (found'.mapError .stack) := by
  match found, found', same with
  | .error e, .error _, rfl => exact .error _
  | .ok none, .ok none, _ => exact .ok .none
  | .ok (some d), .ok (some d'), same =>
    exact .ok (.some (Option.some.inj (Except.ok.inj same)))

namespace Query

variable {α β : Type}

/-- Queries that start alike and go on alike have the same outcome. -/
theorem sameOutcome_bind {first : Query α} {f f' : α → Query β} {related : α → α → Prop}
    {related' : β → β → Prop}
    (start : SameOutcome related (first.run s p).1 (first.run s p').1)
    (onwards : ∀ a a', related a a' →
      SameOutcome related' ((f a).run s (first.run s p).2).1 ((f' a').run s (first.run s p').2).1) :
    SameOutcome related' ((first >>= f : Query β).run s p).1
      ((first >>= f' : Query β).run s p').1 := by
  rw [run_bind, run_bind]
  rcases ran : first.run s p with ⟨result, after⟩
  rcases ran' : first.run s p' with ⟨result', after'⟩
  rw [ran, ran'] at start onwards
  cases start with
  | error e => exact .error e
  | ok same => exact onwards _ _ same

section Reads

variable (reads : ∀ u, p.sources.reads s u = p'.sources.reads s u)

include reads

theorem sameOutcome_document (path : String) :
    SameOutcome (Option.Rel Source.Agrees) ((document path).run s p).1
      ((document path).run s p').1 := by
  simp only [run_document]
  cases form : Path.uri s.around path with
  | error e => exact .error _
  | ok u =>
    have same := reads u
    rw [← SourceSet.document_fetch, ← SourceSet.document_fetch] at same
    exact sameOutcome_of_documents same

theorem sameOutcome_firstDocument (paths : List Path) :
    SameOutcome (Option.Rel Source.Agrees) ((firstDocument paths).run s p).1
      ((firstDocument paths).run s p').1 := by
  induction paths generalizing p p' with
  | nil => exact .ok .none
  | cons path rest ih =>
    apply sameOutcome_bind (sameOutcome_document reads path.toString)
    rintro _ _ (same | _)
    · exact .ok (.some same)
    · apply ih
      intro u
      rw [(opens_document path.toString).sources.grows.reads_eq,
        (opens_document path.toString).sources.grows.reads_eq, reads]

theorem sameOutcome_resolve (i : ImportRef) :
    SameOutcome (Option.Rel Source.Agrees) ((resolve i).run s p).1 ((resolve i).run s p').1 := by
  unfold resolve
  simp only [run_read_bind]
  split
  · split
    · exact .error _
    · apply sameOutcome_bind (sameOutcome_firstDocument reads _)
      rintro _ _ (same | _)
      · exact .ok (.some same)
      · exact .ok .none
  · exact .ok .none

theorem sameOutcome_supported (i : ImportRef) :
    SameOutcome (Option.Rel Source.Agrees) ((supported i).run s p).1
      ((supported i).run s p').1 := by
  unfold supported
  simp only [run_read_bind]
  apply sameOutcome_bind (sameOutcome_resolve reads i)
  rintro _ _ (same | _)
  · rw [Source.Agrees] at same
    simp only [same]
    split
    · exact .ok (.some same)
    · exact .ok .none
  · exact .ok .none

omit reads in
/-- The built-in file for a path does not depend on what has been read. -/
theorem builtIn_eq (path : String) (p p' : Progress) :
    ((builtIn path).run s p).1 = ((builtIn path).run s p').1 := by
  simp only [builtIn, run_read_bind]
  cases s.config.builtIns.lookup path with
  | none => rfl
  | some module =>
    cases loaded : s.modules.document module with
    | error e =>
      simp only [builtInModule, run_read_bind, loaded]
      split <;> rfl
    | ok doc =>
      obtain ⟨_, -, ran⟩ := run_builtInModule (s := s) (p := p) loaded
      obtain ⟨_, -, ran'⟩ := run_builtInModule (s := s) (p := p') loaded
      simp only [ran, ran']

/-- An import leads to the same document on both sides. -/
theorem sameOutcome_destination (i : ImportRef) :
    SameOutcome (Option.Rel (Visit.Paired Source.Agrees)) ((destination i).run s p).1
      ((destination i).run s p').1 := by
  unfold destination
  simp only [run_read_bind]
  split
  · simp only [bind_pure_comp, run_map, builtIn_eq i.path p p']
    rcases ((builtIn i.path).run s p').1 with e | _ | b
    · exact .error e
    · exact .ok .none
    · exact .ok (.some (.builtIn rfl))
  · simp only [bind_pure_comp, run_map]
    have supported := sameOutcome_supported reads i
    generalize ((Query.supported i).run s p).1 = found at supported ⊢
    generalize ((Query.supported i).run s p').1 = found' at supported ⊢
    cases supported with
    | error e => exact .error e
    | ok same =>
      cases same with
      | none => exact .ok .none
      | some same => exact .ok (.some (.imported same))

end Reads

end Query

section Reads

variable (reads : ∀ u, p.sources.reads s u = p'.sources.reads s u)

include reads

theorem ImportRef.LeadsTo.alike {v : Visit} (leads : i.LeadsTo s p v) :
    ∃ v', i.LeadsTo s p' v' ∧ v.Paired Source.Agrees v' := by
  have same := Query.sameOutcome_destination reads i
  unfold LeadsTo at leads ⊢
  rw [leads] at same
  generalize ((Query.destination i).run s p').1 = outcome at same ⊢
  cases same with
  | ok related =>
    cases related with
    | some paired => exact ⟨_, rfl, paired⟩

theorem ImportRef.Fails.alike {e : QueryError} (fails : i.Fails s p e) : i.Fails s p' e := by
  have same := Query.sameOutcome_destination reads i
  unfold Fails at fails ⊢
  rw [fails] at same
  generalize ((Query.destination i).run s p').1 = outcome at same ⊢
  cases same
  rfl

/-! ### Chains of imports -/

variable {start start' : Source}

/-- A chain of imports leads through the same documents on both sides. -/
theorem ImportChain.alike {chain : List (ImportRef × Source)}
    (linked : ImportChain s p start chain) (agree : start.Agrees start') :
    ∃ chain', ImportChain s p' start' chain' ∧ chain'.map (·.1) = chain.map (·.1) ∧
      (chainEnd start chain).Agrees (chainEnd start' chain') := by
  induction chain generalizing start start' with
  | nil => exact ⟨[], trivial, rfl, agree⟩
  | cons link rest ih =>
    obtain ⟨i, d⟩ := link
    obtain ⟨stands, leads, linked⟩ := linked
    obtain ⟨_, leads', _ | same⟩ := leads.alike reads
    obtain ⟨chain', linked', imports, ends⟩ := ih linked same
    rw [agree] at stands
    exact ⟨(i, _) :: chain', ⟨stands, leads', linked'⟩, by simp [imports], ends⟩

theorem ImportRef.CountsFor.alike (counting : i.CountsFor s p start)
    (agree : start.Agrees start') : i.CountsFor s p' start' := by
  obtain ⟨chain, linked, stands, rule⟩ := counting
  obtain ⟨chain', linked', imports, ends⟩ := linked.alike reads agree
  rw [ends] at stands
  exact ⟨chain', linked', stands, by rw [imports]; exact rule⟩

theorem Source.Sees.alike (sees : start.Sees s p d) (agree : start.Agrees start') :
    ∃ d', start'.Sees s p' d' ∧ d.Agrees d' := by
  obtain ⟨i, counting, leads⟩ := sees_iff.mp sees
  obtain ⟨_, leads', _ | same⟩ := leads.alike reads
  exact ⟨_, sees_iff.mpr ⟨i, counting.alike reads agree, leads'⟩, same⟩

end Reads

/-! ### What is found -/

section Find

variable {site site' : Element} {r : ReferenceKind} {c c' : Criteria} {found found' : List Match}
  (apart : s.modules.AreApart) (alike : p.Alike s p')
  (sites : site.Paired (Source.Twins s p p') site')
  (criteria : c.Paired (Source.Twins s p p') c')

theorem Element.Paired.later (h : site.Paired (Source.Twins s p p') site') (opens : p.Opens s q)
    (opens' : p'.Opens s q') : site.Paired (Source.Twins s q q') site' :=
  ⟨h.source.later opens opens', h.trail⟩

theorem Criteria.Paired.later (h : c.Paired (Source.Twins s p p') c') (opens : p.Opens s q)
    (opens' : p'.Opens s q') : c.Paired (Source.Twins s q q') c' := by
  cases h with
  | fixed noElement => exact .fixed noElement
  | element same => exact .element (same.later opens opens')

include apart alike sites criteria

/-- A query that returns on one side returns on the other. -/
theorem find_returns_alike (ran : (Query.find site r c).run s p = (.ok found, q)) :
    ∃ found' q', (Query.find site' r c').run s p' = (.ok found', q') := by
  obtain ⟨given, history⟩ := alike.reached.history
  obtain ⟨given', history'⟩ := alike.reached'.history
  have known := (sites.source.held.available history.accounted).known
  have opens := opens_of_find alike.reached ran
  cases ran' : (Query.find site' r c').run s p' with
  | mk result q' =>
    have opens' := opens_of_find alike.reached' ran'
    cases result with
    | ok found' => exact ⟨found', q', rfl⟩
    | error e =>
      rcases find_error history' ran' with
        ⟨_, senseless, -⟩ | ⟨-, impatient⟩ | ⟨i, counting, fails⟩
      · obtain ⟨w, -, accepted, -⟩ := find_ok history known ran
        obtain ⟨w', accepted', -⟩ :=
          Wanted.ofCriteria_paired (alike.pairing apart) criteria accepted
        exact absurd (accepted'.symm.trans senseless) (by simp)
      · exact absurd alike.patient' impatient
      · -- the import would fail on this side as well
        have reads := (alike.later opens opens').symm.reads
        exact absurd (fails.alike reads)
          (find_succeeds history known ran (counting.alike reads sites.source.symm.document))

/-- Whatever is found on one side is found on the other, in the same place of the same file and
under the same name. -/
theorem find_alike (ran : (Query.find site r c).run s p = (.ok found, q))
    (ran' : (Query.find site' r c').run s p' = (.ok found', q')) :
    ∀ m ∈ found, ∃ m' ∈ found', m'.place = m.place := by
  obtain ⟨given, history⟩ := alike.reached.history
  obtain ⟨given', history'⟩ := alike.reached'.history
  have known := (sites.source.held.available history.accounted).known
  have known' := (sites.source.held'.available history'.accounted).known
  have opens := opens_of_find alike.reached ran
  have opens' := opens_of_find alike.reached' ran'
  have alike := alike.later opens opens'
  have sites := sites.later opens opens'
  have criteria := criteria.later opens opens'
  obtain ⟨w, visits, accepted, -, contributing, rfl⟩ := find_ok history known ran
  obtain ⟨w', visits', accepted', -, contributing', rfl⟩ := find_ok history' known' ran'
  obtain ⟨_, accepted'', wanted⟩ := Wanted.ofCriteria_paired (alike.pairing apart) criteria accepted
  cases accepted'.symm.trans accepted''
  have agree : site.source.Agrees site'.source := sites.source.document
  have visit : ∀ v ∈ visits, ∃ v' ∈ visits', v.Paired (Source.Twins s q q') v' := by
    rintro (b | d) member
    · obtain ⟨i, counting, leads⟩ := (contributing.builtIn b).mp member
      obtain ⟨_, leads', same | _⟩ := leads.alike alike.reads
      refine ⟨_, (contributing'.builtIn _).mpr ⟨i, counting.alike alike.reads agree, leads'⟩, ?_⟩
      exact .builtIn ⟨.inr leads.loaded, .inr leads'.loaded, same⟩
    · obtain ⟨other, sees⟩ := (contributing.imported d).mp member
      obtain ⟨d', sees', same⟩ := sees.alike alike.reads agree
      have twins : Source.Twins s q q' d d' :=
        ⟨.inl (find_stored history known ran sees), .inl (find_stored history' known' ran' sees'),
          same⟩
      refine ⟨.imported d', (contributing'.imported d').mpr ⟨?_, sees'⟩, .imported twins⟩
      -- were it the document of the site there, it would be here
      rintro rfl
      apply other
      apply twins.held.eq_of_uri apart alike.reached sites.source.held
      rw [same, agree]
  have places : ∀ {name e e'}, e.Paired (Source.Twins s q q') e' →
      Match.place ⟨name, e'⟩ = Match.place ⟨name, e⟩ := by
    intro name e e' same
    simp only [Match.place, Match.uri, same.source.document, same.steps_eq]
  rintro ⟨name, e⟩ member
  rcases List.mem_append.mp member with own | visited
  · obtain ⟨e', own', same⟩ := Wanted.mem_inOwn_paired (alike.pairing apart) wanted sites own
    exact ⟨_, List.mem_append_left _ own', places same⟩
  · obtain ⟨v, member, seen⟩ := List.mem_flatMap.mp visited
    obtain ⟨v', member', same⟩ := visit v member
    obtain ⟨e', seen', same⟩ := Wanted.mem_inVisit_paired (alike.pairing apart) wanted same seen
    rw [agree] at seen'
    exact ⟨_, List.mem_append_right _ (List.mem_flatMap.mpr ⟨v', member', seen'⟩), places same⟩

end Find

end ProtoNames
