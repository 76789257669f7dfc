import Mathlib.Data.Finset.Dedup
import ProtoNames.Proofs.Transparency

/-!
Inquiries: a query from beginning to end.

An `Inquiry` says where the site is and what is asked there, so that it can be made in any
state of a session. `ask_transparent` says that what has been read before does not matter for
what it is offered. It also says what an inquiry leaves behind: all that was there, and whatever
it had to read, so that it can be repeated without reading anything.
-/

namespace ProtoNames

variable {s : Setup} {p p' q q' : Progress} {d d' : Source}

/-! ### From whereabouts to matches -/

namespace Element

/-- One step down. -/
def step? (e : Element) : Step → Option Element
  | .child i => e.child? i
  | .option i => e.option? i
  | .inside => some e.inside

/-- Some steps down. -/
def follow? (e : Element) (steps : List Step) : Option Element := steps.foldlM step? e

end Element

/-- Where an element is: some steps down in the file at a path, or in the built-in file that a
path means in imports. -/
structure Whereabouts where
  isBuiltIn : Bool
  path : String
  steps : List Step
  deriving DecidableEq, Repr

/-- All that a query is asked: at which site, for what kind of reference, and by which criteria.
An element among the criteria is given by where it is. -/
structure Inquiry where
  site : Whereabouts
  reference : ReferenceKind
  criteria : Whereabouts ⊕ {c : Criteria // ∀ e, c ≠ .element e}

namespace Query

/-- The document in which an element is. -/
def sourceAt (w : Whereabouts) : Query (Option Source) :=
  if w.isBuiltIn then builtIn w.path else document w.path

/-- The element that is somewhere. -/
def elementAt (w : Whereabouts) : Query (Option Element) := do
  let found ← sourceAt w
  return found.bind fun d => (Element.ofSource d).follow? w.steps

/-- The criteria, with the element that is meant. -/
def criteriaAt : Whereabouts ⊕ {c : Criteria // ∀ e, c ≠ .element e} → Query (Option Criteria)
  | .inl w => do
    let found ← elementAt w
    return found.map .element
  | .inr c => return some c.1

/-- What is found for an inquiry, if there are such a site and such criteria. -/
def ask (a : Inquiry) : Query (Option (List Match)) := do
  match ← elementAt a.site with
  | none => return none
  | some site =>
    match ← criteriaAt a.criteria with
    | none => return none
    | some c => return some (← find site a.reference c)

end Query

/-- The names that are offered for an inquiry, each with the file and the place of what it
means, if there is an answer. -/
def Inquiry.offers (a : Inquiry) (s : Setup) (p : Progress) :
    Option (Finset (String × String × List Step)) :=
  ((Query.ask a).run s p).1.toOption.join.map fun found => (found.map Match.place).toFinset

section Steps

variable {paired : Source → Source → Prop} {e e' : Element}

theorem Element.Paired.step (pairing : Pairing paired) (h : e.Paired paired e') (step : Step) :
    Option.Rel (Element.Paired paired) (e.step? step) (e'.step? step) := by
  cases step with
  | child i =>
    simp only [Element.step?, Element.child?, h.body_eq pairing]
    cases e'.body[i]? with
    | none => exact .none
    | some n => exact .some (h.down [(.child i, n)])
  | option i =>
    simp only [Element.step?, Element.option?, h.node?_eq]
    cases e'.node? with
    | none => exact .none
    | some n =>
      cases found : n.settings[i]? with
      | none => simp [found]
      | some o => simpa [found, Element.down] using h.down [(.option i, .leaf (.option o))]
  | inside => exact .some (h.down [(.inside, .leaf (.field Element.undeclaredField))])

theorem Element.Paired.follow (pairing : Pairing paired) (h : e.Paired paired e')
    (steps : List Step) :
    Option.Rel (Element.Paired paired) (e.follow? steps) (e'.follow? steps) := by
  unfold Element.follow?
  induction steps generalizing e e' with
  | nil => exact .some h
  | cons step rest ih =>
    simp only [List.foldlM_cons, Option.bind_eq_bind]
    have first := h.step pairing step
    generalize e.step? step = c at first ⊢
    generalize e'.step? step = c' at first ⊢
    cases first with
    | none => exact .none
    | some same => exact ih same

end Steps

namespace Query

variable {limited : Prop} {w : Whereabouts}

theorem settles_sourceAt (w : Whereabouts) : Settles s limited p (sourceAt w) :=
  settles_ite (settles_builtIn _) (settles_document _)

theorem settles_elementAt (w : Whereabouts) : Settles s limited p (elementAt w) :=
  (settles_sourceAt w).bind fun _ _ _ => settles_pure _

theorem settles_criteriaAt (criteria : Whereabouts ⊕ {c : Criteria // ∀ e, c ≠ .element e}) :
    Settles s limited p (criteriaAt criteria) := by
  rcases criteria with w | c
  · exact (settles_elementAt w).bind fun _ _ _ => settles_pure _
  · exact settles_pure _

/-- An inquiry only looks for documents, and finds them all read when it is repeated. -/
theorem settles_ask (a : Inquiry) (reached : p.sources.Reached s) : Settles s True p (ask a) := by
  refine (settles_elementAt a.site).bind fun found p₁ ran => ?_
  cases found with
  | none => exact settles_pure none
  | some site =>
    refine (settles_criteriaAt a.criteria).bind fun found p₂ ran' => ?_
    cases found with
    | none => exact settles_pure none
    | some c =>
      have opens : p.Opens s p₂ :=
        ((settles_elementAt a.site : Settles s True _ _).opens_of_run ran).trans
          ((settles_criteriaAt a.criteria : Settles s True _ _).opens_of_run ran')
      obtain ⟨given, history⟩ := (reached.opens opens.sources).history
      exact (settles_find site a.reference c history.accounted).bind fun _ _ _ => settles_pure _

theorem sourceAt_alike (alike : p.Alike s p')
    (ran : (sourceAt w).run s p = (.ok (some d), q)) :
    ∃ d' q', (sourceAt w).run s p' = (.ok (some d'), q') ∧ d.Twins s q q' d' := by
  unfold sourceAt at ran ⊢
  split at ran
  · next isBuiltIn =>
    have same := builtIn_eq (s := s) w.path p p'
    rw [ran] at same
    have ran' : (builtIn w.path).run s p' = (.ok (some d), ((builtIn w.path).run s p').2) :=
      Prod.ext same.symm rfl
    rw [if_pos isBuiltIn]
    exact ⟨d, _, ran', .inr (loaded_of_builtIn ran), .inr (loaded_of_builtIn ran'), rfl⟩
  · next notBuiltIn =>
    have same := sameOutcome_document alike.reads w.path
    rw [ran] at same
    cases ran' : (document w.path).run s p' with
    | mk result q' =>
      rw [ran'] at same
      cases same with
      | ok related =>
        cases related with
        | some agree =>
          rw [if_neg notBuiltIn]
          exact ⟨_, q', ran', .inl (stored_of_document ran), .inl (stored_of_document ran'), agree⟩

/-- What is somewhere on one side is there on the other. -/
theorem elementAt_alike {e : Element} (apart : s.modules.AreApart) (alike : p.Alike s p')
    (ran : (elementAt w).run s p = (.ok (some e), q)) :
    ∃ e' q', (elementAt w).run s p' = (.ok (some e'), q') ∧ q.Alike s q' ∧
      e.Paired (Source.Twins s q q') e' := by
  obtain ⟨found, mid, ran, followed⟩ := run_bind_eq_ok ran
  cases found with
  | none => cases followed
  | some d =>
    obtain ⟨d', q', ran', twins⟩ := sourceAt_alike alike ran
    have settles : ∀ p, Settles s True p (sourceAt w) := fun p => settles_sourceAt w
    have alike := alike.later ((settles p).opens_of_run ran) ((settles p').opens_of_run ran')
    simp only [run_pure, Prod.mk.injEq, Except.ok.injEq] at followed
    obtain ⟨there, rfl⟩ := followed
    simp only [elementAt, run_bind, ran', run_pure]
    have top : (Element.ofSource d).Paired (Source.Twins s mid q') (.ofSource d') := ⟨twins, rfl⟩
    have same := top.follow (alike.pairing apart) w.steps
    simp only [Option.bind_some] at there ⊢
    rw [there] at same
    cases there' : (Element.ofSource d').follow? w.steps with
    | none => rw [there'] at same; cases same
    | some e' =>
      rw [there'] at same
      cases same with
      | some same => exact ⟨e', q', rfl, alike, same⟩

theorem criteriaAt_alike {criteria : Whereabouts ⊕ {c : Criteria // ∀ e, c ≠ .element e}}
    {c : Criteria} (apart : s.modules.AreApart) (alike : p.Alike s p')
    (ran : (criteriaAt criteria).run s p = (.ok (some c), q)) :
    ∃ c' q', (criteriaAt criteria).run s p' = (.ok (some c'), q') ∧ q.Alike s q' ∧
      c.Paired (Source.Twins s q q') c' := by
  rcases criteria with w | c
  · obtain ⟨found, mid, ran, rest⟩ := run_bind_eq_ok ran
    cases found with
    | none => cases rest
    | some e =>
      cases rest
      obtain ⟨e', q', ran', alike, same⟩ := elementAt_alike apart alike ran
      refine ⟨.element e', q', ?_, alike, .element same⟩
      simp only [criteriaAt, run_bind, ran']
      rfl
  · cases ran
    exact ⟨c.1, p', rfl, alike, .fixed c.2⟩

/-- What is found for an inquiry on one side is found on the other. -/
theorem ask_alike {a : Inquiry} {found : List Match} (apart : s.modules.AreApart)
    (alike : p.Alike s p')
    (ran : (ask a).run s p = (.ok (some found), q)) :
    ∃ found' q', (ask a).run s p' = (.ok (some found'), q') ∧
      ∀ m ∈ found, ∃ m' ∈ found', m'.place = m.place := by
  obtain ⟨site, p₁, atSite, ran⟩ := run_bind_eq_ok ran
  cases site with
  | none => cases ran
  | some site =>
    obtain ⟨c, p₂, atCriteria, ran⟩ := run_bind_eq_ok ran
    cases c with
    | none => cases ran
    | some c =>
      obtain ⟨_, p₃, ran, rest⟩ := run_bind_eq_ok ran
      cases rest
      obtain ⟨site', p₁', atSite', alike₁, sites⟩ := elementAt_alike apart alike atSite
      obtain ⟨c', p₂', atCriteria', alike₂, criteria⟩ := criteriaAt_alike apart alike₁ atCriteria
      have settles : ∀ p, Settles s True p (criteriaAt a.criteria) :=
        fun p => settles_criteriaAt a.criteria
      have sites := sites.later ((settles _).opens_of_run atCriteria)
        ((settles _).opens_of_run atCriteria')
      obtain ⟨found', p₃', ran'⟩ := find_returns_alike apart alike₂ sites criteria ran
      refine ⟨found', p₃', ?_, find_alike apart alike₂ sites criteria ran ran'⟩
      simp only [ask, run_bind, atSite', atCriteria', ran']
      rfl

end Query

/-! ### Transparency -/

variable {a : Inquiry}

theorem Inquiry.offers_eq_some {offered : Finset (String × String × List Step)} :
    a.offers s p = some offered ↔ ∃ found q, (Query.ask a).run s p = (.ok (some found), q) ∧
      offered = (found.map Match.place).toFinset := by
  unfold offers
  cases ran : (Query.ask a).run s p with
  | mk result q =>
    rcases result with _ | _ | found
    · simp [Except.toOption]
    · simp [Except.toOption]
    · simp [Except.toOption, eq_comm]

/-- What is offered on one side is offered on the other. -/
theorem Inquiry.offers_subset {offered : Finset (String × String × List Step)}
    (apart : s.modules.AreApart) (alike : p.Alike s p') (asked : a.offers s p = some offered) :
    ∃ offered', a.offers s p' = some offered' ∧ offered ⊆ offered' := by
  obtain ⟨found, q, ran, rfl⟩ := offers_eq_some.mp asked
  obtain ⟨found', q', ran', covered⟩ := Query.ask_alike apart alike ran
  refine ⟨_, offers_eq_some.mpr ⟨found', q', ran', rfl⟩, ?_⟩
  intro place offered
  simp only [List.mem_toFinset, List.mem_map] at offered ⊢
  obtain ⟨m, member, rfl⟩ := offered
  exact covered m member

theorem Inquiry.offers_eq (apart : s.modules.AreApart) (alike : p.Alike s p') :
    a.offers s p = a.offers s p' := by
  cases asked : a.offers s p with
  | some offered =>
    obtain ⟨offered', asked', sub⟩ := offers_subset apart alike asked
    obtain ⟨again, asked'', sub'⟩ := offers_subset apart alike.symm asked'
    cases asked.symm.trans asked''
    rw [asked', Finset.Subset.antisymm sub sub']
  | none =>
    cases asked' : a.offers s p' with
    | none => rfl
    | some offered' =>
      obtain ⟨offered, asked'', -⟩ := offers_subset apart alike.symm asked'
      exact absurd (asked.symm.trans asked'') (by simp)

/-- What has been read before does not matter: in two states that are reached, with the same
texts in place of files and all files loaded as they are now, an inquiry is offered the same. In
every state that is reached it leaves all entries as they are, and counts a loaded file for each
that it adds. If it is repeated at once, it has the same outcome, and loads nothing. -/
theorem ask_transparent (a : Inquiry) (s : Setup) (apart : s.modules.AreApart) :
    (∀ p p' : Progress, p.sources.Reached s → p'.sources.Reached s →
      p.patience = none → p'.patience = none →
      (∀ u, (p.sources.overlays.lookup u).map (·.document) =
        (p'.sources.overlays.lookup u).map (·.document)) →
      p.sources.IsFresh s.around.frames s.files → p'.sources.IsFresh s.around.frames s.files →
      a.offers s p = a.offers s p') ∧
    ∀ p p' : Progress, p.sources.Reached s → ((Query.ask a).run s p).2 = p' →
      p.sources.Extends p'.sources ∧
      p'.sources.loadCount + p.sources.size = p.sources.loadCount + p'.sources.size ∧
      (p.patience = none → ((Query.ask a).run s p').1 = ((Query.ask a).run s p).1 ∧
        ((Query.ask a).run s p').2.sources = p'.sources) := by
  refine ⟨?_, ?_⟩
  · intro p p' reached reached' patient patient' overlays fresh fresh'
    apply Inquiry.offers_eq apart
    refine ⟨reached, reached', patient, patient', fun u => ?_⟩
    rw [reached.reads_eq fresh, reached'.reads_eq fresh', overlays]
  · rintro p _ reached rfl
    obtain ⟨opens, again⟩ := Query.settles_ask a reached
    have extends_ := opens.sources.grows.extends
    refine ⟨extends_, extends_.loadCount_add reached.tidy (reached.opens opens.sources).tidy, ?_⟩
    intro patient
    obtain ⟨same, kept, -⟩ := again _ .refl fun _ => (opens.patience patient).trans patient.symm
    exact ⟨same, kept⟩

/-! ### Files that do not change -/

theorem SourceSet.isFresh_empty (frames : Nat) (files : FileStore) :
    SourceSet.empty.IsFresh frames files :=
  fun _ stands => absurd stands List.not_mem_nil

/-- Requests leave files as they are, so what was loaded stays as it is in the files. -/
theorem SourceSet.IsFresh.answer {frames : Nat} {files : FileStore} {sources : SourceSet}
    (fresh : sources.IsFresh frames files) (extension uri : String) (r : Request) :
    (sources.answer frames files extension uri r).2.IsFresh frames files := by
  rcases answer_cases frames files extension uri r sources with same | eq | ⟨text, d, added⟩ | eq
  · rw [same]
    exact fresh
  · rw [eq]
    rcases fetch_cases sources frames files extension uri with
      ⟨_, -, eq⟩ | ⟨-, -, _, _, eq, -⟩ | ⟨doc, -, readable, eq⟩
    · rw [eq]
      exact fresh
    · rw [eq]
      exact fresh
    · rw [eq]
      intro e stands
      rcases List.mem_cons.mp stands with rfl | stands
      · exact (FileStore.schema?_eq_some_iff.mp readable).2
      · exact fresh e (mem_withoutEntry.mp stands).1
  · obtain ⟨_, -, -, kept⟩ := addOverlay_inv added
    rw [kept]
    exact fun e stands => fresh e (mem_withoutEntry.mp stands).1
  · rw [eq]
    exact fun e stands => fresh e (mem_withoutEntry.mp stands).1

/-- An operation that is a request. -/
def Operation.isRequest : Operation → Bool
  | .request _ _ => true
  | _ => false

theorem SourceSet.IsFresh.run {x : Workspace SourceSet} {around : Surroundings}
    (fresh : x.documents.IsFresh around.frames x.files) (extension : String)
    (operations : List Operation)
    (requests : ∀ op ∈ operations, op.isRequest = true) :
    (keeper.run around extension x operations).2.files = x.files ∧
      (keeper.run around extension x operations).2.documents.IsFresh around.frames x.files := by
  induction operations generalizing x with
  | nil => exact ⟨rfl, fresh⟩
  | cons op rest ih =>
    obtain ⟨isRequest, others⟩ := List.forall_mem_cons.mp requests
    cases op with
    | request path r =>
      simp only [Keeper.run, Keeper.perform]
      cases Path.uri around path with
      | error e => exact ih fresh others
      | ok uri => exact ih (fresh.answer extension uri r) others
    | _ => cases isRequest

/-- Three files, the first of which imports the others. -/
def trioFiles : FileStore where
  entries := [
    ("/a.proto", "import 'b.proto'; import 'c.proto'; message A { }".toUTF8.toList),
    ("/b.proto", "message B { }".toUTF8.toList),
    ("/c.proto", "enum F { X = 0; Y = 1; }".toUTF8.toList)]

/-- A text stands in place of the second file. -/
def trioEarly : List Operation := [.request "/x/../b.proto" (.overlay "enum E { V = 0; }")]

/-- Later the others are opened, the last one first. -/
def trioLater : List Operation := [.request "c.proto" .fetch, .request "/a.proto" .fetch]

def trioSetup : Setup := .plain trioFiles

/-- The state after some operations. -/
def trioAfter (operations : List Operation) : Progress :=
  ⟨(SourceSet.keeper.run .plain schemaExtension ⟨.empty, trioFiles⟩ operations).2.documents,
    [], [], none⟩

/-- Which values of the enum in the third file can be named in the first? -/
def trioInquiry : Inquiry where
  site := ⟨false, "a.proto", [.inside]⟩
  reference := .literal
  criteria := .inl ⟨false, "c.proto", [.child 0]⟩

theorem trioAfter_spec (operations : List Operation)
    (requests : ∀ op ∈ operations, op.isRequest = true) :
    (trioAfter operations).sources.Reached trioSetup ∧
      (trioAfter operations).sources.IsFresh trioSetup.around.frames trioFiles := by
  obtain ⟨files, fresh⟩ := (SourceSet.isFresh_empty _ trioFiles).run (x := ⟨.empty, trioFiles⟩)
    schemaExtension operations requests
  exact ⟨⟨trioFiles, operations, congrArg (Workspace.mk (trioAfter operations).sources) files⟩,
    fresh⟩

/-- Early and late the two values are offered, although the enum has been read at another
time. -/
theorem ask_transparent_trio :
    trioInquiry.offers trioSetup (trioAfter trioEarly) =
      trioInquiry.offers trioSetup (trioAfter (trioEarly ++ trioLater)) ∧
    (trioInquiry.offers trioSetup (trioAfter trioEarly)).map Finset.card = some 2 ∧
    (trioAfter trioEarly).sources.current? "/c.proto" = none ∧
    ((trioAfter (trioEarly ++ trioLater)).sources.current? "/c.proto").map (·.id) =
      some (.reading 1) ∧
    ((Query.ask trioInquiry).run trioSetup
      (trioAfter (trioEarly ++ trioLater))).2.sources.loadCount = 2 := by
  obtain ⟨reached, fresh⟩ := trioAfter_spec trioEarly (by decide)
  obtain ⟨reached', fresh'⟩ := trioAfter_spec (trioEarly ++ trioLater) (by decide)
  have overlays : (trioAfter (trioEarly ++ trioLater)).sources.overlays =
      (trioAfter trioEarly).sources.overlays := by
    have opens : SourceSet.Opens trioSetup (trioAfter trioEarly).sources
        (trioAfter (trioEarly ++ trioLater)).sources := by
      simp only [trioAfter, Keeper.run_append]
      refine SourceSet.opens_run (s := trioSetup) (by simp [trioLater]) ?_
      exact ((SourceSet.isFresh_empty _ trioFiles).run (x := ⟨.empty, trioFiles⟩) _ _
        (by decide)).1
    exact opens.grows.extends.overlays
  refine ⟨?_, by decide +kernel, by decide +kernel, by decide +kernel, by decide +kernel⟩
  obtain ⟨same, -⟩ := ask_transparent trioInquiry trioSetup Builtin.areApart_wellKnown
  refine same _ _ reached reached' rfl rfl ?_ fresh fresh'
  intro u
  rw [overlays]

end ProtoNames
