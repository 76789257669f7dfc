import ProtoNames.Proofs.Inquiries
import ProtoNames.Proofs.Worklist
import ProtoNames.Scope.Resolve

/-!
A query that is cancelled leaves nothing behind.

* `Worklist.Step.alike`: in states that are alike, the loop over imports takes the same imports
  one after the other, so a query makes as many checks in the one as in the other.
* `Activity` is what goes on in a session while no file changes. `offersIn_alike` says that in
  states that are alike all that follows is offered the same, whenever a token runs out.
* `find_interruptible`: with patience for all of its checks a query has its outcome, with less
  it is cancelled, and in either case no entry changes and nobody notices later.
-/

namespace ProtoNames

variable {s : Setup} {p p' q q' : Progress} {d d' : Source}

/-! ### One place in two states -/

theorem Element.Paired.length_scopes {paired : Source → Source → Prop} {e e' : Element}
    (h : e.Paired paired e') : e.scopes.length = e'.scopes.length := by
  unfold Element.scopes
  rw [h.kind_eq]
  split
  · rfl
  · simp only [Element.containers, List.length_map, h.trail]

theorem Element.Paired.symm {e e' : Element} (h : e.Paired (Source.Twins s p p') e') :
    e'.Paired (Source.Twins s p' p) e := ⟨h.source.symm, h.trail.symm⟩

theorem Criteria.Paired.symm {c c' : Criteria} (h : c.Paired (Source.Twins s p p') c') :
    c'.Paired (Source.Twins s p' p) c := by
  cases h with
  | fixed noElement => exact .fixed noElement
  | element same => exact .element same.symm

/-! ### The loop in two states -/

namespace Worklist

variable {w w' mid last : Worklist} {t : Taking} {takings : List Taking} {k : Nat}
  {out : Except QueryError Unit × Progress}

/-- Documents that have been seen on two sides, in the same order and with the same re-exports. -/
def SeenAlike (paired : Source → Source → Prop) : Visited → Visited → Prop :=
  List.Forall₂ fun e e' => e.2 = e'.2 ∧ ∃ d d', paired d d' ∧ e.1 = d.id ∧ e'.1 = d'.id

theorem SeenAlike.lookup_eq {paired : Source → Source → Prop} {visited visited' : Visited}
    (h : SeenAlike paired visited visited') (pairing : Pairing paired) (same : paired d d') :
    visited.lookup d.id = visited'.lookup d'.id := by
  induction h with
  | nil => rfl
  | @cons e e' rest rest' first _ ih =>
    obtain ⟨id, follow⟩ := e
    obtain ⟨id', follow'⟩ := e'
    obtain ⟨rfl, b, b', same', rfl, rfl⟩ := first
    simp only [Visited.lookup_cons, pairing.id_iff same same', ih]

/-- Two states of the loop in which the same imports wait. -/
structure Alike (s : Setup) (w w' : Worklist) : Prop where
  progress : w.progress.Alike s w'.progress
  pending : w.pending = w'.pending
  visited : SeenAlike (Source.Twins s w.progress w'.progress) w.visited w'.visited

theorem SeenAlike.later {visited visited' : Visited}
    (h : SeenAlike (Source.Twins s p p') visited visited') (opens : p.Opens s q)
    (opens' : p'.Opens s q') : SeenAlike (Source.Twins s q q') visited visited' := by
  refine h.imp ?_
  rintro _ _ ⟨follow, d, d', twins, same⟩
  exact ⟨follow, d, d', twins.later opens opens', same⟩

/-- An import leads to the same on both sides. -/
theorem destination_alike {i : ImportRef} {found : Option Visit} (alike : p.Alike s p')
    (ran : (Query.destination i).run s p = (.ok found, q)) :
    ∃ found' q', (Query.destination i).run s p' = (.ok found', q') ∧ q.Alike s q' ∧
      Option.Rel (Visit.Paired (Source.Twins s q q')) found found' := by
  have outcomes := Query.sameOutcome_destination alike.reads i
  cases ran' : (Query.destination i).run s p' with
  | mk result q' =>
    rw [ran, ran'] at outcomes
    have settles : ∀ p, Query.Settles s True p (Query.destination i) :=
      fun p => Query.settles_destination i
    have later := alike.later ((settles p).opens_of_run ran) ((settles p').opens_of_run ran')
    cases outcomes with
    | ok same =>
      refine ⟨_, q', rfl, later, ?_⟩
      cases same with
      | none => exact .none
      | some paired =>
        cases paired with
        | builtIn agree =>
          exact .some (.builtIn ⟨.inr (Query.loaded_of_destination ran),
            .inr (Query.loaded_of_destination ran'), agree⟩)
        | imported agree =>
          exact .some (.imported ⟨.inl (Query.stored_of_destination ran),
            .inl (Query.stored_of_destination ran'), agree⟩)

/-- What one side does next, the other does. -/
theorem Step.alike (apart : s.modules.AreApart) (h : w.Alike s w') (step : Step s w t mid) :
    ∃ t' mid', Step s w' t' mid' ∧ mid.Alike s mid' := by
  obtain ⟨progress, pending, seen⟩ := h
  obtain ⟨visited', pending', p'⟩ := w'
  have opens : ∀ {i p found p₁}, (Query.destination i).run s p = (found, p₁) → p.Opens s p₁ :=
    fun {i p _ _} ran => (Query.settles_destination i : Query.Settles s True p _).opens_of_run ran
  cases step with
  | nowhere ran =>
    cases pending
    obtain ⟨_, q', ran', later, _ | _⟩ := destination_alike progress ran
    exact ⟨_, _, .nowhere ran', later, rfl, seen.later (opens ran) (opens ran')⟩
  | builtIn ran =>
    cases pending
    obtain ⟨_, q', ran', later, (same | _) | _⟩ := destination_alike progress ran
    exact ⟨_, _, .builtIn ran', later, rfl, seen.later (opens ran) (opens ran')⟩
  | @again visited i rest p p₁ d ran covered =>
    cases pending
    obtain ⟨_, q', ran', later, (_ | same) | _⟩ := destination_alike progress ran
    have seen := seen.later (opens ran) (opens ran')
    rw [Visited.covers, seen.lookup_eq (later.pairing apart) same] at covered
    have logged : ∀ (p : Progress) (e : Event),
        p.Opens s { p with journal := p.journal ++ [e] } := fun p e => ⟨.refl, id⟩
    exact ⟨_, _, .again ran' covered, later.later (logged _ _) (logged _ _), rfl,
      seen.later (logged _ _) (logged _ _)⟩
  | @fresh visited i rest p p₁ d ran fresh =>
    cases pending
    obtain ⟨_, q', ran', later, (_ | same) | _⟩ := destination_alike progress ran
    have seen := seen.later (opens ran) (opens ran')
    rw [Visited.covers, seen.lookup_eq (later.pairing apart) same] at fresh
    refine ⟨_, _, .fresh ran' fresh, later, ?_, .cons ⟨rfl, _, _, same, rfl, rfl⟩ seen⟩
    simp only [reexports, ImportRef.ofDocument, same.document]

theorem Run.alike (apart : s.modules.AreApart) (h : w.Alike s w') (run : Run s w takings last) :
    ∃ takings' last', Run s w' takings' last' ∧ takings'.length = takings.length ∧
      last.Alike s last' := by
  induction run generalizing w' with
  | refl w => exact ⟨[], w', .refl w', rfl, h⟩
  | step first _ ih =>
    obtain ⟨t', mid', first', h⟩ := first.alike apart h
    obtain ⟨takings', last', run', same, h⟩ := ih h
    exact ⟨t' :: takings', last', .step first' run', congrArg (· + 1) same, h⟩

theorem Ends.alike (h : w.Alike s w') (ends : Ends s w k out) : ∃ out', Ends s w' k out' := by
  obtain ⟨progress, pending, -⟩ := h
  obtain ⟨visited', pending', p'⟩ := w'
  cases ends with
  | empty =>
    cases pending
    exact ⟨_, .empty⟩
  | @stuck _ i rest _ _ e failed =>
    cases pending
    have fails : i.Fails s p' e :=
      ImportRef.Fails.alike progress.reads (congrArg Prod.fst failed)
    exact ⟨(.error e, ((Query.destination i).run s p').2), .stuck (Prod.ext fails rfl)⟩

theorem start_alike (alike : p.Alike s p') (twins : d.Twins s p p' d') :
    (start d p).Alike s (start d' p') where
  progress := alike
  pending := by simp only [start, ImportRef.ofDocument, twins.document]
  visited := .cons ⟨rfl, d, d', twins, rfl, rfl⟩ .nil

end Worklist

/-! ### How many checks a query makes -/

namespace Worklist

variable {w last last' : Worklist} {takings takings' : List Taking} {k k' : Nat}
  {out out' : Except QueryError Unit × Progress}

/-- The loop comes to its end in one way. -/
theorem Run.unique (run : Run s w takings last) (ends : Ends s last k out)
    (run' : Run s w takings' last') (ends' : Ends s last' k' out') :
    takings = takings' ∧ k = k' := by
  induction run generalizing takings' with
  | refl w =>
    cases run' with
    | refl => cases ends <;> cases ends' <;> simp_all
    | step first _ => exact absurd first ends.not_step
  | step first _ ih =>
    cases run' with
    | refl => exact absurd first ends'.not_step
    | step first' run' =>
      obtain ⟨rfl, rfl⟩ := first.unique first'
      obtain ⟨rfl, rfl⟩ := ih ends run'
      exact ⟨rfl, rfl⟩

end Worklist

namespace Query

variable {α β : Type} {site site' : Element} {r : ReferenceKind} {c c' : Criteria}
  {wanted : Wanted} {k : Nat} {a : Inquiry}

/-- A query makes one check for each scope around its site, and one for each import that the loop
takes. -/
theorem checks_find {takings : List Taking} {last : Worklist}
    {out : Except QueryError Unit × Progress} (accepted : Wanted.ofCriteria r c = .ok wanted)
    (loop : Worklist.IsLoop s (.start site.source (p.limited none)) (visits site.source) takings
      last k out) : Checks s p (find site r c) (site.scopes.length + (takings.length + k)) := by
  have imports : Checks s (p.limited none) (visits site.source) (takings.length + k) := loop.checks
  have all : Checks s p (find site r c) (0 + (site.scopes.length + (takings.length + k))) := by
    unfold find
    rw [accepted]
    refine (checks_pure wanted).bind rfl ?_
    refine (checks_checks site.scopes).bind (run_checks_patient rfl site.scopes) ?_
    exact imports.andThen fun _ _ => checks_pure _
  rwa [Nat.zero_add] at all

/-- Criteria that make no sense are refused before anything is checked. -/
theorem checks_find_of_error {e : CriteriaError} (refused : Wanted.ofCriteria r c = .error e) :
    Checks s p (find site r c) 0 := by
  unfold find
  rw [refused]
  exact (checks_throw (.criteria e)).bind_error rfl

theorem checks_sourceAt (w : Whereabouts) : Checks s p (sourceAt w) 0 :=
  checks_ite (checks_builtIn _) (checks_document _)

theorem checks_elementAt (w : Whereabouts) : Checks s p (elementAt w) 0 :=
  (checks_sourceAt w).andThen fun _ _ => checks_pure _

theorem checks_criteriaAt (criteria : Whereabouts ⊕ {c : Criteria // ∀ e, c ≠ .element e}) :
    Checks s p (criteriaAt criteria) 0 := by
  rcases criteria with w | c
  · exact (checks_elementAt w).andThen fun _ _ => checks_pure _
  · exact checks_pure _

/-- Where nothing is found to go on with, nothing is checked. -/
theorem checks_of_absent {first : Query (Option α)} {f : Option α → Query (Option β)}
    (free : Checks s p first 0) (stops : f none = pure none)
    (absent : ∀ a mid, first.run s (p.limited none) ≠ (.ok (some a), mid)) :
    Checks s p (first >>= f) 0 := by
  cases ran : first.run s (p.limited none) with
  | mk result mid =>
    rcases result with e | _ | a
    · exact free.bind_error ran
    · exact free.bind ran (stops ▸ checks_pure none)
    · exact absurd ran (absent a mid)

/-- Where something is found to go on with on both sides or on neither, equally many checks are
made if they are from there on. -/
theorem checks_alike_bind {first : Query (Option α)} {f f' : Option α → Query (Option β)}
    (alike : p.Alike s p') (free : ∀ p, Checks s p first 0) (stops : f none = pure none)
    (stops' : f' none = pure none)
    (back : ∀ a' q', first.run s p' = (.ok (some a'), q') →
      ∃ a q, first.run s p = (.ok (some a), q))
    (onwards : ∀ a q, first.run s p = (.ok (some a), q) → ∃ a' q',
      first.run s p' = (.ok (some a'), q') ∧
        ∃ k, Checks s q (f (some a)) k ∧ Checks s q' (f' (some a')) k) :
    ∃ k, Checks s p (first >>= f) k ∧ Checks s p' (first >>= f') k := by
  have itself : p.limited none = p := Progress.limited_eq alike.patient
  have itself' : p'.limited none = p' := Progress.limited_eq alike.patient'
  by_cases present : ∃ a q, first.run s p = (.ok (some a), q)
  · obtain ⟨a, q, ran⟩ := present
    obtain ⟨a', q', ran', k, checks, checks'⟩ := onwards a q ran
    rw [← itself] at ran
    rw [← itself'] at ran'
    exact ⟨0 + k, (free p).bind ran checks, (free p').bind ran' checks'⟩
  · refine ⟨0, checks_of_absent (free p) stops ?_, checks_of_absent (free p') stops' ?_⟩
    · intro a q ran
      rw [itself] at ran
      exact present ⟨a, q, ran⟩
    · intro a' q' ran'
      rw [itself'] at ran'
      exact present (back a' q' ran')

/-- In states that are alike a query makes equally many checks. -/
theorem checks_find_alike (apart : s.modules.AreApart) (alike : p.Alike s p')
    (sites : site.Paired (Source.Twins s p p') site')
    (criteria : c.Paired (Source.Twins s p p') c') :
    ∃ k, Checks s p (find site r c) k ∧ Checks s p' (find site' r c') k := by
  cases given : Wanted.ofCriteria r c with
  | error e =>
    have refused' : ∃ e', Wanted.ofCriteria r c' = .error e' := by
      cases given' : Wanted.ofCriteria r c' with
      | error e' => exact ⟨e', rfl⟩
      | ok wanted' =>
        obtain ⟨w, accepted, -⟩ :=
          Wanted.ofCriteria_paired (alike.symm.pairing apart) criteria.symm given'
        exact absurd (accepted.symm.trans given) (by simp)
    obtain ⟨e', given'⟩ := refused'
    exact ⟨0, checks_find_of_error given, checks_find_of_error given'⟩
  | ok wanted =>
    obtain ⟨wanted', given', -⟩ := Wanted.ofCriteria_paired (alike.pairing apart) criteria given
    obtain ⟨documents, history⟩ := alike.reached.history
    obtain ⟨documents', history'⟩ := alike.reached'.history
    have loops : ∃ takings last k out, Worklist.IsLoop s (.start site.source p) (visits site.source)
        takings last k out := Worklist.visits_loops site.source history.accounted alike.patient
    have loops' : ∃ takings last k out, Worklist.IsLoop s (.start site'.source p')
        (visits site'.source) takings last k out :=
      Worklist.visits_loops site'.source history'.accounted alike.patient'
    obtain ⟨takings, last, k, out, loop⟩ := loops
    obtain ⟨takings', last', k', out', loop'⟩ := loops'
    obtain ⟨takings'', last'', run, length, same⟩ :=
      loop.run.alike apart (Worklist.start_alike alike sites.source)
    obtain ⟨out'', ends⟩ := loop.ends.alike same
    obtain ⟨rfl, rfl⟩ := run.unique ends loop'.run loop'.ends
    rw [← Progress.limited_eq alike.patient] at loop
    rw [← Progress.limited_eq alike.patient'] at loop'
    refine ⟨_, checks_find given loop, ?_⟩
    rw [← length, sites.length_scopes]
    exact checks_find given' loop'

theorem checks_ask_alike (a : Inquiry) (apart : s.modules.AreApart) (alike : p.Alike s p') :
    ∃ k, Checks s p (ask a) k ∧ Checks s p' (ask a) k := by
  refine checks_alike_bind alike (fun _ => checks_elementAt a.site) rfl rfl ?_ ?_
  · intro site' q' ran'
    obtain ⟨site, q, ran, -⟩ := elementAt_alike apart alike.symm ran'
    exact ⟨site, q, ran⟩
  intro site q ran
  obtain ⟨site', q', ran', alike, sites⟩ := elementAt_alike apart alike ran
  refine ⟨site', q', ran', ?_⟩
  refine checks_alike_bind alike (fun _ => checks_criteriaAt a.criteria) rfl rfl ?_ ?_
  · intro c' q' ran'
    obtain ⟨c, q, ran, -⟩ := criteriaAt_alike apart alike.symm ran'
    exact ⟨c, q, ran⟩
  intro c q₂ ran
  obtain ⟨c', q₂', ran', alike, criteria⟩ := criteriaAt_alike apart alike ran
  have settles : ∀ p, Settles s True p (criteriaAt a.criteria) :=
    fun p => settles_criteriaAt a.criteria
  have sites := sites.later ((settles _).opens_of_run ran) ((settles _).opens_of_run ran')
  obtain ⟨k, checks, checks'⟩ := checks_find_alike apart alike sites criteria
  exact ⟨c', q₂', ran', k, checks.map some, checks'.map some⟩

end Query

/-! ### Sessions in which no file changes -/

/-- What goes on in a session: a document is asked for or is to become something else, or an
inquiry is made with a token that runs out after so many checks, if ever. -/
inductive Activity
  | request (path : String) (r : Request)
  | inquire (a : Inquiry) (patience : Option Nat)

namespace Activity

/-- The state afterwards. -/
def after (s : Setup) (p : Progress) : Activity → Progress
  | .request path r =>
    { p with sources := (SourceSet.keeper.perform s.around s.config.extension
        ⟨p.sources, s.files⟩ (.request path r)).2.documents }
  | .inquire a patience => ((Query.ask a).run s (p.limited patience)).2

/-- What is offered, if there is an answer. -/
def offers (s : Setup) (p : Progress) : Activity → Option (Finset (String × String × List Step))
  | .request _ _ => none
  | .inquire a patience => a.offers s (p.limited patience)

end Activity

/-- What is offered in the course of a session, one activity after the other. -/
def offersIn (s : Setup) : Progress → List Activity →
    List (Option (Finset (String × String × List Step)))
  | _, [] => []
  | p, activity :: rest => activity.offers s p :: offersIn s (activity.after s p) rest

/-- A request leaves states alike in which every path gave the same document. -/
theorem SourceSet.reads_answer {sources sources' : SourceSet}
    (reads : ∀ u, sources.reads s u = sources'.reads s u) (uri : String) (r : Request)
    (u : String) :
    (sources.answer s.around.frames s.files s.config.extension uri r).2.reads s u =
      (sources'.answer s.around.frames s.files s.config.extension uri r).2.reads s u := by
  cases r with
  | fetch =>
    have fetched : ∀ sources : SourceSet,
        (sources.fetch s.around.frames s.files s.config.extension uri).sources.reads s u =
          sources.reads s u :=
      fun sources => Grows.reads_eq (.single ⟨uri, rfl⟩)
    simp only [answer, fetched, reads]
  | known => exact reads u
  | contains => exact reads u
  | invalidate =>
    by_cases same : u = uri
    · simp only [SourceSet.reads, answer, current?_invalidate, if_pos same]
    · simpa only [SourceSet.reads, answer, current?_invalidate, if_neg same] using reads u
  | overlay text =>
    cases parsed : Document.parse s.around.frames uri text with
    | error e =>
      simp only [answer, addOverlay, parsed, Except.map]
      cases e <;> exact reads u
    | ok d =>
      have placed : ∀ sources : SourceSet,
          ∃ d', sources.addOverlay s.around.frames uri text = .ok d' ∧ d'.2.document = d := by
        intro sources
        simp [addOverlay, parsed, Except.map]
      obtain ⟨⟨_, d₁⟩, added, same⟩ := placed sources
      obtain ⟨⟨_, d₂⟩, added', same'⟩ := placed sources'
      have agree : d₁.document = d₂.document := same.trans same'.symm
      by_cases same : u = uri
      · simp only [SourceSet.reads, answer, added, added', current?_addOverlay added,
          current?_addOverlay added', if_pos same, agree]
      · simpa only [SourceSet.reads, answer, added, added', current?_addOverlay added,
          current?_addOverlay added', if_neg same] using reads u

theorem SourceSet.Reached.perform {sources : SourceSet} (reached : sources.Reached s)
    (path : String) (r : Request) :
    (SourceSet.keeper.perform s.around s.config.extension ⟨sources, s.files⟩
      (.request path r)).2.documents.Reached s := by
  obtain ⟨files, operations, leads⟩ := reached
  refine ⟨files, operations ++ [.request path r], ?_⟩
  rw [Keeper.run_append, leads]
  simp only [Keeper.run, Keeper.perform]
  cases Path.uri s.around path <;> rfl

/-- Whatever has been looked for meanwhile, on one side or on both, the states are still alike. -/
theorem Progress.Alike.later_limited (alike : (p.limited none).Alike s (p'.limited none))
    (opens : SourceSet.Opens s p.sources q.sources)
    (opens' : SourceSet.Opens s p'.sources q'.sources) :
    (q.limited none).Alike s (q'.limited none) :=
  alike.later ⟨opens, fun _ => rfl⟩ ⟨opens', fun _ => rfl⟩

/-- An inquiry is offered what it is offered when nobody loses patience, or nothing. -/
theorem Inquiry.offers_of_checks {a : Inquiry} {k n : Nat}
    (checks : Query.Checks s p (Query.ask a) k) :
    a.offers s (p.limited (some n)) = if k ≤ n then a.offers s (p.limited none) else none := by
  unfold offers
  split
  · next enough =>
    obtain ⟨m, rfl⟩ := Nat.exists_eq_add_of_le enough
    rw [checks.enough]
  · next short =>
    rw [checks.short n (by omega)]
    rfl

/-- In states that are alike an inquiry is offered the same, however soon the token runs out. -/
theorem Inquiry.offers_limited_eq (a : Inquiry) (apart : s.modules.AreApart)
    (alike : (p.limited none).Alike s (p'.limited none)) (patience : Option Nat) :
    a.offers s (p.limited patience) = a.offers s (p'.limited patience) := by
  cases patience with
  | none => exact offers_eq apart alike
  | some n =>
    obtain ⟨k, checks, checks'⟩ := Query.checks_ask_alike a apart alike
    have left := offers_of_checks (n := n) checks
    have right := offers_of_checks (n := n) checks'
    simp only [Progress.limited_limited] at left right
    rw [left, right, offers_eq apart alike]

/-- In states that are alike an activity is offered the same, and leaves them alike. -/
theorem Activity.alike (apart : s.modules.AreApart)
    (alike : (p.limited none).Alike s (p'.limited none)) (activity : Activity) :
    activity.offers s p = activity.offers s p' ∧
      ((activity.after s p).limited none).Alike s ((activity.after s p').limited none) := by
  cases activity with
  | request path r =>
    refine ⟨rfl, alike.reached.perform path r, alike.reached'.perform path r, rfl, rfl, fun u => ?_⟩
    simp only [after, Keeper.perform, Progress.limited_sources]
    cases Path.uri s.around path with
    | error e => exact alike.reads u
    | ok uri => exact SourceSet.reads_answer alike.reads uri r u
  | inquire a patience =>
    have opens : ∀ {p : Progress}, p.sources.Reached s →
        SourceSet.Opens s p.sources ((Query.ask a).run s (p.limited patience)).2.sources :=
      fun {p} reached =>
        (Query.settles_ask (p := p.limited patience) a reached).opens.sources
    exact ⟨a.offers_limited_eq apart alike patience,
      alike.later_limited (opens alike.reached) (opens alike.reached')⟩

/-- In states that are alike a whole session is offered the same. -/
theorem offersIn_alike (apart : s.modules.AreApart)
    (alike : (p.limited none).Alike s (p'.limited none)) (activities : List Activity) :
    offersIn s p activities = offersIn s p' activities := by
  induction activities generalizing p p' with
  | nil => rfl
  | cons activity rest ih =>
    obtain ⟨same, later⟩ := activity.alike apart alike
    simp only [offersIn, same, ih later]

/-! ### Cutting a query short -/

/-- A query is all or nothing, and leaves nothing behind. If its token runs out after `n` checks,
it has the outcome that it has without a token as long as these are enough, and it is cancelled
otherwise. In either case the entries that there were stay as they are, and whatever goes on later,
as long as no file changes, is offered what it would be offered had the query not been made. -/
structure Query.Interruptible {α : Type} (s : Setup) (p : Progress) (q : Query α) (k : Nat) :
    Prop where
  enough : ∀ n, k ≤ n → q.run s (p.limited (some n)) =
    ((q.run s (p.limited none)).1, (q.run s (p.limited none)).2.limited (some (n - k)))
  short : ∀ n, n < k → (q.run s (p.limited (some n))).1 = .error .cancelled
  kept : ∀ patience u d, p.sources.current? u = some d →
    (q.run s (p.limited patience)).2.sources.current? u = some d
  extended : ∀ patience, p.sources.Extends (q.run s (p.limited patience)).2.sources
  unnoticed : ∀ patience activities,
    offersIn s (q.run s (p.limited patience)).2 activities = offersIn s p activities

namespace Query

variable {α : Type} {k : Nat}

theorem Checks.interruptible {query : Query α} (checks : Checks s p query k)
    (apart : s.modules.AreApart) (reached : p.sources.Reached s)
    (settles : ∀ patience, Settles s True (p.limited patience) query) :
    Interruptible s p query k := by
  have grows : ∀ patience, SourceSet.Grows s.around.frames s.files s.config.extension p.sources
      (query.run s (p.limited patience)).2.sources :=
    fun patience => (settles patience).opens.grows.sources
  refine ⟨fun n enough => ?_, checks.short, fun patience u d known => (grows patience).keeps known,
    fun patience => (grows patience).extends, fun patience activities => ?_⟩
  · obtain ⟨m, rfl⟩ := Nat.exists_eq_add_of_le enough
    rw [checks.enough, Nat.add_sub_cancel_left]
  · have itself : (p.limited none).Alike s (p.limited none) :=
      ⟨reached, reached, rfl, rfl, fun _ => rfl⟩
    exact offersIn_alike apart (itself.later_limited (settles patience).opens.sources .refl)
      activities

variable {given : List Source} {site : Element} {r : ReferenceKind} {c : Criteria}
  {typeName : String}

theorem settles_scopeOf (accounted : p.sources.Accounted given) :
    Settles s True p (scopeOf site r c) :=
  (settles_find site r c accounted).bind fun _ _ _ => settles_pure _

theorem settles_resolveType (accounted : p.sources.Accounted given) :
    Settles s True p (resolveType site typeName) := by
  unfold resolveType
  refine settles_ite (settles_pure none) ((settles_scopeOf accounted).bind fun scope _ _ => ?_)
  dsimp only
  cases chooseType? site typeName (scope.lookup typeName) with
  | some e => exact settles_pure (some e)
  | none =>
    exact settles_ite ((settles_log _).bind fun _ _ _ => settles_pure none) (settles_pure none)

/-- Choosing a type from the scope costs no checks. -/
theorem checks_resolveType (unreserved : Scalar.ofName? typeName = none)
    (checks : Checks s p (find site .type .anyType) k) :
    Checks s p (resolveType site typeName) k := by
  unfold resolveType
  rw [unreserved]
  refine (checks.map Scope.ofMatches).andThen fun scope mid => ?_
  dsimp only
  cases chooseType? site typeName (scope.lookup typeName) with
  | some e => exact checks_pure (some e)
  | none => exact checks_ite ((checks_log _).andThen fun _ _ => checks_pure none) (checks_pure none)

/-- Every query is all or nothing, and leaves nothing behind if it is cut short. The number of
checks that it needs is that of the scopes around its site and of the imports that are taken
from the queue if nobody cancels it, down to the last one, which may lead nowhere known. A query
whose criteria make no sense needs none, and neither does one for a scalar type. -/
theorem find_interruptible (site : Element) (apart : s.modules.AreApart)
    (reached : p.sources.Reached s) :
    ∃ takings last k out,
      Worklist.Run s (.start site.source (p.limited none)) takings last ∧
      Worklist.Ends s last k out ∧
      (∀ r c, Interruptible s p (find site r c)
        (if (Wanted.ofCriteria r c).isOk then site.scopes.length + (takings.length + k) else 0)) ∧
      (∀ r c, Interruptible s p (scopeOf site r c)
        (if (Wanted.ofCriteria r c).isOk then site.scopes.length + (takings.length + k) else 0)) ∧
      ∀ typeName, Interruptible s p (resolveType site typeName)
        (if (Scalar.ofName? typeName).isSome then 0
          else site.scopes.length + (takings.length + k)) := by
  obtain ⟨given, history⟩ := reached.history
  have accounted : ∀ patience, (p.limited patience).sources.Accounted given :=
    fun _ => history.accounted
  have loops : Worklist.Loops s (.start site.source (p.limited none)) (visits site.source) :=
    Worklist.visits_loops site.source (accounted none) rfl
  obtain ⟨takings, last, k, out, loop⟩ := loops
  have checks : ∀ r c, Checks s p (find site r c)
      (if (Wanted.ofCriteria r c).isOk then site.scopes.length + (takings.length + k) else 0) := by
    intro r c
    cases sensible : Wanted.ofCriteria r c with
    | ok wanted => exact checks_find sensible loop
    | error e => exact checks_find_of_error sensible
  refine ⟨takings, last, k, out, loop.run, loop.ends, fun r c => ?_, fun r c => ?_,
    fun typeName => ?_⟩
  · exact (checks r c).interruptible apart reached
      fun patience => settles_find _ _ _ (accounted patience)
  · exact ((checks r c).map Scope.ofMatches).interruptible apart reached
      fun patience => settles_scopeOf (accounted patience)
  · have settles : ∀ patience, Settles s True (p.limited patience) (resolveType site typeName) :=
      fun patience => settles_resolveType (accounted patience)
    cases reserved : Scalar.ofName? typeName with
    | none =>
      exact (checks_resolveType reserved (checks .type .anyType)).interruptible apart reached
        settles
    | some scalar =>
      refine Checks.interruptible ?_ apart reached settles
      unfold resolveType
      rw [reserved]
      exact checks_pure none

/-- The trio with the first file opened. -/
def trioOpened : Progress := trioAfter [.request "a.proto" .fetch]

/-- Looking up types in the first file of the trio takes three checks: one for the file, and one
for each import. After two of them the second file has been read. -/
theorem find_interruptible_trio : ∃ start takings last k out,
    trioOpened.sources.current? "/a.proto" = some start ∧
    Worklist.Run trioSetup (.start start trioOpened) takings last ∧
    Worklist.Ends trioSetup last k out ∧ takings.length + k = 2 ∧
    Interruptible trioSetup trioOpened (find (.ofSource start) .type .anyType) 3 ∧
    ((find (.ofSource start) .type .anyType).run trioSetup
      (trioOpened.limited (some 2))).2.sources.loadCount = 2 := by
  have facts : (trioOpened.sources.current? "/a.proto").map (fun start =>
      let cut := (find (.ofSource start) .type .anyType).run trioSetup (trioOpened.limited (some 2))
      let whole := (find (.ofSource start) .type .anyType).run trioSetup
        (trioOpened.limited (some 3))
      (cut.1.isOk, cut.2.sources.loadCount, whole.1.isOk)) = some (false, 2, true) := by
    decide +kernel
  obtain ⟨start, opened, facts⟩ := Option.map_eq_some_iff.mp facts
  simp only [Prod.mk.injEq] at facts
  obtain ⟨cut, loaded, whole⟩ := facts
  have reached := (trioAfter_spec [.request "a.proto" .fetch] (by decide)).1
  obtain ⟨takings, last, k, out, run, ends, finds, -⟩ :=
    find_interruptible (p := trioOpened) (.ofSource start) Builtin.areApart_wellKnown reached
  have spec : Interruptible trioSetup trioOpened (find (.ofSource start) .type .anyType)
      (1 + (takings.length + k)) := finds .type .anyType
  have least : 1 + (takings.length + k) = 3 := by
    have atMost : ¬ 3 < 1 + (takings.length + k) := by
      intro few
      rw [spec.short 3 few] at whole
      cases whole
    have atLeast : ¬ 1 + (takings.length + k) ≤ 2 := by
      intro enough
      rw [spec.enough 3 (by omega)] at whole
      rw [spec.enough 2 enough] at cut
      exact absurd (whole.symm.trans cut) (by decide)
    omega
  rw [least] at spec
  exact ⟨start, takings, last, k, out, opened, run, ends, by omega, spec, loaded⟩

end Query

end ProtoNames
