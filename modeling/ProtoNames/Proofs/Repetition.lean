import ProtoNames.Proofs.Sessions
import ProtoNames.Proofs.Visibility

/-!
Asking the same again.

* `run_expand_eq`: a budget that covers the credit of all documents is as good as any other
  that does, so an expansion does not depend on how many documents there are besides.
* `settles_find`: a query that is run again with as much patience has the same outcome, and
  reads nothing.
-/

namespace ProtoNames

variable {s : Setup} {p : Progress} {given : List Source} {visited : Visited}
  {queue : List ImportRef} {uris : List String}

namespace Query

/-! ### Budgets -/

variable {onwards onwards' : Visited → List ImportRef → Query (List Visit)} {bound : Nat}

/-- Taking imports up to the next new document is the same with two ways to go on that are the
same wherever something new has been seen. -/
theorem run_expandWith_congr
    (ahead : ∀ visited' queue' p', p.Grows s p' → visited'.credit p' uris < bound →
      (onwards visited' queue').run s p' = (onwards' visited' queue').run s p')
    (grounded : p.Grounded s uris) (enough : visited.credit p uris ≤ bound) :
    (expandWith onwards visited queue).run s p = (expandWith onwards' visited queue).run s p := by
  induction queue generalizing p with
  | nil => rfl
  | cons i rest ih =>
    have skip : ∀ p', p.Grows s p' →
        (expandWith onwards visited rest).run s p' =
          (expandWith onwards' visited rest).run s p' := by
      intro p' later
      apply ih _ (grounded.grows later) ((Visited.credit_grows uris later).trans enough)
      intro visited' queue' p'' later'
      exact ahead _ _ _ (later.trans later')
    unfold expandWith
    simp only [run_bind]
    obtain ⟨p₁, grows₁, passed | ⟨-, cancelled⟩⟩ := check_cases s p
    · rw [passed]
      simp only
      have grows₂ := (replays_destination (s := s) i p₁).1
      cases ran : (destination i).run s p₁ with
      | mk result p₂ =>
        rw [ran] at grows₂
        have grows := grows₁.trans grows₂
        rcases result with e | _ | b | d
        · rfl
        · exact skip p₂ grows
        · simp only [bind_pure_comp, run_map, skip p₂ grows]
        · simp only [run_bind, run_read]
          cases covered : visited.covers d.id (i.isFollowed s.config.strict) with
          | true =>
            simp only [if_true, run_bind, run_log]
            exact skip _ (grows.trans ⟨.refl, id⟩)
          | false =>
            obtain ⟨u, known⟩ := stored_of_destination ran
            have falls : Visited.credit _ p₂ uris < bound :=
              (Visited.credit_lt covered known (grounded.listed grows known)).trans_le
                ((Visited.credit_grows uris grows).trans enough)
            simp only [Bool.false_eq_true, if_false, bind_pure_comp, run_map]
            rw [ahead _ _ p₂ grows falls]
    · rw [cancelled]

/-- Two budgets that cover the credit of all documents make no difference. -/
theorem run_expand_eq {budget budget' : Nat} (grounded : p.Grounded s uris)
    (enough : visited.credit p uris ≤ budget) (enough' : visited.credit p uris ≤ budget') :
    (expand budget visited queue).run s p = (expand budget' visited queue).run s p := by
  induction budget generalizing budget' p visited queue with
  | zero =>
    cases budget' <;>
    · unfold expand
      exact run_expandWith_congr (fun _ _ _ _ less => absurd less (Nat.not_lt_zero _)) grounded
        enough
  | succ n ih =>
    cases budget' with
    | zero =>
      unfold expand
      exact run_expandWith_congr (fun _ _ _ _ less => absurd less (Nat.not_lt_zero _)) grounded
        enough'
    | succ m =>
      unfold expand
      have ahead : ∀ visited' queue' p', p.Grows s p' →
          Visited.credit visited' p' uris < min (n + 1) (m + 1) →
          (expand n visited' queue').run s p' = (expand m visited' queue').run s p' := by
        intro visited' queue' p' later less
        exact ih (grounded.grows later) (by omega) (by omega)
      exact run_expandWith_congr ahead grounded (by omega)

/-! ### The same outcome -/

/-- A check looks at nothing but the patience that is left. -/
theorem run_check (p : Progress) :
    (check.run s p).1 = (if p.patience = some 0 then .error .cancelled else .ok ()) ∧
      (check.run s p).2.sources = p.sources ∧
      (check.run s p).2.patience = p.patience.map (· - 1) := by
  simp only [check, run_bind, run_get]
  rcases patience : p.patience with _ | _ | n
  · simp [patience]
  · simp [patience, run_bind]
  · simp

theorem settles_check : Settles s True p check := by
  obtain ⟨result, sources, patience⟩ := run_check (s := s) p
  refine ⟨⟨by rw [sources]; exact .refl, fun none => by rw [patience, none]; rfl⟩, ?_⟩
  intro p' _ same
  obtain ⟨result', sources', patience'⟩ := run_check (s := s) p'
  rw [same trivial] at result' patience'
  exact ⟨result'.trans result.symm, sources', fun _ => patience'.trans patience.symm⟩

theorem settles_checks {α : Type} (times : List α) :
    Settles s True p (times.forM fun _ => check) := by
  induction times generalizing p with
  | nil => exact settles_pure ()
  | cons _ rest ih =>
    simp only [List.forM]
    exact settles_check.bind fun _ _ _ => ih

theorem settles_expandWith
    (ahead : ∀ visited' queue' p', Settles s True p' (onwards visited' queue')) :
    Settles s True p (expandWith onwards visited queue) := by
  induction queue generalizing p with
  | nil => exact settles_pure []
  | cons i rest ih =>
    unfold expandWith
    refine settles_check.bind fun _ _ _ => (settles_destination i).bind fun found mid _ => ?_
    rcases found with _ | b | d
    · exact ih
    · exact ih.bind fun others _ _ => settles_pure _
    · apply settles_read_bind
      apply settles_ite
      · exact (settles_log _).bind fun _ _ _ => ih
      · exact (ahead _ _ _).bind fun others _ _ => settles_pure _

theorem settles_expand (budget : Nat) (visited : Visited) (queue : List ImportRef) :
    Settles s True p (expand budget visited queue) := by
  induction budget generalizing p visited queue with
  | zero =>
    unfold expand
    exact settles_expandWith fun _ _ _ => settles_pure []
  | succ n ih =>
    unfold expand
    exact settles_expandWith fun visited' queue' _ => ih visited' queue'

/-- The files that a document sees are the same when they are asked for again, although there
may be more documents by then. -/
theorem settles_visits (start : Source) (accounted : p.sources.Accounted given) :
    Settles s True p (visits start) := by
  have ran : ∀ q : Progress, (visits start).run s q =
      (expand (expansionBudget s q) [(start.id, true)]
        (ImportRef.ofDocument start.document)).run s q := by
    intro q
    simp only [visits, run_bind, run_read, run_get]
  obtain ⟨opens, again⟩ := settles_expand (s := s) (p := p) (expansionBudget s p)
    [(start.id, true)] (ImportRef.ofDocument start.document)
  refine ⟨by rw [ran]; exact opens, fun p' later same => ?_⟩
  rw [ran] at later
  have grows : p.Grows s p' :=
    ⟨opens.sources.grows.trans later, fun none => (same trivial).trans none⟩
  -- the later budget covers the documents that there were
  have wider : expansionBudget s p ≤ expansionBudget s p' := by
    obtain ⟨overlays, added, loaded, -⟩ := grows.sources.extends
    simp only [expansionBudget, overlays, loaded, List.length_append]
    omega
  have covered : Visited.credit [(start.id, true)] p' (p.uris s) ≤ expansionBudget s p := by
    rw [← Progress.length_uris]
    exact Visited.credit_le _
  rw [ran p, ran p', run_expand_eq ((Progress.grounded accounted).grows grows)
    (covered.trans wider) covered]
  exact again p' later same

theorem settles_ofCriteria {α : Type} (checked : Except CriteriaError α) :
    Settles s True p (ofCriteria checked) := by
  cases checked with
  | error e => exact settles_throw _
  | ok a => exact settles_pure a

/-- A query that is run again has the same outcome, and reads nothing. -/
theorem settles_find (site : Element) (r : ReferenceKind) (c : Criteria)
    (accounted : p.sources.Accounted given) : Settles s True p (find site r c) := by
  unfold find
  have criteria : Settles s True p (ofCriteria (Wanted.ofCriteria r c)) := settles_ofCriteria _
  refine criteria.bind fun wanted p₁ ran => (settles_checks _).bind fun _ p₂ ran' => ?_
  have opens : p.Opens s p₂ :=
    (criteria.opens_of_run ran).trans ((settles_checks site.scopes).opens_of_run ran')
  obtain ⟨given', -, accounted'⟩ := accounted.grows opens.grows.sources
  exact (settles_visits site.source accounted').bind fun _ _ _ => settles_pure _

end Query

end ProtoNames
