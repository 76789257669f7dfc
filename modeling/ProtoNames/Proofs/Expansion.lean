import Mathlib.Algebra.Order.BigOperators.Group.List
import Mathlib.Algebra.Order.Ring.Nat
import ProtoNames.Proofs.ImportChain

/-!
What an import queue expands to.

* `Expands` is the outcome of an expansion: the files that the imports lead to which pass
  through the queue, or a failure to find one of them.
* `queued_cons_of_idle`, `queued_cons_of_fresh`: what taking one import from the queue
  changes about what passes through it.
* `expand_expands`: the outcome of every expansion within its budget. `credit` is what
  documents can still take from the budget. It falls whenever one is seen first and when its
  re-exports are first followed, whatever else has been fetched.
-/

namespace ProtoNames

variable {s : Setup} {p p' : Progress} {visited : Visited} {i j : ImportRef} {d : Source}
  {queue rest : List ImportRef}

/-! ### What has been seen -/

/-- Whether a file comes into sight for the first time. A built-in file always does. -/
def Visited.isNew (visited : Visited) : Visit → Prop
  | .builtIn _ => True
  | .imported d => visited.lookup d.id = none

theorem Visited.covers_eq_true {id : SourceId} {follow : Bool} :
    visited.covers id follow = true ↔
      visited.lookup id = some true ∨ visited.lookup id = some false ∧ follow = false := by
  unfold covers
  cases visited.lookup id with
  | none => simp
  | some followed => cases followed <;> simp

theorem Visited.covers_eq_false {id : SourceId} {follow : Bool} :
    visited.covers id follow = false ↔
      visited.lookup id = none ∨ visited.lookup id = some false ∧ follow = true := by
  unfold covers
  cases visited.lookup id with
  | none => simp
  | some followed => cases followed <;> simp

theorem Visited.not_isNew_of_covers {follow : Bool}
    (covered : visited.covers d.id follow = true) : ¬ visited.isNew (.imported d) := by
  intro new
  rcases covers_eq_true.mp covered with seen | ⟨seen, -⟩
  · exact absurd (seen.symm.trans new) (by simp)
  · exact absurd (seen.symm.trans new) (by simp)

theorem Visited.mem_firstSight {v : Visit} :
    v ∈ (visited.firstSight d).toList ↔ v = .imported d ∧ visited.isNew v := by
  unfold firstSight
  cases seen : visited.lookup d.id with
  | none =>
    simp only [Option.isNone_none, if_true, Option.toList_some, List.mem_singleton]
    refine ⟨fun same => ⟨same, ?_⟩, And.left⟩
    rw [same]
    exact seen
  | some followed =>
    simp only [Option.isNone_some, Bool.false_eq_true, if_false, Option.toList_none,
      List.not_mem_nil, false_iff, not_and]
    rintro rfl new
    exact absurd (seen.symm.trans new) (by simp)

theorem Visited.lookup_cons {follow : Bool} {id id' : SourceId} :
    ((id, follow) :: visited).lookup id' =
      if id' = id then some follow else visited.lookup id' := by
  rw [List.lookup_cons]
  by_cases same : id' = id
  · simp [same]
  · simp [same, beq_eq_false_iff_ne.mpr same]

theorem Visited.isNew_cons {follow : Bool} {v : Visit} :
    Visited.isNew ((d.id, follow) :: visited) v ↔
      visited.isNew v ∧ ∀ d', v = .imported d' → d'.id ≠ d.id := by
  cases v with
  | builtIn b => simp [isNew]
  | imported d' =>
    simp only [isNew, lookup_cons, Visit.imported.injEq, forall_eq']
    by_cases same : d'.id = d.id
    · simp [same]
    · simp [same]

/-! ### Taking an import from a queue -/

theorem not_queued_nil : ¬ Queued s p visited [] i := by
  intro queued
  induction queued with
  | waiting waits => exact absurd waits List.not_mem_nil
  | reexported _ _ _ _ _ ih => exact ih

theorem Queued.cons (h : Queued s p visited rest j) : Queued s p visited (i :: rest) j := by
  induction h with
  | waiting waits => exact .waiting (List.mem_cons_of_mem _ waits)
  | reexported _ leads followed opens joins ih => exact .reexported ih leads followed opens joins

/-- An import adds nothing if re-exports behind it are not followed, or have been before. -/
theorem queued_cons_of_idle
    (idle : ∀ d, i.LeadsTo s p (.imported d) → i.isFollowed s.config.strict = true →
      visited.lookup d.id = some true) :
    Queued s p visited (i :: rest) j ↔ j = i ∨ Queued s p visited rest j := by
  constructor
  · intro h
    induction h with
    | waiting waits => exact (List.mem_cons.mp waits).imp_right .waiting
    | @reexported k j d _ leads followed opens joins ih =>
      rcases ih with rfl | ih
      · exact absurd (idle d leads followed) opens
      · exact .inr (.reexported ih leads followed opens joins)
  · rintro (rfl | h)
    · exact .waiting List.mem_cons_self
    · exact h.cons

section Fresh

variable (leads : i.LeadsTo s p (.imported d))
  (fresh : visited.covers d.id (i.isFollowed s.config.strict) = false)

include leads fresh

theorem Queued.cons_of_fresh
    (h : Queued s p ((d.id, i.isFollowed s.config.strict) :: visited)
      (rest ++ reexports (i.isFollowed s.config.strict) d) j) :
    Queued s p visited (i :: rest) j := by
  have first : Queued s p visited (i :: rest) i := .waiting List.mem_cons_self
  induction h with
  | waiting waits =>
    rcases List.mem_append.mp waits with waits | joins
    · exact .waiting (List.mem_cons_of_mem _ waits)
    · cases followed : i.isFollowed s.config.strict with
      | false => simp [followed, reexports] at joins
      | true =>
        rw [followed] at joins
        refine .reexported first leads followed (fun before => ?_) joins
        rcases Visited.covers_eq_false.mp fresh with unseen | ⟨seen, -⟩
        · exact absurd (before.symm.trans unseen) (by simp)
        · exact absurd (before.symm.trans seen) (by simp)
  | @reexported k j d' _ leads' followed opens joins ih =>
    rw [Visited.lookup_cons] at opens
    by_cases same : d'.id = d.id
    · -- seen again, but before without re-exports, which are followed behind `k` only
      rw [if_pos same] at opens
      refine .reexported ih leads' followed (fun before => ?_) joins
      rw [same] at before
      rcases Visited.covers_eq_false.mp fresh with unseen | ⟨-, first⟩
      · exact absurd (before.symm.trans unseen) (by simp)
      · exact opens (congrArg some first)
    · rw [if_neg same] at opens
      exact .reexported ih leads' followed opens joins

/-- A document that is new, or new with its re-exports, lets these join the queue. Nothing is
lost by counting it as seen if no other document has its identity. -/
theorem queued_cons_of_fresh
    (one : ∀ k d', Queued s p ((d.id, i.isFollowed s.config.strict) :: visited)
        (rest ++ reexports (i.isFollowed s.config.strict) d) k →
      k.LeadsTo s p (.imported d') → d'.id = d.id → d' = d) :
    Queued s p visited (i :: rest) j ↔
      j = i ∨ Queued s p ((d.id, i.isFollowed s.config.strict) :: visited)
        (rest ++ reexports (i.isFollowed s.config.strict) d) j := by
  constructor
  · intro h
    induction h with
    | waiting waits =>
      exact (List.mem_cons.mp waits).imp_right fun waits =>
        .waiting (List.mem_append_left _ waits)
    | @reexported k j d' _ leads' followed opens joins ih =>
      right
      rcases ih with rfl | ih
      · cases leads'.unique leads
        rw [followed]
        exact .waiting (List.mem_append_right _ joins)
      · by_cases same : d'.id = d.id
        · cases one k d' ih leads' same
          cases follow : i.isFollowed s.config.strict with
          | true => exact .waiting (List.mem_append_right _ joins)
          | false =>
            rw [follow] at ih
            exact .reexported ih leads' followed (by simp) joins
        · refine .reexported ih leads' followed ?_ joins
          rw [Visited.lookup_cons, if_neg same]
          exact opens
  · rintro (rfl | h)
    · exact .waiting List.mem_cons_self
    · exact Queued.cons_of_fresh leads fresh h

end Fresh

/-! ### Outcomes -/

theorem ImportRef.not_fails_of_ok {found : Option Visit} {e : QueryError}
    (answers : ((Query.destination i).run s p).1 = .ok found) : ¬ i.Fails s p e := by
  intro fails
  exact absurd (answers.symm.trans fails) (by simp)

/-- What can become of expanding a queue. It gives the files that the imports lead to which
pass through the queue, as far as they come into sight for the first time; all of these are
kept, and none of the imports fails. Or it is cancelled, or fails with one of the imports. -/
def Expands (s : Setup) (p : Progress) (visited : Visited) (queue : List ImportRef) :
    Except QueryError (List Visit) × Progress → Prop
  | (.ok visits, p') =>
    p.Grows s p' ∧
    (∀ i d, Queued s p' visited queue i → i.LeadsTo s p' (.imported d) → p'.Stored d) ∧
    (∀ i e, Queued s p' visited queue i → ¬ i.Fails s p' e) ∧
    ∀ v, v ∈ visits ↔ visited.isNew v ∧ ∃ i, Queued s p' visited queue i ∧ i.LeadsTo s p' v
  | (.error e, p') =>
    p.Grows s p' ∧ ((e = .cancelled ∧ p.patience ≠ none) ∨
      ∃ i, Queued s p' visited queue i ∧ i.Fails s p' e)

/-- What holds of all documents from some point of a query on: they are kept at paths on a
list, and no two of them have the same identity. -/
structure Progress.Grounded (s : Setup) (p : Progress) (uris : List String) : Prop where
  listed : ∀ ⦃p' u d⦄, p.Grows s p' → p'.sources.current? u = some d → u ∈ uris
  coherent : ∀ ⦃p' d d'⦄, p.Grows s p' → p'.Stored d → p'.Stored d' → d.id = d'.id → d = d'

theorem Progress.Grounded.grows {uris : List String} (h : p.Grounded s uris)
    (later : p.Grows s p') : p'.Grounded s uris :=
  ⟨fun _ _ _ latest => h.listed (later.trans latest),
    fun _ _ _ latest => h.coherent (later.trans latest)⟩

theorem Expands.nil : Expands s p visited [] (.ok [], p) := by
  refine ⟨.refl p, ?_, ?_, ?_⟩
  · intro i d queued
    exact absurd queued not_queued_nil
  · intro i e queued
    exact absurd queued not_queued_nil
  · simp [not_queued_nil]

section Taking

variable {found : Option Visit} {out : Except QueryError (List Visit) × Progress}

/-- A failure behind an import is a failure of the queue that the import came from. -/
theorem Expands.failure {visited' : Visited} {queue' : List ImportRef} {e : QueryError}
    {p'' : Progress} (grows : p.Grows s p')
    (back : ∀ k, p'.Grows s p'' → Queued s p'' visited' queue' k → Queued s p'' visited queue k)
    (h : Expands s p' visited' queue' (.error e, p'')) :
    Expands s p visited queue (.error e, p'') := by
  obtain ⟨later, ⟨cancelled, impatient⟩ | ⟨k, queued, fails⟩⟩ := h
  · exact ⟨grows.trans later, .inl ⟨cancelled, fun none => impatient (grows.patience none)⟩⟩
  · exact ⟨grows.trans later, .inr ⟨k, back k later queued, fails⟩⟩

/-- An import that adds nothing to the queue may still lead to a file. -/
theorem Expands.idle (grows : p.Grows s p')
    (answers : ∀ p'', p'.Grows s p'' → ((Query.destination i).run s p'').1 = .ok found)
    (covered : ∀ d, found = some (.imported d) →
      visited.covers d.id (i.isFollowed s.config.strict) = true ∧ p'.Stored d)
    (h : Expands s p' visited rest out) (new : List Visit)
    (sighted : ∀ v, v ∈ new ↔ visited.isNew v ∧ found = some v) :
    Expands s p visited (i :: rest) (out.1.map (new ++ ·), out.2) := by
  obtain ⟨result, p''⟩ := out
  cases result with
  | error e => exact h.failure grows fun k _ queued => queued.cons
  | ok visits =>
    obtain ⟨later, stored, succeed, exact_⟩ := h
    have leads_iff : ∀ v, i.LeadsTo s p'' v ↔ found = some v := by
      intro v
      rw [ImportRef.LeadsTo, answers p'' later]
      simp
    have split : ∀ k, Queued s p'' visited (i :: rest) k ↔
        k = i ∨ Queued s p'' visited rest k := by
      intro k
      apply queued_cons_of_idle
      intro d leads followed
      have cover := (covered d ((leads_iff _).mp leads)).1
      rw [followed] at cover
      simpa using Visited.covers_eq_true.mp cover
    refine ⟨grows.trans later, ?_, ?_, ?_⟩
    · intro k d queued leads
      rcases (split k).mp queued with rfl | queued
      · exact (covered d ((leads_iff _).mp leads)).2.grows later
      · exact stored k d queued leads
    · intro k e queued
      rcases (split k).mp queued with rfl | queued
      · exact ImportRef.not_fails_of_ok (answers p'' later)
      · exact succeed k e queued
    · intro v
      rw [List.mem_append, sighted, exact_]
      constructor
      · rintro (⟨new, leads⟩ | ⟨new, k, queued, leads⟩)
        · exact ⟨new, i, .waiting List.mem_cons_self, (leads_iff v).mpr leads⟩
        · exact ⟨new, k, queued.cons, leads⟩
      · rintro ⟨new, k, queued, leads⟩
        rcases (split k).mp queued with rfl | queued
        · exact .inl ⟨new, (leads_iff v).mp leads⟩
        · exact .inr ⟨new, k, queued, leads⟩

/-- An import is passed over if it leads to nothing, or to what has been seen. -/
theorem Expands.skip (grows : p.Grows s p')
    (answers : ∀ p'', p'.Grows s p'' → ((Query.destination i).run s p'').1 = .ok found)
    (covered : ∀ v, found = some v → ∃ d, v = .imported d ∧
      visited.covers d.id (i.isFollowed s.config.strict) = true ∧ p'.Stored d)
    (h : Expands s p' visited rest out) : Expands s p visited (i :: rest) out := by
  have old : ∀ v, v ∈ [] ↔ visited.isNew v ∧ found = some v := by
    intro v
    refine ⟨fun absent => absurd absent List.not_mem_nil, ?_⟩
    rintro ⟨new, leads⟩
    obtain ⟨d, rfl, seen, -⟩ := covered v leads
    exact absurd new (Visited.not_isNew_of_covers seen)
  have skipped := Expands.idle grows answers
    (fun d leads => by obtain ⟨_, ⟨⟩, seen⟩ := covered _ leads; exact seen) h [] old
  rcases out with ⟨_ | _, _⟩
  · exact skipped
  · exact skipped

/-- An import that leads to something new takes the re-exports behind it into the queue. -/
theorem Expands.fresh {uris : List String} (grounded : p.Grounded s uris) (grows : p.Grows s p')
    (answers : ∀ p'', p'.Grows s p'' →
      ((Query.destination i).run s p'').1 = .ok (some (.imported d)))
    (stored : p'.Stored d) (fresh : visited.covers d.id (i.isFollowed s.config.strict) = false)
    (h : Expands s p' ((d.id, i.isFollowed s.config.strict) :: visited)
      (rest ++ reexports (i.isFollowed s.config.strict) d) out) :
    Expands s p visited (i :: rest)
      (out.1.map ((visited.firstSight d).toList ++ ·), out.2) := by
  obtain ⟨result, p''⟩ := out
  cases result with
  | error e => exact h.failure grows fun k later => Queued.cons_of_fresh (answers p'' later) fresh
  | ok visits =>
    obtain ⟨later, others, succeed, exact_⟩ := h
    have leads : i.LeadsTo s p'' (.imported d) := answers p'' later
    have coherent : ∀ d', p''.Stored d' → d'.id = d.id → d' = d := by
      intro d' stored'
      exact grounded.coherent (grows.trans later) stored' (stored.grows later)
    have split : ∀ k, Queued s p'' visited (i :: rest) k ↔
        k = i ∨ Queued s p'' ((d.id, i.isFollowed s.config.strict) :: visited)
          (rest ++ reexports (i.isFollowed s.config.strict) d) k := by
      intro k
      apply queued_cons_of_fresh leads fresh
      intro k d' queued leads'
      exact coherent d' (others k d' queued leads')
    refine ⟨grows.trans later, ?_, ?_, ?_⟩
    · intro k d' queued leads'
      rcases (split k).mp queued with rfl | queued
      · cases leads'.unique leads
        exact stored.grows later
      · exact others k d' queued leads'
    · intro k e queued
      rcases (split k).mp queued with rfl | queued
      · exact ImportRef.not_fails_of_ok leads
      · exact succeed k e queued
    · intro v
      rw [List.mem_append, Visited.mem_firstSight, exact_]
      constructor
      · rintro (⟨rfl, new⟩ | ⟨new, k, queued, leads'⟩)
        · exact ⟨new, i, .waiting List.mem_cons_self, leads⟩
        · exact ⟨(Visited.isNew_cons.mp new).1, k, queued.cons_of_fresh leads fresh, leads'⟩
      · rintro ⟨new, k, queued, leads'⟩
        rcases (split k).mp queued with rfl | queued
        · exact .inl ⟨leads'.unique leads, new⟩
        · by_cases again : v = .imported d
          · exact .inl ⟨again, new⟩
          · refine .inr ⟨Visited.isNew_cons.mpr ⟨new, ?_⟩, k, queued, leads'⟩
            rintro d' rfl same
            exact again (congrArg _ (coherent d' (others k d' queued leads') same))

end Taking

/-! ### The budget -/

/-- How often the document at a path can still take from the budget. -/
def Visited.creditAt (visited : Visited) (p : Progress) (u : String) : Nat :=
  match p.sources.current? u with
  | none => 2
  | some d =>
    match visited.lookup d.id with
    | none => 2
    | some false => 1
    | some true => 0

/-- How often documents can still take from the budget. -/
def Visited.credit (visited : Visited) (p : Progress) (uris : List String) : Nat :=
  (uris.map (visited.creditAt p)).sum

theorem Visited.creditAt_le_two (u : String) : visited.creditAt p u ≤ 2 := by
  unfold creditAt
  split
  · exact Nat.le_refl 2
  · split <;> omega

theorem Visited.credit_le (uris : List String) : visited.credit p uris ≤ 2 * uris.length := by
  unfold credit
  induction uris with
  | nil => simp
  | cons u rest ih =>
    have bounded : visited.creditAt p u ≤ 2 := creditAt_le_two u
    simp only [List.map_cons, List.sum_cons, List.length_cons]
    omega

/-- Fetching gives no credit back. -/
theorem Visited.credit_grows (uris : List String) (later : p.Grows s p') :
    visited.credit p' uris ≤ visited.credit p uris := by
  refine List.sum_le_sum fun u _ => ?_
  cases known : p.sources.current? u with
  | none =>
    refine (creditAt_le_two u).trans ?_
    simp [creditAt, known]
  | some d =>
    simp [creditAt, known, later.sources.keeps known]

/-- A document that is new, or new with its re-exports, takes from the budget. -/
theorem Visited.credit_lt {uris : List String} {follow : Bool} {u : String}
    (fresh : visited.covers d.id follow = false) (known : p.sources.current? u = some d)
    (listed : u ∈ uris) :
    credit ((d.id, follow) :: visited) p uris < visited.credit p uris := by
  have falls : ∀ v d', p.sources.current? v = some d' → d'.id = d.id →
      creditAt ((d.id, follow) :: visited) p v < visited.creditAt p v := by
    intro v d' there same
    rcases covers_eq_false.mp fresh with unseen | ⟨seen, rfl⟩
    · cases follow <;> simp [creditAt, there, same, unseen]
    · simp [creditAt, there, same, seen]
  refine List.sum_lt_sum _ _ (fun v _ => ?_) ⟨u, listed, falls u d known rfl⟩
  cases there : p.sources.current? v with
  | none => simp [creditAt, there]
  | some d' =>
    by_cases same : d'.id = d.id
    · exact (falls v d' there same).le
    · simp [creditAt, there, lookup_cons, same]

/-! ### Running an expansion -/

namespace Query

/-- A check is passed, or the query is given up because its patience has run out. -/
theorem check_cases (s : Setup) (p : Progress) :
    ∃ p', p.Grows s p' ∧ (check.run s p = (.ok (), p') ∨
      p.patience ≠ none ∧ check.run s p = (.error .cancelled, p')) := by
  simp only [check, run_bind, run_get]
  cases patience : p.patience with
  | none => exact ⟨p, .refl p, .inl rfl⟩
  | some n =>
    cases n with
    | zero =>
      refine ⟨_, ?_, .inr ⟨by simp, rfl⟩⟩
      exact ⟨.refl, id⟩
    | succ n =>
      refine ⟨_, ?_, .inl rfl⟩
      exact ⟨.refl, by simp [patience]⟩

variable {uris : List String} {bound : Nat}
  {onwards : Visited → List ImportRef → Query (List Visit)}

/-- Taking imports up to the next new document, where the rest is known to go well. -/
theorem expandWith_expands
    (ahead : ∀ visited' queue' p', p.Grows s p' → visited'.credit p' uris < bound →
      Expands s p' visited' queue' ((onwards visited' queue').run s p'))
    (grounded : p.Grounded s uris) (enough : visited.credit p uris ≤ bound) :
    Expands s p visited queue ((expandWith onwards visited queue).run s p) := by
  induction queue generalizing p with
  | nil => exact .nil
  | cons i rest ih =>
    unfold expandWith
    simp only [run_bind]
    obtain ⟨p₁, grows₁, passed | ⟨impatient, cancelled⟩⟩ := check_cases s p
    · rw [passed]
      simp only
      obtain ⟨grows₂, again⟩ := replays_destination i p₁
      cases ran : (destination i).run s p₁ with
      | mk result p₂ =>
        rw [ran] at grows₂ again
        have grows := grows₁.trans grows₂
        cases result with
        | error e =>
          have fails : i.Fails s p₂ e := again p₂ (.refl p₂)
          exact ⟨grows, .inr ⟨i, .waiting List.mem_cons_self, fails⟩⟩
        | ok found =>
          have onwards_rest : ∀ p', p.Grows s p' →
              Expands s p' visited rest ((expandWith onwards visited rest).run s p') := by
            intro p' grows'
            apply ih _ (grounded.grows grows') ((Visited.credit_grows uris grows').trans enough)
            intro visited' queue' p'' later
            exact ahead _ _ _ (grows'.trans later)
          cases found with
          | none => exact Expands.skip grows again (by simp) (onwards_rest p₂ grows)
          | some v =>
            cases v with
            | builtIn b =>
              simp only [bind_pure_comp, run_map]
              apply Expands.idle grows again (by simp) (onwards_rest p₂ grows) [.builtIn b]
              intro v
              constructor
              · intro sighted
                cases List.mem_singleton.mp sighted
                exact ⟨trivial, rfl⟩
              · rintro ⟨-, ⟨⟩⟩
                exact List.mem_singleton_self _
            | imported d =>
              have stored := stored_of_destination ran
              simp only [run_bind, run_read]
              cases covered : visited.covers d.id (i.isFollowed s.config.strict) with
              | true =>
                simp only [if_true, run_bind, run_log]
                have logged :
                    p₂.Grows s { p₂ with journal := p₂.journal ++ [.importRepeated i.path] } :=
                  ⟨.refl, id⟩
                apply Expands.skip (grows.trans logged)
                  (fun p' later => again p' (logged.trans later)) _
                  (onwards_rest _ (grows.trans logged))
                rintro _ ⟨⟩
                exact ⟨d, rfl, covered, stored.grows logged⟩
              | false =>
                simp only [Bool.false_eq_true, if_false, bind_pure_comp, run_map]
                obtain ⟨u, known⟩ := stored
                have listed := grounded.listed grows known
                have falls : Visited.credit _ p₂ uris < bound :=
                  (Visited.credit_lt covered known listed).trans_le
                    ((Visited.credit_grows uris grows).trans enough)
                exact Expands.fresh grounded grows again ⟨u, known⟩ covered
                  (ahead _ _ p₂ grows falls)
    · rw [cancelled]
      exact ⟨grows₁, .inl ⟨rfl, impatient⟩⟩

/-- An expansion whose budget covers the credit of all documents is never cut short. -/
theorem expand_expands {budget : Nat} (grounded : p.Grounded s uris)
    (enough : visited.credit p uris ≤ budget) :
    Expands s p visited queue ((expand budget visited queue).run s p) := by
  induction budget generalizing p visited queue with
  | zero =>
    unfold expand
    exact expandWith_expands (fun _ _ _ _ less => absurd less (Nat.not_lt_zero _)) grounded enough
  | succ n ih =>
    unfold expand
    exact expandWith_expands
      (fun _ _ _ later less => ih (grounded.grows later) (Nat.lt_succ_iff.mp less))
      grounded enough

end Query

/-! ### The documents there are -/

/-- The paths at which there is or can be a document. -/
def Progress.uris (s : Setup) (p : Progress) : List String :=
  s.files.entries.map (·.1) ++ p.sources.overlays.map (·.1) ++ p.sources.loaded.map (·.1)

theorem Progress.length_uris : 2 * (p.uris s).length = Query.expansionBudget s p := by
  simp [uris, Query.expansionBudget, Nat.add_assoc]

theorem Progress.grounded {given : List Source} (h : p.sources.Accounted given) :
    p.Grounded s (p.uris s) := by
  constructor
  · intro p' u d later known
    rcases later.sources.adds known with before | readable
    · have kept : (p.sources.overlays.lookup u).isSome ∨ (p.sources.loaded.lookup u).isSome := by
        rw [SourceSet.current?, Option.or_eq_some_iff] at before
        exact before.imp (fun overlaid => by simp [overlaid]) (fun loaded => by simp [loaded.2])
      simp only [List.lookup_isSome_iff] at kept
      grind [Progress.uris]
    · obtain ⟨-, _, _, bytes, -, -⟩ := FileStore.schema?_eq_some_iff.mp readable
      have present := Option.isSome_of_eq_some bytes
      simp only [FileStore.bytes?, List.lookup_isSome_iff] at present
      grind [Progress.uris]
  · rintro p' d d' later ⟨u, known⟩ ⟨u', known'⟩ same
    obtain ⟨given', -, accounted⟩ := h.grows later.sources
    exact accounted.distinct d (accounted.kept known) d' (accounted.kept known') same

end ProtoNames
