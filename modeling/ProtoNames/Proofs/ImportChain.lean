import Mathlib.Data.List.Basic
import Mathlib.Data.List.Induction
import ProtoNames.Proofs.Replay

/-!
Chains of imports, and the re-export rule.

* `ReexportRule` says which chains of imports open a file to the document at their start:
  all imports after the first are public, and in a strict look-up the first is too, unless
  it is the only one.
* `queued_iff_countsFor`: the imports that pass through the queue of an expansion are those
  at the end of such a chain.
-/

namespace ProtoNames

/-- An import leads to a file, as answered at some point of a query. -/
def ImportRef.LeadsTo (i : ImportRef) (s : Setup) (p : Progress) (v : Visit) : Prop :=
  ((Query.destination i).run s p).1 = .ok (some v)

/-- Where an import leads cannot be found out. -/
def ImportRef.Fails (i : ImportRef) (s : Setup) (p : Progress) (e : QueryError) : Prop :=
  ((Query.destination i).run s p).1 = .error e

/-- A chain of imports from a document, each with the document that it leads to: the first
stands in that document, and every other in the document that the one before leads to. -/
def ImportChain (s : Setup) (p : Progress) : Source → List (ImportRef × Source) → Prop
  | _, [] => True
  | d, (i, d') :: rest =>
    i ∈ ImportRef.ofDocument d.document ∧ i.LeadsTo s p (.imported d') ∧ ImportChain s p d' rest

/-- The document at the end of a chain; of an empty one, the document where it starts. -/
def chainEnd : Source → List (ImportRef × Source) → Source
  | d, [] => d
  | _, (_, d') :: rest => chainEnd d' rest

/-- All imports after the first are public. In a strict look-up the first is public as well,
if there are others. -/
def ReexportRule (strict : Bool) (imports : List ImportRef) : Prop :=
  (∀ i ∈ imports.tail, i.isPublic) ∧
    (strict = true → 2 ≤ imports.length → ∀ i ∈ imports.head?, i.isPublic)

/-- A document sees another at the end of a chain of imports that keeps the re-export rule. -/
def Source.Sees (start : Source) (s : Setup) (p : Progress) (d : Source) : Prop :=
  ∃ chain, chain ≠ [] ∧ ImportChain s p start chain ∧ chainEnd start chain = d ∧
    ReexportRule s.config.strict (chain.map (·.1))

/-- An import counts for a document: it stands in the document itself, or it extends a chain
of imports from there in a way that keeps the re-export rule. -/
def ImportRef.CountsFor (i : ImportRef) (s : Setup) (p : Progress) (start : Source) : Prop :=
  ∃ chain, ImportChain s p start chain ∧
    i ∈ ImportRef.ofDocument (chainEnd start chain).document ∧
    ReexportRule s.config.strict (chain.map (·.1) ++ [i])

variable {s : Setup} {p : Progress} {start d : Source} {i j : ImportRef}

/-- An import leads to a file that is not built in if the resolver finds it and its dialect
is supported. -/
theorem ImportRef.leadsTo_imported_iff : i.LeadsTo s p (.imported d) ↔
    i.isBuiltIn s.config = false ∧ ((Query.resolve i).run s p).1 = .ok (some d) ∧
      s.config.supports d.document = true := by
  simp only [ImportRef.LeadsTo, Query.destination, Query.run_bind, Query.run_read]
  cases builtIn : i.isBuiltIn s.config with
  | true =>
    -- a built-in file is no imported one
    simp only [if_true, bind_pure_comp, Query.run_map]
    rcases (Query.builtIn i.path).run s p with ⟨_ | _ | b, after⟩ <;> simp [Except.map]
  | false =>
    simp only [Query.supported, Bool.false_eq_true, if_false, Query.run_bind, Query.run_read]
    rcases (Query.resolve i).run s p with ⟨_ | _ | d', after⟩
    · simp
    · simp
    · by_cases counts : s.config.supports d'.document = true
      · simp only [counts, if_true, Query.run_pure]
        grind
      · simp only [counts, Bool.false_eq_true, if_false, Query.run_bind, Query.run_log,
          Query.run_pure]
        grind

/-! ### Chains -/

@[simp] theorem chainEnd_append (chain : List (ImportRef × Source)) :
    chainEnd start (chain ++ [(i, d)]) = d := by
  induction chain generalizing start with
  | nil => rfl
  | cons link rest ih => exact ih

theorem importChain_append {chain : List (ImportRef × Source)} :
    ImportChain s p start (chain ++ [(i, d)]) ↔
      ImportChain s p start chain ∧ i ∈ ImportRef.ofDocument (chainEnd start chain).document ∧
        i.LeadsTo s p (.imported d) := by
  induction chain generalizing start with
  | nil => simp [ImportChain, chainEnd]
  | cons link rest ih =>
    simp only [List.cons_append, ImportChain, ih, chainEnd, and_assoc]

/-- A longer chain keeps the rule if a shorter one does, re-exports are followed behind it,
and what is added is public. -/
theorem reexportRule_append {strict : Bool} {imports : List ImportRef} :
    ReexportRule strict (imports ++ [i] ++ [j]) ↔
      ReexportRule strict (imports ++ [i]) ∧ i.isFollowed strict = true ∧ j.isPublic = true := by
  unfold ReexportRule ImportRef.isFollowed
  cases imports with
  | nil => cases strict <;> simp [and_comm]
  | cons first rest =>
    simp only [List.cons_append, List.tail_cons, List.mem_append, List.mem_singleton]
    cases strict with
    | false => grind
    | true => grind

theorem reexportRule_singleton (strict : Bool) (i : ImportRef) : ReexportRule strict [i] := by
  simp [ReexportRule]

/-- What a document sees is what the imports that count for it lead to. -/
theorem sees_iff : start.Sees s p d ↔
    ∃ i : ImportRef, i.CountsFor s p start ∧ i.LeadsTo s p (.imported d) := by
  constructor
  · rintro ⟨chain, nonempty, linked, ends, rule⟩
    obtain ⟨init, ⟨i, d'⟩, rfl⟩ := List.eq_nil_or_concat' chain |>.resolve_left nonempty
    simp only [chainEnd_append] at ends
    subst ends
    obtain ⟨linked, stands, leads⟩ := importChain_append.mp linked
    exact ⟨i, ⟨init, linked, stands, by simpa using rule⟩, leads⟩
  · rintro ⟨i, ⟨chain, linked, stands, rule⟩, leads⟩
    exact ⟨chain ++ [(i, d)], by simp, importChain_append.mpr ⟨linked, stands, leads⟩,
      chainEnd_append chain, by simpa using rule⟩

/-! ### Queues -/

/-- The imports that pass through a queue: those that wait in it, and the public imports of
what these lead to, where re-exports are followed and have not been before. -/
inductive Queued (s : Setup) (p : Progress) (visited : Visited) (queue : List ImportRef) :
    ImportRef → Prop
  | waiting {i : ImportRef} : i ∈ queue → Queued s p visited queue i
  | reexported {i j : ImportRef} {d : Source} : Queued s p visited queue i →
      i.LeadsTo s p (.imported d) → i.isFollowed s.config.strict = true →
      visited.lookup d.id ≠ some true → j ∈ reexports true d → Queued s p visited queue j

theorem mem_reexports :
    j ∈ reexports true d ↔ j ∈ ImportRef.ofDocument d.document ∧ j.isPublic = true := by
  simp [reexports]

theorem ImportRef.LeadsTo.unique {v v' : Visit} (h : i.LeadsTo s p v) (h' : i.LeadsTo s p v') :
    v = v' := by
  have same := Option.some.inj (Except.ok.inj (h.symm.trans h'))
  exact same

/-- Whatever passes through the queue of a document's imports counts for the document. -/
theorem Queued.countsFor
    (h : Queued s p [(start.id, true)] (ImportRef.ofDocument start.document) j) :
    j.CountsFor s p start := by
  induction h with
  | waiting stands => exact ⟨[], trivial, stands, reexportRule_singleton _ _⟩
  | @reexported i j d _ leads followed _ joins ih =>
    obtain ⟨chain, linked, stands, rule⟩ := ih
    obtain ⟨inside, isPublic⟩ := mem_reexports.mp joins
    refine ⟨chain ++ [(i, d)], importChain_append.mpr ⟨linked, stands, leads⟩, ?_, ?_⟩
    · rw [chainEnd_append]
      exact inside
    · simp only [List.map_append, List.map_cons, List.map_nil]
      exact reexportRule_append.mpr ⟨rule, followed, isPublic⟩

/-- The imports that pass through the queue of a document's imports are those that count for
the document, if a chain can come back to the document only as itself. -/
theorem queued_iff_countsFor
    (itself : ∀ i d, Queued s p [(start.id, true)] (ImportRef.ofDocument start.document) i →
      i.LeadsTo s p (.imported d) → d.id = start.id → d = start) :
    Queued s p [(start.id, true)] (ImportRef.ofDocument start.document) j ↔
      j.CountsFor s p start := by
  refine ⟨Queued.countsFor, ?_⟩
  rintro ⟨chain, linked, stands, rule⟩
  -- the chain is built up from its first import on
  induction chain using List.reverseRecOn generalizing j with
  | nil => exact .waiting stands
  | append_singleton chain link ih =>
    obtain ⟨i, d⟩ := link
    obtain ⟨linked, stands', leads⟩ := importChain_append.mp linked
    simp only [List.map_append, List.map_cons, List.map_nil] at rule
    obtain ⟨rule, followed, isPublic⟩ := reexportRule_append.mp rule
    rw [chainEnd_append] at stands
    have queued := ih linked stands' rule
    by_cases back : d.id = start.id
    · cases itself i d queued leads back
      exact .waiting stands
    · refine .reexported queued leads followed ?_ (mem_reexports.mpr ⟨stands, isPublic⟩)
      simp [List.lookup_cons, beq_eq_false_iff_ne.mpr back]

end ProtoNames
