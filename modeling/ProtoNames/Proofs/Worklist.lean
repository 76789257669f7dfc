import ProtoNames.Proofs.Patience

/-!
The loop that expands the imports of a document, one import at a time.

* `Worklist.Step` takes the import at the front of the queue. A `Taking` says which import it
  was, which file has been scanned because of it, and whose public imports have joined.
* `Worklist.Tracks` is what all takings so far say about the state of the loop. Each step keeps
  it (`Tracks.step`), and so does each run.
* `expand_loops`: expanding a queue within a budget is running the loop until nothing waits, or
  until it meets an import for which it cannot be found out where it leads. Each import that is
  taken costs one check.
* `visits_exhausts`: the loop ends, whatever imports what. No document is scanned twice or lets
  its public imports join twice, and that bounds how many imports are taken. Built-in files are
  scanned again with each import that names them (`built_in_scanned_twice`).
-/

namespace ProtoNames

/-- A state of the loop: what has been seen, the imports that wait, and the progress of the
query. -/
structure Worklist where
  visited : Visited
  pending : List ImportRef
  progress : Progress

/-- What became of an import that was taken from the queue. -/
structure Taking where
  taken : ImportRef
  /-- The file that was scanned because of it. -/
  scanned : Option Visit
  /-- The document whose public imports joined the queue because of it. -/
  joined : Option Source

/-- The document that is seen, unless it is built in. -/
def Visit.document? : Visit → Option Source
  | .builtIn _ => none
  | .imported d => some d

/-- The file that is seen. -/
def Visit.source : Visit → Source
  | .builtIn s => s
  | .imported s => s

namespace Taking

/-- The files that were scanned. -/
def scans (takings : List Taking) : List Visit := takings.filterMap scanned

/-- The documents that were scanned. -/
def documents (takings : List Taking) : List Source := (scans takings).filterMap Visit.document?

/-- The documents whose public imports joined the queue. -/
def joins (takings : List Taking) : List Source := takings.filterMap joined

end Taking

/-- The identities of a document and of others behind it. -/
def idsFrom (start : SourceId) (others : List Source) : List SourceId :=
  start :: others.map Source.id

/-- How many imports some documents can let join a queue. -/
def publicCount (documents : List Source) : Nat :=
  (documents.map fun d => (reexports true d).length).sum

/-! ### Some takings, and one more -/

section OneMore

variable {visited : Visited} {takings : List Taking} {t : Taking} {others : List Source}
  {d : Source} {start id : SourceId}

theorem Taking.documents_append : documents (takings ++ [t]) =
    documents takings ++ (t.scanned.bind Visit.document?).toList := by
  simp only [documents, scans, List.filterMap_append]
  cases scanned : t.scanned with
  | none => simp [scanned]
  | some v => cases counted : v.document? <;> simp [scanned, counted]

theorem Taking.scans_cons : scans (t :: takings) = t.scanned.toList ++ scans takings := by
  cases scanned : t.scanned <;> simp [scans, scanned]

theorem Taking.joins_append : joins (takings ++ [t]) = joins takings ++ t.joined.toList := by
  cases joined : t.joined <;> simp [joins, joined]

theorem mem_idsFrom_append : id ∈ idsFrom start (others ++ [d]) ↔
    id ∈ idsFrom start others ∨ id = d.id := by
  simp [idsFrom, or_assoc]

theorem nodup_idsFrom_append : (idsFrom start (others ++ [d])).Nodup ↔
    (idsFrom start others).Nodup ∧ d.id ∉ idsFrom start others := by
  simp only [idsFrom, List.map_append, List.map_cons, List.map_nil, ← List.cons_append]
  rw [List.nodup_append]
  simp
  grind

theorem publicCount_append :
    publicCount (others ++ [d]) = publicCount others + (reexports true d).length := by
  simp [publicCount]

end OneMore

namespace Worklist

/-- The loop at its start. The document counts as seen with its re-exports. -/
def start (d : Source) (p : Progress) : Worklist :=
  ⟨[(d.id, true)], ImportRef.ofDocument d.document, p⟩

/-- One import is taken from the front of the queue. -/
inductive Step (s : Setup) : Worklist → Taking → Worklist → Prop
  /-- It leads to no file, or to one whose declarations do not count. -/
  | nowhere {visited i rest p p'} : (Query.destination i).run s p = (.ok none, p') →
      Step s ⟨visited, i :: rest, p⟩ ⟨i, none, none⟩ ⟨visited, rest, p'⟩
  /-- It leads to a built-in file, which imports nothing. -/
  | builtIn {visited i rest p p' b} :
      (Query.destination i).run s p = (.ok (some (.builtIn b)), p') →
      Step s ⟨visited, i :: rest, p⟩ ⟨i, some (.builtIn b), none⟩ ⟨visited, rest, p'⟩
  /-- It leads to a document that has been seen, and adds nothing. -/
  | again {visited i rest p p' d} :
      (Query.destination i).run s p = (.ok (some (.imported d)), p') →
      visited.covers d.id (i.isFollowed s.config.strict) = true →
      Step s ⟨visited, i :: rest, p⟩ ⟨i, none, none⟩
        ⟨visited, rest, { p' with journal := p'.journal ++ [.importRepeated i.path] }⟩
  /-- It leads to a document that is new, or to one whose re-exports are new. -/
  | fresh {visited i rest p p' d} :
      (Query.destination i).run s p = (.ok (some (.imported d)), p') →
      visited.covers d.id (i.isFollowed s.config.strict) = false →
      Step s ⟨visited, i :: rest, p⟩
        ⟨i, visited.firstSight d, if i.isFollowed s.config.strict then some d else none⟩
        ⟨(d.id, i.isFollowed s.config.strict) :: visited,
          rest ++ reexports (i.isFollowed s.config.strict) d, p'⟩

/-- Some imports are taken one after the other. -/
inductive Run (s : Setup) : Worklist → List Taking → Worklist → Prop
  | refl (w : Worklist) : Run s w [] w
  | step {w t mid takings last} :
      Step s w t mid → Run s mid takings last → Run s w (t :: takings) last

/-- The loop has come to its end, and the query goes on or fails: nothing waits, or it cannot be
found out where the next import leads. That import is taken all the same, and is counted. -/
inductive Ends (s : Setup) : Worklist → Nat → Except QueryError Unit × Progress → Prop
  | empty {visited p} : Ends s ⟨visited, [], p⟩ 0 (.ok (), p)
  | stuck {visited i rest p p' e} : (Query.destination i).run s p = (.error e, p') →
      Ends s ⟨visited, i :: rest, p⟩ 1 (.error e, p')

variable {s : Setup} {p p' : Progress} {visited : Visited} {i : ImportRef}
  {rest : List ImportRef} {d : Source} {w w' mid last : Worklist} {t : Taking}
  {takings before : List Taking} {k : Nat} {out : Except QueryError Unit × Progress}

/-! ### The loop goes only one way -/

theorem Step.unique {t' : Taking} (h : Step s w t w') (h' : Step s w t' mid) :
    t = t' ∧ w' = mid := by
  cases h with
  | nowhere ran => cases h' <;> simp_all
  | builtIn ran => cases h' <;> simp_all
  | again ran covered => cases h' <;> simp_all
  | fresh ran fresh => cases h' <;> simp_all

theorem Ends.not_step (h : Ends s w k out) : ¬ Step s w t w' := by
  intro step
  cases h with
  | empty => cases step
  | stuck failed => cases step <;> simp_all

/-- Whoever takes imports one after the other is on the way to the end. -/
theorem Run.isPrefix (run : Run s w takings last) (ends : Ends s last k out)
    {others : List Taking} {other : Worklist} (h : Run s w others other) : others <+: takings := by
  induction h generalizing takings with
  | refl w => exact List.nil_prefix
  | step first _ ih =>
    cases run with
    | refl => exact absurd first ends.not_step
    | step first' run =>
      obtain ⟨rfl, rfl⟩ := first.unique first'
      exact List.cons_prefix_cons.mpr ⟨rfl, ih run⟩

/-! ### What the takings say about the state -/

theorem Step.grows (h : Step s w t w') : w.progress.Grows s w'.progress := by
  have fetches : ∀ {i p found p'}, (Query.destination i).run s p = (found, p') →
      p.Grows s p' := by
    intro i p found p' ran
    have grows := (Query.replays_destination (s := s) i p).1
    rwa [ran] at grows
  cases h with
  | nowhere ran => exact fetches ran
  | builtIn ran => exact fetches ran
  | again ran _ => exact (fetches ran).trans ⟨.refl, id⟩
  | fresh ran _ => exact fetches ran

/-- What the takings so far say about the state of the loop: which documents have been seen, and
seen with their re-exports, each once and apart from the start; that whoever let imports join
has been scanned; and how many imports there have been. -/
structure Tracks (start : Source) (takings : List Taking) (w : Worklist) : Prop where
  seen : ∀ id, (w.visited.lookup id).isSome ↔ id ∈ idsFrom start.id (Taking.documents takings)
  followed : ∀ id, w.visited.lookup id = some true ↔ id ∈ idsFrom start.id (Taking.joins takings)
  scannedOnce : (idsFrom start.id (Taking.documents takings)).Nodup
  joinedOnce : (idsFrom start.id (Taking.joins takings)).Nodup
  stored : ∀ d ∈ Taking.documents takings, w.progress.Stored d
  scannedFirst : Taking.joins takings ⊆ Taking.documents takings
  counted : takings.length + w.pending.length =
    start.document.imports.length + publicCount (Taking.joins takings)

theorem tracks_start (d : Source) (p : Progress) : Tracks d [] (.start d p) where
  seen id := by
    simp only [start, idsFrom, Taking.documents, Taking.scans, Visited.lookup_cons]
    by_cases same : id = d.id <;> simp [same]
  followed id := by
    simp only [start, idsFrom, Taking.joins, Visited.lookup_cons]
    by_cases same : id = d.id <;> simp [same]
  scannedOnce := by simp [idsFrom, Taking.documents, Taking.scans]
  joinedOnce := by simp [idsFrom, Taking.joins]
  stored := by simp [Taking.documents, Taking.scans]
  scannedFirst := by simp [Taking.joins]
  counted := by simp [start, Taking.joins, publicCount, ImportRef.ofDocument]

variable {origin : Source}

/-- An import that leads to no document, or to one that adds nothing, leaves the rest of the
queue to be taken. -/
theorem Tracks.quiet (h : Tracks origin takings ⟨visited, i :: rest, p⟩) (grows : p.Grows s p')
    (noDocument : t.scanned.bind Visit.document? = none) (noJoin : t.joined = none) :
    Tracks origin (takings ++ [t]) ⟨visited, rest, p'⟩ := by
  have documents : Taking.documents (takings ++ [t]) = Taking.documents takings := by
    simp [Taking.documents_append, noDocument]
  have joins : Taking.joins (takings ++ [t]) = Taking.joins takings := by
    simp [Taking.joins_append, noJoin]
  constructor
  · simpa only [documents] using h.seen
  · simpa only [joins] using h.followed
  · simpa only [documents] using h.scannedOnce
  · simpa only [joins] using h.joinedOnce
  · rw [documents]
    exact fun d scanned => (h.stored d scanned).grows grows
  · simpa only [documents, joins] using h.scannedFirst
  · have counted := h.counted
    simp only [joins, List.length_append, List.length_cons, List.length_nil] at counted ⊢
    omega

/-- A document that is seen for the first time is scanned, and lets its public imports join if its
re-exports are followed. -/
theorem Tracks.first {follow : Bool} (h : Tracks origin takings ⟨visited, i :: rest, p⟩)
    (grows : p.Grows s p') (stored : p'.Stored d) (unseen : visited.lookup d.id = none)
    (scanned : t.scanned = some (.imported d))
    (joined : t.joined = if follow then some d else none) :
    Tracks origin (takings ++ [t])
      ⟨(d.id, follow) :: visited, rest ++ reexports follow d, p'⟩ := by
  have documents : Taking.documents (takings ++ [t]) = Taking.documents takings ++ [d] := by
    simp [Taking.documents_append, scanned, Visit.document?]
  have new : d.id ∉ idsFrom origin.id (Taking.documents takings) := by
    rw [← h.seen]
    simp [unseen]
  have newJoin : d.id ∉ idsFrom origin.id (Taking.joins takings) := by
    rw [← h.followed]
    simp [unseen]
  have counted := h.counted
  constructor
  · intro id
    rw [documents, mem_idsFrom_append, ← h.seen, Visited.lookup_cons]
    by_cases same : id = d.id <;> simp [same]
  · intro id
    rw [Taking.joins_append, joined, Visited.lookup_cons]
    cases follow with
    | false =>
      by_cases same : id = d.id
      · simp [same, newJoin]
      · simp [same, h.followed]
    | true =>
      simp only [if_true, Option.toList_some, mem_idsFrom_append, ← h.followed]
      by_cases same : id = d.id <;> simp [same]
  · rw [documents]
    exact nodup_idsFrom_append.mpr ⟨h.scannedOnce, new⟩
  · rw [Taking.joins_append, joined]
    cases follow with
    | false => simpa using h.joinedOnce
    | true => exact nodup_idsFrom_append.mpr ⟨h.joinedOnce, newJoin⟩
  · rw [documents]
    intro d' member
    rcases List.mem_append.mp member with before | now
    · exact (h.stored d' before).grows grows
    · rw [List.mem_singleton.mp now]
      exact stored
  · rw [documents, Taking.joins_append, joined]
    have scannedFirst := h.scannedFirst
    cases follow <;> grind
  · simp only [List.length_append, List.length_cons, List.length_nil] at counted ⊢
    rw [Taking.joins_append, joined]
    cases follow with
    | false => simpa [reexports] using by omega
    | true =>
      simp only [if_true, Option.toList_some, publicCount_append]
      omega

/-- A document that has been scanned lets its public imports join when its re-exports are first
followed. -/
theorem Tracks.upgrade (h : Tracks origin takings ⟨visited, i :: rest, p⟩)
    (grows : p.Grows s p') (seen : visited.lookup d.id = some false)
    (coherent : ∀ d', p'.Stored d' → d'.id = d.id → d' = d)
    (scanned : t.scanned = none) (joined : t.joined = some d) :
    Tracks origin (takings ++ [t])
      ⟨(d.id, true) :: visited, rest ++ reexports true d, p'⟩ := by
  have documents : Taking.documents (takings ++ [t]) = Taking.documents takings := by
    simp [Taking.documents_append, scanned]
  have joins : Taking.joins (takings ++ [t]) = Taking.joins takings ++ [d] := by
    simp [Taking.joins_append, joined]
  have old : d.id ∈ idsFrom origin.id (Taking.documents takings) := by
    rw [← h.seen]
    simp [seen]
  have newJoin : d.id ∉ idsFrom origin.id (Taking.joins takings) := by
    rw [← h.followed]
    simp [seen]
  have stored : ∀ d' ∈ Taking.documents takings, p'.Stored d' :=
    fun d' scanned => (h.stored d' scanned).grows grows
  have counted := h.counted
  constructor
  · intro id
    rw [documents, ← h.seen, Visited.lookup_cons]
    by_cases same : id = d.id <;> simp [same, seen]
  · intro id
    rw [joins, mem_idsFrom_append, ← h.followed, Visited.lookup_cons]
    by_cases same : id = d.id <;> simp [same]
  · rw [documents]
    exact h.scannedOnce
  · rw [joins]
    exact nodup_idsFrom_append.mpr ⟨h.joinedOnce, newJoin⟩
  · rw [documents]
    exact stored
  · -- the one that was scanned under this identity is the document itself
    have scanned : d ∈ Taking.documents takings := by
      rcases List.mem_cons.mp old with start | member
      · exact absurd (start ▸ List.mem_cons_self) newJoin
      · obtain ⟨d', member, same⟩ := List.mem_map.mp member
        exact coherent d' (stored d' member) same ▸ member
    rw [documents, joins]
    exact List.append_subset.mpr ⟨h.scannedFirst, by simpa using scanned⟩
  · simp only [List.length_append, List.length_cons, List.length_nil] at counted ⊢
    rw [joins, publicCount_append]
    omega

/-- One step keeps track. -/
theorem Tracks.step {uris : List String} (h : Tracks origin takings w)
    (grounded : w.progress.Grounded s uris) (step : Step s w t w') :
    Tracks origin (takings ++ [t]) w' := by
  have grows := step.grows
  cases step with
  | nowhere ran => exact h.quiet grows rfl rfl
  | builtIn ran => exact h.quiet grows rfl rfl
  | again ran covered => exact h.quiet grows rfl rfl
  | @fresh visited i rest p p' d ran fresh =>
    have stored : p'.Stored d := Query.stored_of_destination ran
    rcases Visited.covers_eq_false.mp fresh with unseen | ⟨seen, followed⟩
    · exact h.first grows stored unseen (by simp [Visited.firstSight, unseen]) rfl
    · rw [followed]
      refine h.upgrade grows seen ?_ (by simp [Visited.firstSight, seen]) (by simp)
      intro d' stored' same
      exact grounded.coherent grows stored' stored same

/-- A run keeps track. -/
theorem Tracks.run {uris : List String} (h : Tracks origin before w)
    (grounded : w.progress.Grounded s uris) (run : Run s w takings last) :
    Tracks origin (before ++ takings) last := by
  induction run generalizing before with
  | refl w => simpa using h
  | @step w t mid takings last first _ ih =>
    have tracked := ih (h.step grounded first) (grounded.grows first.grows)
    simpa using tracked

/-- A built-in file is scanned for an import that means it. -/
theorem Step.names {b : Source} (h : Step s w t w') (scanned : t.scanned = some (.builtIn b)) :
    t.taken.Names s b := by
  cases h with
  | nowhere ran => cases scanned
  | builtIn ran =>
    cases scanned
    exact Query.names_of_destination ran
  | again ran covered => cases scanned
  | @fresh visited _ _ _ _ d ran fresh =>
    simp only [Visited.firstSight] at scanned
    split at scanned <;> cases scanned

theorem Run.names (run : Run s w takings last) :
    ∀ t ∈ takings, ∀ b, t.scanned = some (.builtIn b) → t.taken.Names s b := by
  induction run with
  | refl w => simp
  | step first _ ih =>
    rintro t (_ | ⟨_, later⟩) b scanned
    · exact first.names scanned
    · exact ih t later b scanned

/-! ### Expansion is the loop -/

theorem map_nil_append (result : Except QueryError (List Visit)) :
    result.map ([] ++ ·) = result := by
  cases result <;> rfl

/-- A query is the loop from some state on: it gives what the loop scans, ends as the loop does,
and makes one check for each import that the loop takes. -/
structure IsLoop (s : Setup) (w : Worklist) (q : Query (List Visit)) (takings : List Taking)
    (last : Worklist) (k : Nat) (out : Except QueryError Unit × Progress) : Prop where
  run : Run s w takings last
  ends : Ends s last k out
  outcome : q.run s w.progress = (out.1.map fun _ => Taking.scans takings, out.2)
  checks : Query.Checks s w.progress q (takings.length + k)

/-- A query is the loop from some state on. -/
def Loops (s : Setup) (w : Worklist) (q : Query (List Visit)) : Prop :=
  ∃ takings last k out, IsLoop s w q takings last k out

open Query

/-- An import is taken with a check, and then the loop goes on. -/
theorem Loops.step {q : Query (List Visit)} {found : Option Visit} {p₁ : Progress}
    {f : Option Visit → Query (List Visit)} (patient : p.patience = none)
    (first : Step s ⟨visited, i :: rest, p⟩ t mid)
    (ran : (destination i).run s p = (.ok found, p₁))
    (outcome : (f found).run s p₁ =
      ((q.run s mid.progress).1.map (t.scanned.toList ++ ·), (q.run s mid.progress).2))
    (counts : ∀ k, Checks s mid.progress q k → Checks s p₁ (f found) k)
    (onwards : Loops s mid q) :
    Loops s ⟨visited, i :: rest, p⟩ (check >>= fun _ => destination i >>= f) := by
  obtain ⟨takings, last, k, out, run, ends, after, checks⟩ := onwards
  have itself : p.limited none = p := Progress.limited_eq patient
  refine ⟨t :: takings, last, k, out, .step first run, ends, ?_, ?_⟩
  · simp only [run_bind, run_check_patient patient, ran, outcome, after]
    rw [Taking.scans_cons]
    rcases out with ⟨_ | _, _⟩ <;> rfl
  · have imports : Checks s p (destination i >>= f) (0 + (takings.length + k)) :=
      (checks_destination i).bind (by rw [itself]; exact ran) (counts _ checks)
    have whole := checks_check.bind (f := fun _ => destination i >>= f)
      (run_check_patient rfl) (itself.symm ▸ imports)
    rwa [Nat.zero_add, ← Nat.add_assoc, Nat.add_comm 1] at whole

/-- If it cannot be found out where an import leads, the loop ends with it. -/
theorem Loops.stuck {e : QueryError} {p₁ : Progress} {f : Option Visit → Query (List Visit)}
    (patient : p.patience = none) (failed : (destination i).run s p = (.error e, p₁)) :
    Loops s ⟨visited, i :: rest, p⟩ (check >>= fun _ => destination i >>= f) := by
  have itself : p.limited none = p := Progress.limited_eq patient
  refine ⟨[], _, 1, (.error e, p₁), .refl _, .stuck failed, ?_, ?_⟩
  · simp only [run_bind, run_check_patient patient, failed]
    rfl
  · refine checks_check.bind (k := 1) (l := 0) (run_check_patient rfl) ?_
    rw [itself]
    exact (checks_destination i).bind_error (by rw [itself]; exact failed)

variable {onwards : Visited → List ImportRef → Query (List Visit)} {uris : List String}
  {bound : Nat}

/-- Taking imports up to the next new document is a part of the loop. -/
theorem expandWith_loops
    (ahead : ∀ visited' queue' p', p.Grows s p' → visited'.credit p' uris < bound →
      Loops s ⟨visited', queue', p'⟩ (onwards visited' queue'))
    (grounded : p.Grounded s uris) (enough : visited.credit p uris ≤ bound)
    (patient : p.patience = none) (queue : List ImportRef) :
    Loops s ⟨visited, queue, p⟩ (expandWith onwards visited queue) := by
  induction queue generalizing p with
  | nil => exact ⟨[], _, 0, _, .refl _, .empty, rfl, checks_pure []⟩
  | cons i rest ih =>
    have grows := (replays_destination (s := s) i p).1
    unfold expandWith
    cases ran : (destination i).run s p with
    | mk result p₁ =>
      rw [ran] at grows
      have skip : ∀ p', p.Grows s p' →
          Loops s ⟨visited, rest, p'⟩ (expandWith onwards visited rest) := by
        intro p' later
        refine ih ?_ (grounded.grows later) ((Visited.credit_grows uris later).trans enough)
          (later.patience patient)
        intro visited' queue' p'' later'
        exact ahead _ _ _ (later.trans later')
      rcases result with e | _ | b | d
      · exact .stuck patient ran
      · refine .step patient (.nowhere ran) ran ?_ (fun _ => id) (skip p₁ grows)
        exact Prod.ext (map_nil_append _).symm rfl
      · refine .step patient (.builtIn ran) ran ?_ (fun _ checks => ?_) (skip p₁ grows)
        · simp only [bind_pure_comp, run_map]
          rfl
        · simp only [bind_pure_comp]
          exact checks.map _
      · cases covered : visited.covers d.id (i.isFollowed s.config.strict) with
        | true =>
          refine .step patient (.again ran covered) ran ?_ (fun _ checks => ?_)
            (skip _ (grows.trans ⟨.refl, id⟩))
          · simp only [run_bind, run_read, covered, if_true, run_log]
            exact Prod.ext (map_nil_append _).symm rfl
          · apply checks_read_bind
            simp only [covered, if_true]
            have logged := (checks_log (s := s) (p := p₁) (.importRepeated i.path)).bind
              (f := fun _ => expandWith onwards visited rest)
              (by rw [Progress.limited_eq (grows.patience patient)]; exact run_log _) checks
            rwa [Nat.zero_add] at logged
        | false =>
          have stored : p₁.Stored d := stored_of_destination ran
          obtain ⟨u, known⟩ := stored
          have falls : Visited.credit _ p₁ uris < bound :=
            (Visited.credit_lt covered known (grounded.listed grows known)).trans_le
              ((Visited.credit_grows uris grows).trans enough)
          refine .step patient (.fresh ran covered) ran ?_ (fun _ checks => ?_)
            (ahead _ _ p₁ grows falls)
          · simp only [run_bind, run_read, covered, Bool.false_eq_true, if_false,
              bind_pure_comp, run_map]
          · apply checks_read_bind
            simp only [covered, Bool.false_eq_true, if_false, bind_pure_comp]
            exact checks.map _

/-- Expanding a queue is the loop, if the budget covers the credit of all documents. -/
theorem expand_loops {budget : Nat} (grounded : p.Grounded s uris)
    (enough : visited.credit p uris ≤ budget) (patient : p.patience = none)
    (queue : List ImportRef) :
    Loops s ⟨visited, queue, p⟩ (expand budget visited queue) := by
  induction budget generalizing p visited queue with
  | zero =>
    unfold expand
    exact expandWith_loops (fun _ _ _ _ less => absurd less (Nat.not_lt_zero _)) grounded enough
      patient queue
  | succ n ih =>
    unfold expand
    apply expandWith_loops _ grounded enough patient queue
    intro visited' queue' p' later less
    exact ih (grounded.grows later) (Nat.lt_succ_iff.mp less) (later.patience patient) queue'

/-- The files that a document sees are what the loop scans. -/
theorem visits_loops {given : List Source} (origin : Source)
    (accounted : p.sources.Accounted given) (patient : p.patience = none) :
    Loops s (.start origin p) (visits origin) := by
  have loops : Loops s (.start origin p) (expand (expansionBudget s p) [(origin.id, true)]
      (ImportRef.ofDocument origin.document)) := by
    apply expand_loops (Progress.grounded accounted) _ patient
    rw [← Progress.length_uris]
    exact Visited.credit_le _
  obtain ⟨takings, last, k, out, run, ends, outcome, checks⟩ := loops
  refine ⟨takings, last, k, out, run, ends, ?_, checks.patient, checks.enough, checks.short⟩
  simp only [visits, run_bind, run_read, run_get]
  exact outcome

/-! ### The loop ends -/

/-- The public imports of some documents are no more than those of more documents. -/
theorem publicCount_le {others more : List Source} (once : others.Nodup) (sub : others ⊆ more) :
    publicCount others ≤ publicCount more := by
  obtain ⟨others', same, sublist⟩ := List.subperm_of_subset once sub
  unfold publicCount
  rw [← (same.map _).sum_eq]
  exact (sublist.map _).sum_le_sum fun _ _ => Nat.zero_le _

theorem Tracks.bounded (h : Tracks origin takings w) :
    takings.length + w.pending.length ≤
      origin.document.imports.length + publicCount (Taking.documents takings) := by
  rw [h.counted]
  have once : (Taking.joins takings).Nodup := (List.nodup_cons.mp h.joinedOnce).2.of_map
  exact Nat.add_le_add_left (publicCount_le once h.scannedFirst) _

/-- The loop ends, whatever imports what. Imports are taken until none waits, unless there is one
for which it cannot be found out where it leads; and whoever takes imports from the start is on
the way there. No document lets its public imports join twice, none is scanned twice, and the
document at the start neither. So there are no more imports, taken or waiting, than stand in that
document and in public in those that have been scanned. Whatever else is scanned is a built-in
file that the import in question means; such files import nothing. -/
theorem visits_exhausts {given : List Source} (origin : Source)
    (history : p.sources.History given) (patient : p.patience = none) :
    ∃ takings last, Run s (.start origin p) takings last ∧
      (last.pending = [] ∧
          (visits origin).run s p = (.ok (Taking.scans takings), last.progress) ∨
        ∃ i rest e p', last.pending = i :: rest ∧
          (destination i).run s last.progress = (.error e, p') ∧
          (visits origin).run s p = (.error e, p')) ∧
      (∀ others other, Run s (.start origin p) others other → others <+: takings) ∧
      (idsFrom origin.id (Taking.joins takings)).Nodup ∧
      (idsFrom origin.id (Taking.documents takings)).Nodup ∧
      (∀ t ∈ takings, ∀ b, t.scanned = some (.builtIn b) → t.taken.Names s b) ∧
      takings.length + last.pending.length ≤
        origin.document.imports.length + publicCount (Taking.documents takings) := by
  obtain ⟨takings, last, k, out, run, ends, outcome, -⟩ :=
    visits_loops (s := s) origin history.accounted patient
  have tracks : Tracks origin takings last :=
    (tracks_start origin p).run (Progress.grounded (s := s) history.accounted) run
  refine ⟨takings, last, run, ?_, fun _ _ => run.isPrefix ends, tracks.joinedOnce,
    tracks.scannedOnce, run.names, tracks.bounded⟩
  cases ends with
  | empty => exact .inl ⟨rfl, outcome⟩
  | stuck failed => exact .inr ⟨_, _, _, _, rfl, failed, outcome⟩

/-- Three files in the root directory that import themselves and one another, more than once, in
public and not. -/
def tangleFiles : FileStore where
  entries := [
    ("/a.proto", "import 'b.proto'; import public 'b.proto'; import public 'a.proto';"
      |>.toUTF8.toList),
    ("/b.proto", "import public 'c.proto'; import 'b.proto';".toUTF8.toList),
    ("/c.proto", "import public 'a.proto';".toUTF8.toList)]

/-- Reading the first file of the tangle. -/
def tangleStart : Fetch :=
  SourceSet.empty.fetch Surroundings.plain.frames tangleFiles schemaExtension "/a.proto"

def tangleSetup : Setup := .plain tangleFiles

/-- From the first file of the tangle the other two are scanned, the second of them after it has
been met without its re-exports before. -/
theorem visits_exhausts_tangle : ∃ origin takings last,
    tangleStart.found = some origin ∧ origin.document.imports.length = 3 ∧
    Run tangleSetup (.start origin ⟨tangleStart.sources, [], [], none⟩) takings last ∧
    (Taking.documents takings).map (·.document.uri) = ["/b.proto", "/c.proto"] ∧
    (idsFrom origin.id (Taking.joins takings)).Nodup ∧
    takings.length ≤ 3 + publicCount (Taking.documents takings) := by
  have history : SourceSet.History tangleStart.sources (tangleStart.found.toList ++ []) :=
    .fetch _ tangleFiles schemaExtension "/a.proto" .start
  have scanned : tangleStart.found.map (fun origin => (origin.document.imports.length,
      ((visits origin).run tangleSetup ⟨tangleStart.sources, [], [], none⟩).1.toOption.map
        fun scans => (scans.filterMap Visit.document?).map (·.document.uri))) =
      some (3, some ["/b.proto", "/c.proto"]) := by decide +kernel
  cases opened : tangleStart.found with
  | none => simp [opened] at scanned
  | some origin =>
    simp only [opened, Option.map_some, Option.some.injEq, Prod.mk.injEq] at scanned
    obtain ⟨imports, uris⟩ := scanned
    obtain ⟨takings, last, run, ends, -, joins, -, -, bound⟩ :=
      visits_exhausts (s := tangleSetup) (p := ⟨tangleStart.sources, [], [], none⟩) origin
        history rfl
    obtain ⟨none, outcome⟩ | ⟨_, _, _, _, -, -, failed⟩ := ends
    · refine ⟨origin, takings, last, rfl, imports, run, ?_, joins, ?_⟩
      · simp only [outcome, Except.toOption, Option.map_some, Option.some.injEq] at uris
        exact uris
      · simpa [none, imports] using bound
    · simp [failed, Except.toOption] at uris

/-- A file in the root directory that imports a built-in file twice. -/
def doubleFiles : FileStore where
  entries := [("/a.proto",
    "import 'google/protobuf/any.proto'; import 'google/protobuf/any.proto';".toUTF8.toList)]

/-- Reading the file with the two imports. -/
def doubleStart : Fetch :=
  SourceSet.empty.fetch Surroundings.plain.frames doubleFiles schemaExtension "/a.proto"

/-- Not every file is scanned at most once: a built-in file is scanned with each import. -/
theorem built_in_scanned_twice : ∃ origin takings last,
    doubleStart.found = some origin ∧
    Run (.plain doubleFiles) (.start origin ⟨doubleStart.sources, [], [], none⟩) takings last ∧
    last.pending = [] ∧
    ¬ ((Taking.scans takings).map fun v => v.source.id).Nodup := by
  have history : SourceSet.History doubleStart.sources (doubleStart.found.toList ++ []) :=
    .fetch _ doubleFiles schemaExtension "/a.proto" .start
  have scanned : doubleStart.found.map (fun origin =>
      ((visits origin).run (.plain doubleFiles)
        ⟨doubleStart.sources, [], [], none⟩).1.toOption.map
        fun scans => scans.map fun v => v.source.id) =
      some (some [.builtIn "google.protobuf.any_pb2", .builtIn "google.protobuf.any_pb2"]) := by
    decide +kernel
  cases opened : doubleStart.found with
  | none => simp [opened] at scanned
  | some origin =>
    simp only [opened, Option.map_some, Option.some.injEq] at scanned
    obtain ⟨takings, last, k, out, run, ends, outcome, -⟩ :=
      visits_loops (s := .plain doubleFiles) (p := ⟨doubleStart.sources, [], [], none⟩) origin
        history.accounted rfl
    simp only [start] at outcome
    cases ends with
    | empty =>
      simp only [outcome, Except.map, Except.toOption, Option.map_some,
        Option.some.injEq] at scanned
      exact ⟨origin, takings, _, rfl, run, rfl, by simp [scanned]⟩
    | stuck failed => simp [outcome, Except.map, Except.toOption] at scanned

end Worklist

end ProtoNames
