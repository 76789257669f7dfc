import ProtoNames.Proofs.Diagnostics

/-!
What a set of markers takes in.

Markers come to a set one by one, some as they are and some on lines of output.

* `markers_insertAll`: what is there stays, and behind it stand the newcomers: of the markers
  that arrive those that repeat nothing known and nothing that arrived before them.
* `contains_insertAll_iff`: whatever has arrived is known from then on.
* `insertAll_of_known`: what is known changes nothing.

All of it holds whatever is there to begin with, duplicates too (`receiveAll_keeps_first`).
-/

namespace ProtoNames.Compiler

variable {known ms : List Marker} {m w : Marker}

/-! ### Newcomers -/

/-- Of the markers that arrive, in their order, those that repeat nothing known and nothing that
arrived before. -/
def newcomers (known incoming : List Marker) : List Marker :=
  (incoming.zipIdx.filter fun (m, i) =>
    decide (∀ w ∈ known ++ incoming.take i, ¬ m.Repeats w)).map (·.1)

/-- Whoever comes first is known to the rest. -/
theorem newcomers_cons : newcomers known (m :: ms) =
    (if ∀ w ∈ known, ¬ m.Repeats w then [m] else []) ++ newcomers (known ++ [m]) ms := by
  have later : ((m :: ms).zipIdx.filter fun (w, i) =>
      decide (∀ k ∈ known ++ (m :: ms).take i, ¬ w.Repeats k)) =
      (if ∀ w ∈ known, ¬ m.Repeats w then [(m, 0)] else []) ++
        (ms.zipIdx.filter fun (w, i) =>
          decide (∀ k ∈ (known ++ [m]) ++ ms.take i, ¬ w.Repeats k)).map
            (Prod.map id (· + 1)) := by
    rw [List.zipIdx_cons', List.filter_cons, List.filter_map]
    simp only [Function.comp_def, Prod.map, id, List.take_succ_cons, List.append_assoc,
      List.singleton_append, List.take_zero, List.append_nil, decide_eq_true_eq]
    split <;> rfl
  rw [newcomers, later, List.map_append, List.map_map]
  congr 1
  split <;> rfl

/-- It matters what is known, not how often. -/
theorem newcomers_of_known (again : ∃ k ∈ known, m.Repeats k) :
    newcomers (known ++ [m]) ms = newcomers known ms := by
  obtain ⟨k, inside, same⟩ := again
  have new_iff (w : Marker) (others : List Marker) :
      (∀ x ∈ (known ++ [m]) ++ others, ¬ w.Repeats x) ↔ ∀ x ∈ known ++ others, ¬ w.Repeats x := by
    simp only [List.forall_mem_append, List.forall_mem_singleton]
    refine and_congr_left' ⟨And.left, fun new => ⟨new, fun repeats => new k inside ?_⟩⟩
    exact ⟨same.1.trans repeats.1, same.2.trans repeats.2⟩
  simp only [newcomers, new_iff]

namespace MarkerSet

variable {s : MarkerSet} {message : String} {line : Int}

/-! ### Markers that are added -/

/-- What is there stays, and the newcomers stand behind it. -/
theorem markers_insertAll (s : MarkerSet) (ms : List Marker) :
    (s.insertAll ms).markers = s.markers ++ newcomers s.markers ms := by
  induction ms generalizing s with
  | nil => exact (List.append_nil _).symm
  | cons m ms ih =>
    change ((s.insert m).insertAll ms).markers = _
    rw [ih, newcomers_cons, insert]
    by_cases new : s.accepts m = true
    · rw [if_pos new, if_pos (accepts_iff.mp new), List.append_assoc]
    · have old := accepts_iff.not.mp new
      rw [if_neg new, if_neg old, List.nil_append]
      push Not at old
      rw [newcomers_of_known old]

theorem contains_insert_iff : (s.insert m).contains message line = true ↔
    s.contains message line = true ∨ m.message = message ∧ m.line = line := by
  rw [insert]
  split
  · simp [contains]
  · next known =>
    refine ⟨.inl, ?_⟩
    rintro (already | ⟨rfl, rfl⟩)
    · exact already
    · simpa [accepts] using known

/-- Whatever arrives is known from then on. -/
theorem contains_insertAll_iff : (s.insertAll ms).contains message line = true ↔
    s.contains message line = true ∨ ∃ m ∈ ms, m.message = message ∧ m.line = line := by
  induction ms generalizing s with
  | nil => simp [insertAll]
  | cons m ms ih =>
    change ((s.insert m).insertAll ms).contains message line = true ↔ _
    rw [ih, contains_insert_iff, or_assoc, List.exists_mem_cons_iff]

theorem insert_of_known (known : s.contains m.message m.line = true) : s.insert m = s := by
  simp [insert, accepts, known]

/-- What is known changes nothing. -/
theorem insertAll_of_known (known : ∀ m ∈ ms, s.contains m.message m.line = true) :
    s.insertAll ms = s := by
  induction ms with
  | nil => rfl
  | cons m ms ih =>
    obtain ⟨here, rest⟩ := List.forall_mem_cons.mp known
    change (s.insert m).insertAll ms = s
    rw [insert_of_known here, ih rest]

theorem insertAll_twice : (s.insertAll ms).insertAll ms = s.insertAll ms :=
  insertAll_of_known fun m inside => contains_insertAll_iff.mpr (.inr ⟨m, inside, rfl, rfl⟩)

/-! ### Arrivals -/

/-- What comes to a set: a marker, or a line of output that may have one. -/
inductive Arrival
  | marker (m : Marker)
  | line (text : String)
  deriving DecidableEq, Repr

/-- The marker that comes. On a line that is no diagnostic there is none, and none on one with
a number that is too long. -/
def Arrival.marker? : Arrival → Option Marker
  | .marker m => some m
  | .line text => (readMarker text).toOption.join

/-- What is said about an arrival: of a marker, whether it was added; of a line, the marker that
was read. -/
inductive Reply
  | added (new : Bool)
  | read (found : Except NumberTooLong (Option Marker))
  deriving DecidableEq, Repr

/-- Takes in what arrives. A line that cannot be read leaves the set as it is. -/
def receive (s : MarkerSet) : Arrival → MarkerSet × Reply
  | .marker m => (s.insert m, .added (s.accepts m))
  | .line text =>
    match s.addLine text with
    | .ok (s', found) => (s', .read (.ok found))
    | .error e => (s, .read (.error e))

/-- Takes in all that arrives, in order. -/
def receiveAll (s : MarkerSet) (arrivals : List Arrival) : MarkerSet :=
  arrivals.foldl (fun s a => (s.receive a).1) s

/-- The markers that come, in order. -/
def incoming (arrivals : List Arrival) : List Marker := arrivals.filterMap Arrival.marker?

/-- Only the marker that comes has an effect. -/
theorem receive_fst (s : MarkerSet) (a : Arrival) :
    (s.receive a).1 = s.insertAll a.marker?.toList := by
  cases a with
  | marker m => rfl
  | line text =>
    simp only [receive, addLine, Arrival.marker?]
    rcases readMarker text with e | _ | m <;> rfl

theorem receiveAll_eq (s : MarkerSet) (arrivals : List Arrival) :
    s.receiveAll arrivals = s.insertAll (incoming arrivals) := by
  induction arrivals generalizing s with
  | nil => rfl
  | cons a rest ih =>
    change (s.receive a).1.receiveAll rest = _
    rw [ih, receive_fst]
    simp only [insertAll, incoming, List.filterMap_cons]
    cases a.marker? <;> rfl

/-- What is said of a marker is whether it is put behind the others. -/
theorem receive_marker (s : MarkerSet) (m : Marker) : ∃ new,
    (s.receive (.marker m)).2 = .added new ∧
    (new = true ↔ (s.receive (.marker m)).1.markers = s.markers ++ [m]) ∧
    (new = false ↔ (s.receive (.marker m)).1 = s) := by
  have longer : (⟨s.markers ++ [m]⟩ : MarkerSet) ≠ s := by
    intro same
    simpa using congrArg MarkerSet.markers same
  refine ⟨s.accepts m, rfl, ?_⟩
  cases new : s.accepts m with
  | true => simp [receive, insert, new, longer]
  | false => simp [receive, insert, new]

/-- After any arrivals the markers that were there stand first, unchanged, and behind them those
that repeat neither one of these nor one that arrived before them. What is known is what was there
or has arrived. A marker that arrives is said to be added if and only if it is put behind the
others. And if all of it arrives once more, nothing is added. -/
theorem receiveAll_keeps_first (existing : List Marker) (arrivals : List Arrival) :
    let s := receiveAll ⟨existing⟩ arrivals
    s.markers = existing ++ newcomers existing (incoming arrivals) ∧
    (∀ message line, s.contains message line = true ↔
      ∃ m ∈ existing ++ incoming arrivals, m.message = message ∧ m.line = line) ∧
    (∀ m, ∃ new, (s.receive (.marker m)).2 = .added new ∧
      (new = true ↔ (s.receive (.marker m)).1.markers = s.markers ++ [m]) ∧
      (new = false ↔ (s.receive (.marker m)).1 = s)) ∧
    s.receiveAll arrivals = s := by
  intro s
  have whole : s = insertAll ⟨existing⟩ (incoming arrivals) := receiveAll_eq _ _
  refine ⟨?_, fun message line => ?_, receive_marker s, ?_⟩
  · rw [whole, markers_insertAll]
  · rw [whole, contains_insertAll_iff]
    simp [contains, or_and_right, exists_or]
  · rw [receiveAll_eq s arrivals, whole, insertAll_twice]

end MarkerSet

end ProtoNames.Compiler
