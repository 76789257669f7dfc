import ProtoNames.Proofs.Lexing
import ProtoNames.Proofs.Refusals
import ProtoNames.Proofs.RoundTrip

/-!
How the reading of a text ends.

`contents` and `bodyOf` recurse into blocks. A `Stage` is what such a recursion has come to: the
blocks that are open and the tokens that are left, at the start of a round of the innermost
loop. `Stage.next` is one round: a statement, an entry, or the closing brace of a block.
`Stage.depth` counts the frames that the open blocks take.

* `left_of_next`: a round takes at least one token, so a run has at most as many rounds as
  there are tokens (`Runs.left`).
* `runs_of_bodyRead` and `stops_of_bodyOf`: the rounds do what `bodyOf` does, and where it
  fails, one of them does, or opens a block for which there is no room. `stops_of_contents` says
  the same of a whole file.
* `Document.parse_ends`: so every text is read in a bounded number of rounds, up to the end of
  its tokens, to one at which it is refused, or to a block that is too deep.
* `Document.parse_deep`: which is a matter of the room only. There is a text for every depth.
-/

namespace ProtoNames

namespace Grammar

open Reader

/-! ### Rounds -/

/-- A block that has been opened: that of a declaration, or a oneof. -/
inductive Block
  | declaration (h : Header)
  | oneof (name : String)
  deriving DecidableEq, Repr

/-- The region of a block's body. -/
def Block.region : Block → Region
  | .declaration h => regionOf h
  | .oneof _ => .oneof

/-- How many calls wait for the body of a block to end. -/
def Block.frames : Block → Nat
  | .declaration h => framesOf h
  | .oneof _ => oneofFrames

/-- How many calls wait for some blocks to end. -/
def depthOf : List Block → Nat
  | [] => 0
  | b :: outer => b.frames + depthOf outer

@[simp] theorem depthOf_nil : depthOf [] = 0 := rfl

@[simp] theorem depthOf_cons (b : Block) (outer : List Block) :
    depthOf (b :: outer) = b.frames + depthOf outer := rfl

/-- How far the reading of a file has come. -/
structure Stage where
  /-- Whether a package statement came before. -/
  hasPackage : Bool
  /-- The blocks that are open, innermost first. -/
  opened : List Block
  left : List Token
  deriving DecidableEq, Repr

theorem map_map_const {α β γ ε : Type} (x : Except ε α) (f : α → β) (c : γ) :
    (x.map f).map (fun _ => c) = x.map fun _ => c := by
  cases x <;> rfl

namespace Stage

/-- The stage at which the reading of a text begins. -/
def start (text : String) : Stage := ⟨false, [], (tokenize text).tokens⟩

/-- How many calls wait for the blocks that are open. -/
def depth (s : Stage) : Nat := depthOf s.opened

/-- The stage after a statement, where `rest` is left. -/
def afterStatement (s : Stage) (rest : List Token) : Statement → Stage
  | .leaf l => { s with hasPackage := s.hasPackage || isPackage l, left := rest }
  | .header h => { s with opened := .declaration h :: s.opened, left := rest }
  | _ => { s with left := rest }

/-- The stage after an entry other than the end of its body, where `rest` is left. -/
def afterEntry (s : Stage) (rest : List Token) : Entry → Stage
  | .header h => { s with opened := .declaration h :: s.opened, left := rest }
  | .oneof name => { s with opened := .oneof name :: s.opened, left := rest }
  | _ => { s with left := rest }

/-- The stage after the innermost block, of which `rest` is left. -/
def afterBlock (s : Stage) (outer : List Block) (rest : List Token) : Except Refusal Stage :=
  (symbol .rbrace rest).map fun (_, after) => { s with opened := outer, left := after }

/-- What one round makes of a stage. At the end of the file there is no round. -/
def next (s : Stage) : Except Refusal (Option Stage) :=
  match s.opened with
  | [] =>
    match s.left with
    | [] => .ok none
    | t :: more =>
      (statementAt s.hasPackage t (t :: more)).map fun (read, rest) =>
        some (s.afterStatement rest read)
  | b :: outer =>
    match entry b.region s.left with
    | .error e => .error e
    | .ok (.close, rest) => (s.afterBlock outer rest).map some
    | .ok (read, rest) => .ok (some (s.afterEntry rest read))

/-- A number of rounds lead from a stage to another. -/
inductive Runs (s : Stage) : Nat → Stage → Prop
  | none : Runs s 0 s
  | round {n : Nat} {mid last : Stage} :
      Runs s n mid → mid.next = .ok (some last) → Runs s (n + 1) last

/-- A number of rounds lead from a stage to another, and there are enough frames for each stage
on the way. -/
inductive RunsWithin (frames : Nat) (s : Stage) : Nat → Stage → Prop
  | none : s.depth ≤ frames → RunsWithin frames s 0 s
  | round {n : Nat} {mid last : Stage} :
      RunsWithin frames s n mid → mid.next = .ok (some last) → last.depth ≤ frames →
      RunsWithin frames s (n + 1) last

variable {s s' last : Stage} {n frames : Nat} {hasPackage : Bool} {outer : List Block} {b : Block}
  {t : Token} {ts more rest : List Token} {r : Refusal}

theorem Runs.trans {k : Nat} (h : Runs s n s') (h' : Runs s' k last) : Runs s (n + k) last := by
  induction h' with
  | none => exact h
  | round _ one ih => exact .round ih one

namespace RunsWithin

theorem runs (h : RunsWithin frames s n s') : Runs s n s' := by
  induction h with
  | none => exact .none
  | round _ one _ ih => exact .round ih one

theorem first_le (h : RunsWithin frames s n s') : s.depth ≤ frames := by
  induction h with
  | none room => exact room
  | round _ _ _ ih => exact ih

theorem single (h : s.next = .ok (some s')) (room : s.depth ≤ frames) (room' : s'.depth ≤ frames) :
    RunsWithin frames s 1 s' :=
  .round (.none room) h room'

theorem trans {k : Nat} (h : RunsWithin frames s n s') (h' : RunsWithin frames s' k last) :
    RunsWithin frames s (n + k) last := by
  induction h' with
  | none => exact h
  | round _ one room ih => exact .round ih one room

end RunsWithin

/-! ### One round -/

theorem next_statement {read : Statement}
    (h : statementAt hasPackage t (t :: more) = .ok (read, rest)) :
    next ⟨hasPackage, [], t :: more⟩ =
      .ok (some (afterStatement ⟨hasPackage, [], t :: more⟩ rest read)) := by
  simp only [next, h, Except.map]

theorem next_entry {read : Entry} (h : entry b.region ts = .ok (read, rest))
    (open_ : read ≠ .close) :
    next ⟨hasPackage, b :: outer, ts⟩ =
      .ok (some (afterEntry ⟨hasPackage, b :: outer, ts⟩ rest read)) := by
  simp only [next, h]

theorem next_end (h : entry b.region ts = .ok (.close, rest)) :
    next ⟨hasPackage, b :: outer, ts⟩ =
      (afterBlock ⟨hasPackage, b :: outer, ts⟩ outer rest).map some := by
  simp only [next, h]

theorem next_closing (b : Block) {after : List Token} (h : entry b.region ts = .ok (.close, rest))
    (closing : symbol .rbrace rest = .ok (t, after)) :
    next ⟨hasPackage, b :: outer, ts⟩ = .ok (some ⟨hasPackage, outer, after⟩) := by
  rw [next_end h, afterBlock, closing]
  rfl

theorem next_unclosed (b : Block) (h : entry b.region ts = .ok (.close, rest))
    (missing : symbol .rbrace rest = .error r) :
    next ⟨hasPackage, b :: outer, ts⟩ = .error r := by
  rw [next_end h, afterBlock, missing]
  rfl

theorem next_refused (h : entry b.region ts = .error r) :
    next ⟨hasPackage, b :: outer, ts⟩ = .error r := by
  simp only [next, h]

/-! ### What a round takes -/

@[simp] theorem afterStatement_left (read : Statement) :
    (s.afterStatement rest read).left = rest := by
  cases read <;> rfl

@[simp] theorem afterEntry_left (read : Entry) : (s.afterEntry rest read).left = rest := by
  cases read <;> rfl

/-- There is a round as long as a block is open or a token is left. It takes a token, or is
refused at one that it has been given. -/
theorem next_cases (s : Stage) :
    (s.next = .ok none ∧ s.opened = [] ∧ s.left = []) ∨
      (∃ s', s.next = .ok (some s') ∧ s'.left <:+ s.left ∧ s'.left.length < s.left.length) ∨
      ∃ r, s.next = .error r ∧ Refusal.Within r s.left := by
  obtain ⟨hasPackage, opened, ts⟩ := s
  cases opened with
  | nil =>
    cases ts with
    | nil => exact .inl ⟨rfl, rfl, rfl⟩
    | cons t more =>
      cases ran : statementAt hasPackage t (t :: more) with
      | error e => exact .inr (.inr ⟨e, map_eq_error.mpr ran, Blames.within ran⟩)
      | ok got =>
        refine .inr (.inl ⟨_, next_statement ran, ?_, ?_⟩) <;> rw [afterStatement_left]
        · exact Shrinks.suffix ran
        · exact Takes.shorter ran
  | cons b outer =>
    cases ran : entry b.region ts with
    | error e => exact .inr (.inr ⟨e, next_refused ran, Blames.within ran⟩)
    | ok got =>
      obtain ⟨read, rest⟩ := got
      by_cases close : read = .close
      · subst close
        cases taken : symbol .rbrace rest with
        | error e =>
          have within := (Blames.within taken).mono (Shrinks.suffix ran).subset
          exact .inr (.inr ⟨e, next_unclosed b ran taken, within⟩)
        | ok got =>
          exact .inr (.inl ⟨_, next_closing b ran taken,
            (Shrinks.suffix taken).trans (Shrinks.suffix ran),
            Nat.lt_of_lt_of_le (Takes.shorter taken) (Shrinks.length_le ran)⟩)
      · refine .inr (.inl ⟨_, next_entry ran close, ?_, ?_⟩) <;> rw [afterEntry_left]
        · exact Shrinks.suffix ran
        · exact length_entry_lt ran close

/-- A round takes at least one token. -/
theorem left_of_next (h : s.next = .ok (some s')) : ∃ taken ≠ [], taken ++ s'.left = s.left := by
  rcases next_cases s with ⟨done, -⟩ | ⟨_, one, ⟨taken, whole⟩, lt⟩ | ⟨_, refused, -⟩
  · cases h.symm.trans done
  · cases h.symm.trans one
    refine ⟨taken, ?_, whole⟩
    rintro rfl
    exact absurd (congrArg List.length whole) (Nat.ne_of_lt lt)
  · cases h.symm.trans refused

/-- After the last round no block is open, and no token is left. -/
theorem done_of_next (h : s.next = .ok none) : s.opened = [] ∧ s.left = [] := by
  rcases next_cases s with ⟨-, done⟩ | ⟨_, one, -⟩ | ⟨_, refused, -⟩
  · exact done
  · cases h.symm.trans one
  · cases h.symm.trans refused

/-- A round is refused at a token that is left for it, or at the end. -/
theorem within_of_next (h : s.next = .error r) : Refusal.Within r s.left := by
  rcases next_cases s with ⟨done, -⟩ | ⟨_, one, -⟩ | ⟨_, refused, within⟩
  · cases h.symm.trans done
  · cases h.symm.trans one
  · cases h.symm.trans refused
    exact within

/-! ### Runs -/

/-- A run takes at least as many tokens as it has rounds. -/
theorem Runs.left (h : Runs s n s') : ∃ taken, n ≤ taken.length ∧ taken ++ s'.left = s.left := by
  induction h with
  | none => exact ⟨[], Nat.le_refl 0, rfl⟩
  | round _ one ih =>
    obtain ⟨taken, enough, whole⟩ := ih
    obtain ⟨more, nonempty, whole'⟩ := left_of_next one
    refine ⟨taken ++ more, ?_, by rw [List.append_assoc, whole', whole]⟩
    have := List.length_pos_iff.mpr nonempty
    rw [List.length_append]
    omega

/-- What is left of a run is what stands behind some place of what was given. -/
theorem Runs.cursor (h : Runs s n s') :
    ∃ cursor, n ≤ cursor ∧ cursor ≤ s.left.length ∧ s'.left = s.left.drop cursor := by
  obtain ⟨taken, enough, whole⟩ := h.left
  refine ⟨taken.length, enough, ?_, ?_⟩
  · rw [← whole, List.length_append]
    omega
  · rw [← whole, List.drop_left]

/-! ### The way of a run -/

/-- A run of several rounds begins with one. -/
theorem RunsWithin.first (h : RunsWithin frames s (n + 1) last) :
    ∃ mid, s.next = .ok (some mid) ∧ RunsWithin frames mid n last := by
  induction n generalizing last with
  | zero =>
    obtain _ | ⟨start, one, room⟩ := h
    cases start
    exact ⟨last, one, .none room⟩
  | succ n ih =>
    obtain _ | ⟨start, one, room⟩ := h
    obtain ⟨mid, first, others⟩ := ih start
    exact ⟨mid, first, others.round one room⟩

/-- Each stage that is reached is on the way to the one at which the rounds stop. -/
theorem RunsWithin.passes {k : Nat} (h : RunsWithin frames s n last)
    (stops : ∀ s', last.next ≠ .ok (some s')) (reached : Runs s k s') :
    ∃ j, RunsWithin frames s' j last := by
  induction reached with
  | none => exact ⟨n, h⟩
  | round _ one ih =>
    obtain ⟨j, others⟩ := ih
    cases j with
    | zero =>
      cases others
      exact absurd one (stops _)
    | succ j =>
      obtain ⟨mid, first, others⟩ := others.first
      cases first.symm.trans one
      exact ⟨j, others⟩

/-! ### Bodies and files -/

/-- A block that is opened, read to its end and closed is passed through. -/
theorem runs_through (b : Block) {k : Nat} {opened : List Block} {mid ending inside : List Token}
    (opens : s.next = .ok (some ⟨hasPackage, b :: opened, mid⟩)) (around : s.opened = opened)
    (run : RunsWithin frames ⟨hasPackage, b :: opened, mid⟩ k ⟨hasPackage, b :: opened, ending⟩)
    (close : entry b.region ending = .ok (.close, inside))
    (closing : symbol .rbrace inside = .ok (t, rest)) :
    RunsWithin frames s (1 + (k + 1)) ⟨hasPackage, opened, rest⟩ := by
  subst around
  have deeper := run.first_le
  have here : depthOf s.opened ≤ frames := by
    rw [depth, depthOf_cons] at deeper
    omega
  exact (RunsWithin.single opens here deeper).trans (run.round (next_closing b close closing) here)

variable (hasPackage) in
/-- The rounds of a body read it up to the round that ends it, whatever blocks are open
around it, and are never deeper than the body needs. -/
theorem runs_of_bodyRead {needed : Nat} {nodes : List Node} {passed : List (List Token)}
    (h : BodyRead needed b.region ts nodes passed rest)
    (room : depthOf (b :: outer) + needed ≤ frames) :
    ∃ n ending,
      RunsWithin frames ⟨hasPackage, b :: outer, ts⟩ n ⟨hasPackage, b :: outer, ending⟩ ∧
      entry b.region ending = .ok (.close, rest) := by
  generalize at_ : b.region = region at h
  induction h generalizing b outer with
  | @close r ts rest read => exact ⟨0, ts, .none room, at_ ▸ read⟩
  | skip read _ _ ih | leaf read _ ih =>
    subst at_
    obtain ⟨n, ending, run, close⟩ := ih room rfl
    have here : depthOf (b :: outer) ≤ frames := by omega
    exact ⟨_, ending, (RunsWithin.single (next_entry read (by simp)) here here).trans run, close⟩
  | @block within needed r ts mid inside after rest header t inner nodes passed passed' read _
      closing _ ihInner ih =>
    subst at_
    have deeper : depthOf (.declaration header :: b :: outer) + within ≤ frames := by
      rw [depthOf_cons, Block.frames]
      omega
    obtain ⟨k, endingInner, runInner, closeInner⟩ := ihInner deeper rfl
    have through := runs_through _ (next_entry read (by simp)) rfl runInner closeInner closing
    obtain ⟨n, ending, run, close⟩ := @ih outer b (by omega) rfl
    exact ⟨_, ending, through.trans run, close⟩
  | @oneof within needed r ts mid inside after rest name t inner nodes passed passed' read _
      closing _ ihInner ih =>
    subst at_
    have deeper : depthOf (.oneof name :: b :: outer) + within ≤ frames := by
      rw [depthOf_cons, Block.frames]
      omega
    obtain ⟨k, endingInner, runInner, closeInner⟩ := ihInner deeper rfl
    have through := runs_through _ (next_entry read (by simp)) rfl runInner closeInner closing
    obtain ⟨n, ending, run, close⟩ := @ih outer b (by omega) rfl
    exact ⟨_, ending, through.trans run, close⟩

/-- There is no round from a stage with room for `frames` calls, and this is why: the file is
read, the round is refused, or it leads to a stage for which there is no room. -/
def StopsAs (frames : Nat) (s : Stage) : Except (ReadFailure Refusal) Unit → Prop
  | .ok () => s.next = .ok none
  | .error (.refused r) => s.next = .error r
  | .error .tooDeep => ∃ s', s.next = .ok (some s') ∧ frames < s'.depth

/-- The run from a stage with room for `frames` calls leads to one from which there is no further
round. -/
def Stops (frames : Nat) (s : Stage) (outcome : Except (ReadFailure Refusal) Unit) : Prop :=
  ∃ n last, RunsWithin frames s n last ∧ last.StopsAs frames outcome

theorem RunsWithin.stops {outcome : Except (ReadFailure Refusal) Unit}
    (h : RunsWithin frames s n s') : Stops frames s' outcome → Stops frames s outcome
  | ⟨_, last, run, final⟩ => ⟨_, last, h.trans run, final⟩

variable (hasPackage) in
/-- The rounds of a block lead to what stands behind it. -/
theorem runs_of_block {needed : Nat} {nodes : List Node} {passed : List (List Token)}
    {inside : List Token} (b : Block) (read : BodyRead needed b.region ts nodes passed inside)
    (room : depthOf (b :: outer) + needed ≤ frames)
    (closing : symbol .rbrace inside = .ok (t, rest)) :
    ∃ n, RunsWithin frames ⟨hasPackage, b :: outer, ts⟩ n ⟨hasPackage, outer, rest⟩ := by
  obtain ⟨n, ending, run, close⟩ := runs_of_bodyRead hasPackage read room
  have here : depthOf outer ≤ frames := by
    rw [depthOf_cons] at room
    omega
  exact ⟨n + 1, .round run (next_closing b close closing) here⟩

section Enter

variable {room : Nat} {opened : List Block} {mid : List Token} (b : Block)
  (opens : s.next = .ok (some ⟨hasPackage, b :: opened, mid⟩)) (around : s.opened = opened)
  (fits : depthOf opened + room = frames)

include opens around fits

/-- A block for which there is no room is too deep. -/
theorem stops_of_crowded (crowded : room < b.frames) : Stops frames s (.error .tooDeep) := by
  subst around
  have here : s.depth ≤ frames := Nat.le_of_add_right_le (Nat.le_of_eq fits)
  refine ⟨0, s, .none here, _, opens, ?_⟩
  rw [depth, depthOf_cons]
  omega

variable (enough : ¬ room < b.frames)

include enough

omit opens around in
/-- Inside a block there is the room that its frames leave. -/
theorem depthOf_into : depthOf (b :: opened) + (room - b.frames) = frames := by
  rw [depthOf_cons]
  omega

/-- A block for which there is room can be opened. -/
theorem runs_into : RunsWithin frames s 1 ⟨hasPackage, b :: opened, mid⟩ := by
  subst around
  refine .single opens (Nat.le_of_add_right_le (Nat.le_of_eq fits)) ?_
  exact Nat.le_of_add_right_le (Nat.le_of_eq (depthOf_into b fits enough))

variable {body : Body mid} (read : bodyOf (room - b.frames) b.region mid = .ok body)

include read

omit opens around in
/-- A block that has been read did not go too deep. -/
theorem exists_bodyRead : ∃ needed passed, depthOf (b :: opened) + needed ≤ frames ∧
    BodyRead needed b.region mid body.nodes passed body.rest := by
  obtain ⟨needed, few, passed, entries⟩ := bodyRead_of_ok read
  have inner := depthOf_into b fits enough
  exact ⟨needed, passed, by omega, entries⟩

/-- Without its closing brace it is refused in the round that ends its body. -/
theorem stops_of_unclosed (missing : symbol .rbrace body.rest = .error r) :
    Stops frames s (.error (.refused r)) := by
  obtain ⟨needed, passed, within, entries⟩ := exists_bodyRead b fits enough read
  obtain ⟨n, ending, run, close⟩ := runs_of_bodyRead hasPackage entries within
  have inside := (runs_into b opens around fits enough).trans run
  exact ⟨_, _, inside, next_unclosed b close missing⟩

/-- Behind its closing brace the rounds go on. -/
theorem runs_past (closing : symbol .rbrace body.rest = .ok (t, rest)) :
    ∃ n, RunsWithin frames s n ⟨hasPackage, opened, rest⟩ := by
  obtain ⟨needed, passed, within, entries⟩ := exists_bodyRead b fits enough read
  obtain ⟨n, through⟩ := runs_of_block hasPackage b entries within closing
  exact ⟨_, (runs_into b opens around fits enough).trans through⟩

end Enter

/-- Where a body is not read, one of its rounds is refused or goes too deep. -/
theorem stops_of_bodyOf {failure : ReadFailure Refusal} {room : Nat} (b : Block)
    (h : bodyOf room b.region ts = .error failure) (fits : depthOf (b :: outer) + room = frames) :
    Stops frames ⟨hasPackage, b :: outer, ts⟩ (.error failure) := by
  generalize at_ : b.region = region at h
  fun_induction bodyOf room region ts generalizing b outer with
  | case1 room region ts e refused =>
    cases h
    exact ⟨0, _, .none (Nat.le_of_add_right_le (Nat.le_of_eq fits)), next_refused (at_ ▸ refused)⟩
  | case2 => cases h
  | case3 room region ts rest read lt ih | case4 room region ts l rest read lt ih =>
    subst at_
    have here : depthOf (b :: outer) ≤ frames := by omega
    exact (RunsWithin.single (next_entry read (by simp)) here here).stops
      (ih b fits rfl (map_eq_error.mp h))
  | case5 room region ts header rest read lt crowded
  | case9 room region ts name rest read lt crowded =>
    subst at_
    cases h
    exact stops_of_crowded _ (next_entry read (by simp)) rfl fits crowded
  | case6 room region ts header rest read lt enough e refused ih
  | case10 room region ts name rest read lt enough e refused ih =>
    subst at_
    cases h
    exact (runs_into _ (next_entry read (by simp)) rfl fits enough).stops
      (ih _ (depthOf_into _ fits enough) rfl refused)
  | case7 room region ts header rest read lt enough body inside le e missing ih
  | case11 room region ts name rest read lt enough body inside le e missing ih =>
    subst at_
    cases h
    exact stops_of_unclosed _ (next_entry read (by simp)) rfl fits enough inside missing
  | case8 room region ts header rest read lt enough body inside le t after closing shorter ihInner
      ih
  | case12 room region ts name rest read lt enough body inside le t after closing shorter ihInner
      ih =>
    subst at_
    obtain ⟨n, past⟩ := runs_past _ (next_entry read (by simp)) rfl fits enough inside closing
    exact past.stops (ih b fits rfl (map_eq_error.mp h))

/-- The rounds of a file stop as reading it does. -/
theorem stops_of_contents (frames : Nat) (hasPackage : Bool) (ts : List Token) :
    Stops frames ⟨hasPackage, [], ts⟩ ((contents frames hasPackage ts).map fun _ => ()) := by
  have top (hasPackage : Bool) (ts : List Token) :
      depth ⟨hasPackage, [], ts⟩ ≤ frames := Nat.zero_le frames
  have fits : depthOf [] + frames = frames := Nat.zero_add frames
  fun_induction contents frames hasPackage ts with
  | case1 hasPackage => exact ⟨0, _, .none (top _ _), rfl⟩
  | case2 hasPackage t more e refused =>
    exact ⟨0, _, .none (top _ _), map_eq_error.mpr refused⟩
  | case3 hasPackage t more rest read lt ih =>
    exact (RunsWithin.single (next_statement read) (top _ _) (top _ _)).stops ih
  | case4 hasPackage t more name rest read lt ih | case5 hasPackage t more l rest read lt ih =>
    rw [map_map_const]
    exact (RunsWithin.single (next_statement read) (top _ _) (top _ _)).stops ih
  | case6 hasPackage t more header rest read lt crowded =>
    exact stops_of_crowded (.declaration header) (next_statement read) rfl fits crowded
  | case7 hasPackage t more header rest read lt enough failure refused =>
    have inner := depthOf_into (.declaration header) fits enough
    exact (runs_into _ (next_statement read) rfl fits enough).stops
      (stops_of_bodyOf (.declaration header) refused inner)
  | case8 hasPackage t more header rest read lt enough body inside le e missing =>
    exact stops_of_unclosed (.declaration header) (next_statement read) rfl fits enough inside
      missing
  | case9 hasPackage t more header rest read lt enough body inside le s after closing shorter ih =>
    rw [map_map_const]
    obtain ⟨n, past⟩ := runs_past (.declaration header) (next_statement read) rfl fits enough
      inside closing
    exact past.stops ih

end Stage

end Grammar

/-- Every text is read in at most as many rounds as it has tokens. Whatever blocks are open, what
is left is what stands behind some place in the list of its tokens, and each round takes a
token of that at least. In the end the text is a document and all of its tokens have been
taken, or the last round is refused and so is the text: at a token that was left for this
round, whose place is given, or else at the end of the text. Only where so many blocks are open
at once that the frames do not suffice is the text neither. -/
theorem Document.parse_ends (frames : Nat) (uri text : String) :
    ∃ n last, Grammar.Stage.RunsWithin frames (.start text) n last ∧
      n ≤ (tokenize text).tokens.length ∧
      (∀ k s, Grammar.Stage.Runs (.start text) k s →
        (∃ cursor ≤ (tokenize text).tokens.length, s.left = (tokenize text).tokens.drop cursor) ∧
        ∀ s', s.next = .ok (some s') → ∃ taken ≠ [], taken ++ s'.left = s.left) ∧
      ((∃ d, Document.parse frames uri text = .ok d ∧ last.next = .ok none ∧
          last.opened = [] ∧ last.left = []) ∨
        (∃ e, Document.parse frames uri text = .error (.refused e) ∧
          last.next = .error e.refusal ∧
          ((∃ t ∈ last.left, e.refusal.found = some t ∧ e.position = t.position) ∨
            e.refusal.found = none ∧ e.position = (tokenize text).finish)) ∨
        Document.parse frames uri text = .error .tooDeep) ∧
      (Document.parse frames uri text = .error .tooDeep ↔
        ∃ k s, Grammar.Stage.Runs (.start text) k s ∧ frames < s.depth) := by
  obtain ⟨n, last, run, final⟩ :=
    Grammar.Stage.stops_of_contents frames false (tokenize text).tokens
  have cursor {k s} (h : Grammar.Stage.Runs (.start text) k s) := h.cursor
  obtain ⟨place, enough, inside, -⟩ := cursor run.runs
  have enough : n ≤ (tokenize text).tokens.length := Nat.le_trans enough inside
  -- Once no round is left, no stage on the way was too deep.
  have shallow (stops : ∀ s', last.next ≠ .ok (some s')) :
      ¬ ∃ k s, Grammar.Stage.Runs (.start text) k s ∧ frames < s.depth := by
    rintro ⟨k, s, reached, deep⟩
    obtain ⟨j, others⟩ := run.passes stops reached
    exact Nat.not_lt.mpr others.first_le deep
  refine ⟨n, last, run, enough, fun k s reached => ⟨?_, fun s' one => ?_⟩, ?_⟩
  · obtain ⟨place, -, inside, left⟩ := cursor reached
    exact ⟨place, inside, left⟩
  · exact Grammar.Stage.left_of_next one
  · unfold Document.parse Document.ofTokens
    cases read : Grammar.contents frames false (tokenize text).tokens with
    | ok c =>
      rw [read] at final
      have final : last.next = .ok none := final
      have none := shallow (by simp [final])
      exact ⟨.inl ⟨_, rfl, final, Grammar.Stage.done_of_next final⟩, by simp [none]⟩
    | error failure =>
      rw [read] at final
      cases failure with
      | refused r =>
        have final : last.next = .error r := final
        have none := shallow (by simp [final])
        refine ⟨.inr (.inl ⟨_, rfl, final, ?_⟩), by simp [none]⟩
        have within := Grammar.Stage.within_of_next final
        obtain ⟨found, fault⟩ := r
        cases found with
        | none => exact .inr ⟨rfl, rfl⟩
        | some t => exact .inl ⟨t, within t rfl, rfl, rfl⟩
      | tooDeep =>
        obtain ⟨s', one, deep⟩ := final
        exact ⟨.inr (.inr rfl), fun _ => ⟨_, s', .round run.runs one, deep⟩, fun _ => rfl⟩

/-! ### Nested messages -/

/-- The text of messages in each other, see `deepMessages`. -/
def deepText : Nat → String
  | 0 => ""
  | depth + 1 => "message M \x7b " ++ deepText depth ++ "\x7d "

theorem written_deep (depth : Nat) {ls : List Lexeme} {rest : List Char}
    (others : Written ls rest) :
    Written (printedNodes (deepMessages depth) ++ ls) ((deepText depth).toList ++ rest) := by
  induction depth generalizing ls rest with
  | zero => exact others
  | succ depth ih =>
    have blank : Gap [' '] := .blank rfl
    have keyword : Spelling (.keyword .message) ['m', 'e', 's', 's', 'a', 'g', 'e'] :=
      @Spelling.word 'm' ['e', 's', 's', 'a', 'g', 'e'] (by decide)
        (List.all_eq_true.mp (by decide))
    have name : Spelling (.word "M") ['M'] := @Spelling.word 'M' [] (by decide) (by simp)
    have written := ih (.next (.symbol .rbrace) blank others)
    simpa [deepMessages, printedNodes, Node.printed, Header.printed, deepText, Symbol.char]
      using Written.next keyword blank
        (.next name blank (.next (.symbol .lbrace) blank written))

/-- Messages in each other are read where there are two frames for each of them, and nowhere
else. -/
theorem Document.parse_deep (frames : Nat) (uri : String) (depth : Nat) :
    Document.parse frames uri (deepText depth) =
      Grammar.ifRoom frames (2 * depth) (deepDocument uri depth) := by
  have written : Written (deepDocument uri depth).printed (deepText depth).toList := by
    simpa [deepDocument, Document.printed, printedDialect] using written_deep depth .nothing
  obtain ⟨passed, read⟩ :=
    fileRead_printed (deepDocument_wellFormed uri depth) (scan_written written)
  rw [← deepMessages_frames depth]
  exact ofTokens_of_fileRead read _ frames

/-- So there are texts that are neither read nor refused: the calls that wait for the bodies of
these messages are more than a stack of a thousand can hold. -/
theorem nested_messages_too_deep :
    (∀ d, Document.parse 1000 "" (deepText 501) ≠ .ok d) ∧
    ∀ e, Document.parse 1000 "" (deepText 501) ≠ .error (.refused e) := by
  have deep : Document.parse 1000 "" (deepText 501) = .error .tooDeep :=
    (Document.parse_deep 1000 "" 501).trans (if_neg (by decide))
  simp [deep]

end ProtoNames
