import ProtoNames.CommandLine.Run
import ProtoNames.Proofs.Cancellation
import ProtoNames.Proofs.EnumValues
import ProtoNames.Proofs.Reports

/-!
Runs of the command.

* `Work.run_bind`, `Work.run_query`: what steps of the command do, so that a run can be taken
  apart without looking inside the monad.
* `Invocation.Builds`: the scope in which a run looks names up. It is built as any other scope
  is (`Builds.isBuilt`).
* `run_all`: what is left to do once there is a scope.
* `report_agrees`: report, look-up and exit status agree.
-/

namespace ProtoNames

theorem Element.within_of_named? {d : Source} {e : Element} {name : String}
    (found : named? d name = some e) : (ofSource d).Within e := by
  unfold named? at found
  split at found
  · cases found
    exact .itself
  · exact mem_contents.mp (List.mem_of_find?_eq_some found)

namespace CommandLine

open Compiler

variable {α β : Type} {s : Setup} {p p' : Progress} {given : List Source} {i : Invocation}
  {host : Host} {sc : Scope} {source : Source} {e place : Element}

/-! ### Steps -/

namespace Work

/-- Runs steps of the command. -/
def run (w : Work α) (s : Setup) (p : Progress) : Except Failure α × Progress :=
  (ReaderT.run w s).run p

@[simp] theorem run_pure (a : α) : (pure a : Work α).run s p = (.ok a, p) := rfl

/-- The command goes on with the result of its first part, or stops at its failure. -/
theorem run_bind (w : Work α) (f : α → Work β) :
    (w >>= f : Work β).run s p =
      match w.run s p with
      | (.ok a, mid) => (f a).run s mid
      | (.error e, mid) => (.error e, mid) := by
  show (match w.run s p with
    | (result, mid) => ExceptT.bindCont (fun a => f a s) result mid) = _
  cases w.run s p with
  | mk result mid => cases result <;> rfl

theorem run_bind_eq_ok {w : Work α} {f : α → Work β} {b : β}
    (h : (w >>= f : Work β).run s p = (.ok b, p')) :
    ∃ a mid, w.run s p = (.ok a, mid) ∧ (f a).run s mid = (.ok b, p') := by
  rw [run_bind] at h
  cases ran : w.run s p with
  | mk result mid =>
    rw [ran] at h
    cases result with
    | error e => exact absurd (congrArg Prod.fst h) (by simp)
    | ok a => exact ⟨a, mid, rfl, h⟩

theorem run_query (q : Query α) :
    (query q).run s p =
      match q.run s p with
      | (.ok a, mid) => (.ok a, mid)
      | (.error e, mid) => (.error (.ofQuery e), mid) := rfl

theorem run_query_eq_ok {q : Query α} {a : α} (h : (query q).run s p = (.ok a, p')) :
    q.run s p = (.ok a, p') := by
  rw [run_query] at h
  cases ran : q.run s p with
  | mk result mid =>
    rw [ran] at h
    cases result with
    | error e => exact absurd (congrArg Prod.fst h) (by simp)
    | ok b =>
      cases h
      rfl

/-- The part of the work that comes before the compiler: the scope at the site. -/
def siteScope (i : Invocation) : Work Scope := do
  let e ← site i (← document i)
  scope i e

/-! ### The scope of a run -/

theorem document_eq_ok (history : p.sources.History given)
    (ran : (document i).run s p = (.ok source, p')) :
    ∃ given', p'.sources.History given' ∧ source ∈ given' := by
  unfold document at ran
  split at ran
  · obtain ⟨_, _, failed, -⟩ := run_bind_eq_ok ran
    cases failed
  · obtain ⟨found, mid, opened, ran⟩ := run_bind_eq_ok ran
    cases found with
    | none => cases ran
    | some d =>
      cases ran
      have opened := run_query_eq_ok opened
      obtain ⟨given', -, history'⟩ := history.of_run (Query.settles_document _) opened
      obtain ⟨u, kept⟩ := Query.stored_of_document opened
      exact ⟨given', history', history'.accounted.kept kept⟩

theorem site_eq_ok (ran : (site i source).run s p = (.ok e, p')) :
    p' = p ∧ (Element.ofSource source).Within e := by
  unfold site at ran
  split at ran
  · next named =>
    cases ran
    exact ⟨rfl, Element.within_of_named? named⟩
  · cases ran

theorem enumCriteria_eq_ok {c : Criteria} (history : p.sources.History given)
    (ran : (enumCriteria i place).run s p = (.ok c, p')) :
    ∃ given', given ⊆ given' ∧ p'.sources.History given' := by
  unfold enumCriteria at ran
  split at ran
  · cases ran
    exact ⟨given, List.Subset.refl _, history⟩
  · obtain ⟨found, mid, resolved, ran⟩ := run_bind_eq_ok ran
    have more := history.of_run (Query.settles_resolveType history.accounted)
      (run_query_eq_ok resolved)
    cases found with
    | none => cases ran
    | some found =>
      dsimp only at ran
      split at ran
      · cases ran
        exact more
      · cases ran

theorem criteria_eq_ok {c : Criteria} (history : p.sources.History given)
    (ran : (criteria i e place).run s p = (.ok c, p')) :
    ∃ given', given ⊆ given' ∧ p'.sources.History given' := by
  unfold criteria at ran
  split at ran
  · cases ran
    exact ⟨given, List.Subset.refl _, history⟩
  · cases ran
    exact ⟨given, List.Subset.refl _, history⟩
  · refine history.of_run ?_ (run_query_eq_ok ran)
    exact (Query.settles_ofCriteria _).bind fun _ _ _ => Query.settles_pure _
  · exact enumCriteria_eq_ok history ran

theorem scope_eq_ok (history : p.sources.History given)
    (available : e.source.IsAvailable s.modules given) (attached : e.Attached)
    (ran : (scope i e).run s p = (.ok sc, p')) : sc.IsBuilt s.modules := by
  unfold scope at ran
  obtain ⟨wanted, p₁, chosen, ran⟩ := run_bind_eq_ok ran
  obtain ⟨sc, p₂, found, ran⟩ := run_bind_eq_ok ran
  obtain ⟨_, p₃, -, ran⟩ := run_bind_eq_ok ran
  cases ran
  obtain ⟨given', more, history'⟩ := criteria_eq_ok history chosen
  obtain ⟨found, mid, ran, built⟩ := Query.run_bind_eq_ok (run_query_eq_ok found)
  cases built
  have place : e.referenceSite.Attached ∧ e.referenceSite.source = e.source := by
    unfold Element.referenceSite
    split
    · exact ⟨attached.inside, rfl⟩
    · exact ⟨attached, rfl⟩
  refine .intro rfl history' ?_ place.1 ran (.refl _)
  rw [place.2]
  exact available.imp_left fun member => more member

end Work

/-! ### Runs -/

namespace Invocation

/-- What queries of a run work with. -/
def setup (i : Invocation) (host : Host) : Setup :=
  ⟨i.config, host.around, host.files, host.modules⟩

/-- The scope in which a run looks names up. -/
def Builds (i : Invocation) (host : Host) (sc : Scope) : Prop :=
  ∃ p, (Work.siteScope i).run (i.setup host) .initial = (.ok sc, p)

theorem Builds.isBuilt (builds : i.Builds host sc) : sc.IsBuilt host.modules := by
  obtain ⟨p, ran⟩ := builds
  obtain ⟨source, p₁, opened, onwards⟩ := Work.run_bind_eq_ok ran
  obtain ⟨e, p₂, found, last⟩ := Work.run_bind_eq_ok onwards
  obtain ⟨given, history, member⟩ := Work.document_eq_ok .start opened
  obtain ⟨rfl, within_⟩ := Work.site_eq_ok found
  have available : e.source.IsAvailable host.modules given := by
    rw [within_.source_eq]
    exact .inl member
  exact Work.scope_eq_ok history available within_.attached last

/-- An invocation without the name to look up. -/
def withoutName (i : Invocation) : Invocation := { i with name := none }

/-- What the report of a run is about. -/
def header (i : Invocation) (name? : Option String) : ReportHeader :=
  ⟨i.path, i.siteName, i.kindText, name?⟩

end Invocation

/-- What is left to do once there is a scope. -/
theorem Work.run_all (name? : Option String) (named : i.name = name?.map Given.text)
    (ran : (Work.siteScope i).run s p = (.ok sc, p')) :
    (Work.all i host).run s p =
      match (Work.compilation i host).run s p' with
      | (.ok c, last) => (.ok (exitStatus name? sc c, report (i.header name?) sc c), last)
      | (.error e, last) => (.error e, last) := by
  have split : Work.all i host = (do
      let sc ← siteScope i
      let c ← compilation i host
      let name? ← Work.name? i
      return (exitStatus name? sc c, report (i.header name?) sc c)) := by
    simp only [Work.all, siteScope, bind_assoc]
    rfl
  have given : ∀ q : Progress, (Work.name? i).run s q = (.ok name?, q) := by
    intro q
    cases name? <;> simp [Work.name?, named]
  rw [split, run_bind, ran]
  dsimp only
  rw [run_bind]
  rcases (compilation i host).run s p' with ⟨_ | c, last⟩
  · rfl
  · dsimp only
    rw [run_bind, given]
    rfl

namespace Invocation

/-- What a run leaves behind, if the level of its log is given. -/
theorem outcome_eq {level : String} (known : i.logLevel.text? = some level) :
    i.outcome host =
      let (result, p) := (Work.all i host).run (i.setup host) .initial
      let log := (LogStyle.mk (.ofName level) i.jsonLogs).log host.time p.journal
      match result with
      | .error (.crash c) => .error c
      | .error e => .ok ⟨1, "", log ++ e.message⟩
      | .ok (status, report) => .ok ⟨status, report, log⟩ := by
  simp only [outcome, known]
  rfl

/-- With a name and without, a run builds the same scope and hears the same from the compiler.
Either both end there, or both report on it. -/
theorem outcome_withoutName {name : String} {o : Outcome} (builds : i.Builds host sc)
    (named : i.name = some (.text name)) (ran : i.outcome host = .ok o) :
    ∃ o', i.withoutName.outcome host = .ok o' ∧
      (o.status = 1 ∧ o'.status = 1 ∧ o.output = "" ∧ o'.output = "" ∨
        ∃ c, o.status = exitStatus (some name) sc c ∧ o'.status = exitStatus none sc c ∧
          o.output = report (i.header (some name)) sc c ∧
          o'.output = report (i.header none) sc c) := by
  cases known : i.logLevel.text? with
  | none =>
    simp only [outcome, known] at ran
    cases ran
  | some level =>
    obtain ⟨p, made⟩ := builds
    have made' : (Work.siteScope i.withoutName).run (i.withoutName.setup host) .initial =
        (.ok sc, p) := made
    rw [outcome_eq known, Work.run_all (some name) named made] at ran
    rw [outcome_eq (i := i.withoutName) known, Work.run_all none rfl made']
    have same : (Work.compilation i.withoutName host).run (i.withoutName.setup host) p =
        (Work.compilation i host).run (i.setup host) p := rfl
    rw [same]
    cases compiled : (Work.compilation i host).run (i.setup host) p with
    | mk result last =>
      rw [compiled] at ran
      cases result with
      | error e => cases e <;> cases ran <;> exact ⟨_, rfl, .inl ⟨rfl, rfl, rfl, rfl⟩⟩
      | ok c =>
        cases ran
        exact ⟨_, rfl, .inr ⟨c, rfl, rfl, rfl, rfl⟩⟩

end Invocation

/-! ### Agreement -/

theorem exitStatus_some_iff {name : String} {c : Option Compilation} :
    exitStatus (some name) sc c = 0 ↔ exitStatus none sc c = 0 ∧ sc.lookup name ≠ [] := by
  simp [exitStatus, Scope.contains, and_comm]

/-- The report on a scope, what is looked up in it and the exit status go together. A report
on a name has one row for each declaration that the name means, under the name without its dot,
with the declaration's file, kind and full name. These rows are printed, behind the words that
the name resolves if there are any. A report without a name has such a row for each match, in
the order of names and under one name in that of files. A run looks names up in such a scope,
and it fails if it would fail without the name as well, or if the name means nothing. -/
theorem report_agrees {modules : Builtin.Modules} (segmented : modules.NamesAreSegments) :
    (∀ scope : Scope, scope.IsBuilt modules →
      (∀ name, (scope.lookup name).Nodup ∧
        (∃ shown : List Element, shown.Perm (scope.lookup name) ∧
          List.Forall₂ (fun e row => row.Shows (withoutDot name) e) shown
            (scope.rows (some name)) ∧
          ∀ (h : ReportHeader) (c : Option Compilation), h.name? = some name →
            Report.Lists h c (report h scope c)
              (if (scope.lookup name).isEmpty then
                name ++ " does not resolve to any " ++ h.kind ++ ".\n"
              else name ++ " resolves to:\n")
              (shown.map fun e => ⟨withoutDot name, e⟩)) ∧
        (∀ (h : ReportHeader) (c : Option Compilation), h.name? = some name →
          (Report.Says h (report h scope c) (name ++ " resolves to:\n") ↔
            scope.lookup name ≠ [])) ∧
        ∀ c : Option Compilation, exitStatus (some name) scope c = 0 ↔
          exitStatus none scope c = 0 ∧ scope.lookup name ≠ []) ∧
      scope.entries.Nodup ∧
      ∃ shown : List Match, shown.Perm scope.entries ∧ shown.Pairwise Match.Precedes ∧
        List.Forall₂ (fun m row => row.Shows m.name m.element) shown (scope.rows none) ∧
        ∀ (h : ReportHeader) (c : Option Compilation), h.name? = none →
          Report.Lists h c (report h scope c) "" shown) ∧
    ∀ (i : Invocation) (host : Host) (scope : Scope), host.modules = modules →
      i.Builds host scope → scope.IsBuilt modules ∧
      ∀ name o, i.name = some (.text name) → i.outcome host = .ok o →
        ∃ o', i.withoutName.outcome host = .ok o' ∧
          (o.status = 0 ↔ o'.status = 0 ∧ scope.lookup name ≠ []) ∧
          (o.output = "" ∧ o'.output = "" ∧ o'.status = 1 ∨
            ∃ c, o.output = report (i.header (some name)) scope c ∧
              o'.output = report (i.header none) scope c) := by
  refine ⟨fun scope built => ?_, fun i host scope carried builds => ?_⟩
  · have clean := built.isClean segmented
    refine ⟨fun name => ?_, clean.nodup, ?_⟩
    · obtain ⟨shown, perm, rows⟩ := clean.exists_shown name
      have listed : (scope.rows (some name)).isEmpty = (scope.lookup name).isEmpty := by
        rw [Bool.eq_iff_iff, List.isEmpty_iff_length_eq_zero, List.isEmpty_iff_length_eq_zero,
          ← rows.length_eq, perm.length_eq]
      refine ⟨nodup_distinct Element.isSame_refl, ⟨shown, perm, rows, fun h c asked => ?_⟩,
        fun h c asked => ?_, fun c => exitStatus_some_iff⟩
      · rw [← listed, ← asked, ← Report.verdict_of_asked asked]
        refine Report.lists_of_shows ?_
        rw [asked, List.forall₂_map_left_iff]
        exact rows
      · rw [Report.says_resolves_iff asked, Ne, ← List.isEmpty_iff, listed, List.isEmpty_iff]
    · obtain ⟨shown, perm, ordered, rows⟩ := scope.exists_ordered none
      refine ⟨shown, perm, ordered, rows, fun h c unasked => ?_⟩
      have text := Report.lists_of_shows (h := h) (c := c) (unasked ▸ rows)
      simpa only [Report.verdict, unasked] using text
  · refine ⟨carried ▸ builds.isBuilt, fun name o named ran => ?_⟩
    obtain ⟨o', ran', both⟩ := Invocation.outcome_withoutName builds named ran
    refine ⟨o', ran', ?_⟩
    rcases both with ⟨failed, failed', silent, silent'⟩ | ⟨c, status, status', text, text'⟩
    · exact ⟨by simp [failed, failed'], .inl ⟨silent, silent', failed'⟩⟩
    · rw [status, status']
      exact ⟨exitStatus_some_iff, .inr ⟨c, text, text'⟩⟩

/-- A run on a file in which the name of one message is that of a message inside another. -/
def namesakeInvocation (name : String) : Invocation :=
  { Invocation.initial with
    proto := some (.text "/a.proto")
    site := .text "A"
    name := some (.text name) }

/-- The files of that run. There is no compiler. -/
def namesakeHost : Host := ⟨.plain, namesakeFiles, Builtin.wellKnown, none, "", ""⟩

/-- The relative name has two rows. The absolute name has one, which is printed. With two dots
in front it has none, and this is why the run fails. -/
theorem report_agrees_namesake : ∃ scope o o',
    (namesakeInvocation "..p.B").Builds namesakeHost scope ∧
    (namesakeInvocation "..p.B").outcome namesakeHost = .ok o ∧
    (namesakeInvocation "..p.B").withoutName.outcome namesakeHost = .ok o' ∧
    (scope.rows (some "B")).length = 2 ∧
    scope.rows (some ".p.B") = [⟨"p.B", "/a.proto", "message", "p.B"⟩] ∧
    report ((namesakeInvocation ".p.B").header (some ".p.B")) scope none =
      "type scope of A in /a.proto\n" ++ ".p.B resolves to:\n" ++
        "  p.B  [message p.B]  /a.proto\n" ∧
    scope.lookup "..p.B" = [] ∧ o'.status = 0 ∧ o.status ≠ 0 := by
  have looked : ((Work.siteScope (namesakeInvocation "..p.B")).run
      ((namesakeInvocation "..p.B").setup namesakeHost) .initial).1.toOption.map (fun scope =>
        ((scope.lookup "B").length, (scope.lookup "..p.B").length, (scope.lookup ".p.B").map
          fun e => (e.source.document.uri, e.kind.word, e.fullName))) =
      some (2, 0, [("/a.proto", "message", "p.B")]) := by
    decide +kernel
  have ended : ((namesakeInvocation "..p.B").outcome namesakeHost).toOption.isSome = true ∧
      ((namesakeInvocation "..p.B").withoutName.outcome namesakeHost).toOption.map
        Outcome.status = some 0 := by
    decide +kernel
  obtain ⟨scope, built, facts⟩ := Option.map_eq_some_iff.mp looked
  simp only [Prod.mk.injEq] at facts
  obtain ⟨relative, doubled, absolute⟩ := facts
  obtain ⟨e, single, seen⟩ := List.map_eq_singleton_iff.mp absolute
  simp only [Prod.mk.injEq] at seen
  obtain ⟨uri, kind, fullName⟩ := seen
  obtain ⟨o, ran⟩ := Option.isSome_iff_exists.mp ended.1
  have builds : (namesakeInvocation "..p.B").Builds namesakeHost scope :=
    ⟨_, Prod.ext (Query.eq_ok_of_toOption built) rfl⟩
  obtain ⟨onScopes, onRuns⟩ := report_agrees Builtin.namesAreSegments_wellKnown
  obtain ⟨isBuilt, agree⟩ := onRuns _ namesakeHost _ rfl builds
  obtain ⟨o', ran', status, -⟩ := agree _ o rfl (Query.eq_ok_of_toOption ran)
  have passed : o'.status = 0 := by simpa [ran', Except.toOption] using ended.2
  have nothing := List.length_eq_zero_iff.mp doubled
  have onNames := (onScopes scope isBuilt).1
  obtain ⟨-, ⟨both, perm, rows, -⟩, -⟩ := onNames "B"
  have two : (scope.rows (some "B")).length = 2 := by
    rw [← rows.length_eq, perm.length_eq, relative]
  obtain ⟨-, ⟨shown, perm, rows, printed⟩, -⟩ := onNames ".p.B"
  rw [single, List.perm_singleton] at perm
  subst perm
  obtain ⟨row, _, shows, none, listed⟩ := List.forall₂_cons_left_iff.mp rows
  cases none
  have text := printed ((namesakeInvocation ".p.B").header (some ".p.B")) none rfl
  refine ⟨scope, o, o', builds, Query.eq_ok_of_toOption ran, ran', two, ?_, ?_, nothing, passed, ?_⟩
  · rw [listed, shows.row_eq, uri, kind, fullName]
    decide
  · rw [Report.Lists, single] at text
    rw [text]
    simp only [List.map_singleton, List.isEmpty_cons, Bool.false_eq_true, if_false, uri, kind,
      fullName]
    decide
  · intro succeeded
    exact (status.mp succeeded).2 nothing

end CommandLine

end ProtoNames
