import ProtoNames.Proofs.InnermostScope

/-!
Type names that leave a choice.

The matches in a scope have no order of their own: a name is looked up in whatever order they
happen to be listed. What a type name means does not depend on it as long as the name leaves no
choice.

* `exists_lists_iff`: what a name may mean is what it means in some order, and it means nothing in
  some order only if it may mean nothing (`meant?_eq_none_iff`).
* `resolveType_lists`: so a type name means the same in every order exactly if it leaves no choice.
  Only a relative name can leave one: where two declarations have the full name that the
  innermost scope asks for, the order decides between them, and neither is turned down.
-/

namespace ProtoNames

variable {s : Setup} {p p' : Progress} {given : List Source} {site e : Element}
  {enclosing : List String} {t : String} {found before : List Match} {candidates : List Element}
  {scope : Scope} {m : Match}

/-- The declaration that a type name means at a site, by the order of a scope. Scalar types are
not declared. -/
def Scope.meant? (scope : Scope) (site : Element) (t : String) : Option Element :=
  if (Scalar.ofName? t).isSome then none else chooseType? site t (scope.lookup t)

/-- A declaration that the choice is left to: nearest among what is found, or else the only
candidate. -/
structure IsEligible (enclosing : List String) (found : List Match) (t : String) (e : Element) :
    Prop where
  unreserved : Scalar.ofName? t = none
  may : MayMean enclosing t (IsCandidate found t) (FoundBehind found t) e

/-! ### The last of a scope -/

theorem distinct_concat {α : Type} {same : α → α → Bool} {items : List α} {last : α}
    (new : ∀ a ∈ items, same a last = false) :
    distinct same (items ++ [last]) = distinct same items ++ [last] := by
  induction items with
  | nil => rfl
  | cons first rest ih =>
    obtain ⟨new, further⟩ := List.forall_mem_cons.mp new
    simp [distinct, ih further, new]

/-- What is listed last is looked up last. -/
theorem Scope.lookup_concat (means : m.answersTo t = true)
    (new : ∀ m' ∈ before, m'.answersTo t = true → m'.element.isSame m.element = false) :
    (⟨before ++ [m]⟩ : Scope).lookup t = (⟨before⟩ : Scope).lookup t ++ [m.element] := by
  simp only [lookup, answers, List.filter_append, List.map_append, List.filter_singleton, means,
    cond_true, List.map_singleton]
  refine distinct_concat fun a listed => ?_
  obtain ⟨m', answer, rfl⟩ := List.mem_map.mp listed
  exact new m' (List.mem_filter.mp answer).1 (List.mem_filter.mp answer).2

/-- Of the nearest candidates the last is chosen. -/
theorem nearest?_concat
    (nearest : IsNearest enclosing (StandsBehind (candidates ++ [e]) t) e) :
    nearest? enclosing t (candidates ++ [e]) = some e := by
  obtain ⟨outer, beginning, ⟨-, called⟩, longest⟩ := nearest
  have length := beginning.length_le
  refine findSome?_reverse_range.mpr ⟨outer.length, by omega, ?_, fun k bound more => ?_⟩
  · rw [← List.prefix_iff_eq_take.mp beginning]
    simp [called]
  · refine find?_eq_none_iff_standsBehind.mpr fun c stands => ?_
    have shorter := (longest _ c (List.take_prefix k _) stands).length_le
    rw [List.length_take] at shorter
    omega

theorem chooseType?_concat (once : (candidates ++ [e]).Nodup)
    (may : MayMean site.enclosingScope t (· ∈ candidates ++ [e])
      (StandsBehind (candidates ++ [e]) t) e) :
    chooseType? site t (candidates ++ [e]) = some e := by
  rcases id may with ⟨relative, nearest⟩ | ⟨-, only⟩
  · rcases candidates with _ | ⟨c, _ | ⟨c', rest⟩⟩
    · rfl
    · simpa [chooseType?, relative] using nearest?_concat nearest
    · simpa [chooseType?, relative] using nearest?_concat nearest
  · obtain ⟨c, chosen⟩ := exists_chooseType? once may
    rw [chosen, (only c).mp (mayMean_of_chooseType? chosen).mem]

theorem Match.name_eq_of_answersTo {m' : Match} (means : m.answersTo t = true)
    (means' : m'.answersTo t = true) : m.name = m'.name := by
  unfold answersTo at means means'
  split at means <;> simp_all

/-! ### Orders -/

section Orders

variable (segmented : s.modules.NamesAreSegments) (history : p.sources.History given)
  (available : site.source.IsAvailable s.modules given) (attached : site.Attached)
  (ran : (Query.find site .type .anyType).run s p = (.ok found, p'))

include history available attached ran

/-- What is found can be listed so that a candidate is looked up last. -/
theorem exists_lists_lookup_concat (candidate : IsCandidate found t e) :
    ∃ (scope : Scope) (candidates : List Element),
      scope.Lists found ∧ scope.lookup t = candidates ++ [e] := by
  obtain ⟨m, member, means, rfl⟩ := candidate
  have entries : ∀ m, m ∈ (Scope.ofMatches found).entries ↔ m ∈ found := fun _ =>
    mem_entries history available ran attached
  have once : (Scope.ofMatches found).entries.Nodup :=
    nodup_distinct fun m => by simp [Match.isSame, Element.isSame_refl]
  obtain ⟨before, after, split⟩ := List.append_of_mem ((entries m).mpr member)
  have listed : (⟨before ++ after ++ [m]⟩ : Scope).Lists found := by
    rw [Scope.Lists, split]
    exact (List.perm_append_singleton _ _).trans List.perm_middle.symm
  refine ⟨_, _, listed, Scope.lookup_concat means fun m' other means' => ?_⟩
  refine Bool.eq_false_iff.mpr fun same => ?_
  have member' : m' ∈ found :=
    (entries m').mp (listed.subset (List.mem_append_left _ other))
  -- the name says under which name a match is listed
  obtain rfl : m' = m := by
    rcases m with ⟨name, e⟩
    rcases m' with ⟨name', e'⟩
    obtain rfl : name' = name := Match.name_eq_of_answersTo means' means
    obtain rfl : e' = e := eq_of_isSame history available ran attached _ member' _ member same
    rfl
  rw [split] at once
  exact (List.nodup_cons.mp (List.nodup_middle.mp once)).1 other

include segmented

/-- In every order a name means something that it may mean. -/
theorem isEligible_of_meant? (listed : scope.Lists found) (meant : scope.meant? site t = some e) :
    IsEligible site.enclosingScope found t e := by
  unfold Scope.meant? at meant
  split at meant
  · cases meant
  · next unreserved =>
    refine ⟨Option.not_isSome_iff_eq_none.mp unreserved, ?_⟩
    exact (mayMean_lookup_iff segmented history available attached ran listed).mp
      (mayMean_of_chooseType? meant)

/-- A name that may mean something means something in every order. -/
theorem exists_meant? (listed : scope.Lists found)
    (eligible : IsEligible site.enclosingScope found t e) :
    ∃ c, scope.meant? site t = some c := by
  obtain ⟨once, -⟩ := lookup_of_lists (t := t) history available attached ran listed
  simp only [Scope.meant?, eligible.unreserved, Option.isSome_none, Bool.false_eq_true, if_false]
  exact exists_chooseType? once
    ((mayMean_lookup_iff segmented history available attached ran listed).mpr eligible.may)

theorem meant?_eq_none_iff (listed : scope.Lists found) :
    scope.meant? site t = none ↔ ∀ e, ¬ IsEligible site.enclosingScope found t e := by
  constructor
  · intro nothing e eligible
    obtain ⟨c, meant⟩ := exists_meant? segmented history available attached ran listed eligible
    cases nothing.symm.trans meant
  · intro nothing
    refine Option.eq_none_iff_forall_ne_some.mpr fun e meant => ?_
    exact nothing e (isEligible_of_meant? segmented history available attached ran listed meant)

/-- What a name may mean is what it means in some order. -/
theorem exists_lists_iff : (∃ scope : Scope, scope.Lists found ∧ scope.meant? site t = some e) ↔
    IsEligible site.enclosingScope found t e := by
  constructor
  · rintro ⟨scope, listed, meant⟩
    exact isEligible_of_meant? segmented history available attached ran listed meant
  · rintro ⟨unreserved, may⟩
    have found' : (Scope.ofMatches found).Lists found := .refl _
    obtain ⟨-, members⟩ := lookup_of_lists (t := t) history available attached ran found'
    have member :=
      ((mayMean_lookup_iff segmented history available attached ran found').mpr may).mem
    obtain ⟨scope, candidates, listed, last⟩ :=
      exists_lists_lookup_concat history available attached ran ((members e).mp member)
    obtain ⟨once, -⟩ := lookup_of_lists (t := t) history available attached ran listed
    have may := (mayMean_lookup_iff segmented history available attached ran listed).mpr may
    rw [last] at once may
    refine ⟨scope, listed, ?_⟩
    simp only [Scope.meant?, unreserved, Option.isSome_none, Bool.false_eq_true, if_false, last]
    exact chooseType?_concat once may

/-- A choice is left to relative names only, between declarations of one full name. -/
theorem IsEligible.eq_or_fullName_eq {c : Element}
    (h : IsEligible site.enclosingScope found t e) (h' : IsEligible site.enclosingScope found t c) :
    e = c ∨ isAbsolute t = false ∧ e.fullName = c.fullName := by
  have found' : (Scope.ofMatches found).Lists found := .refl _
  have may := mayMean_lookup_iff (t := t) (e := e) segmented history available attached ran found'
  have may' := mayMean_lookup_iff (t := t) (e := c) segmented history available attached ran found'
  exact (may.mpr h.may).eq_or_fullName_eq (may'.mpr h'.may)

/-- The order does not matter if no choice is left. -/
theorem meant?_lists_iff :
    (∀ scope : Scope, scope.Lists found →
      scope.meant? site t = (Scope.ofMatches found).meant? site t) ↔
    ∀ a b, IsEligible site.enclosingScope found t a → IsEligible site.enclosingScope found t b →
      a = b := by
  have means := fun e => exists_lists_iff (t := t) (e := e) segmented history available attached ran
  constructor
  · intro same a b eligible eligible'
    obtain ⟨scope, listed, meant⟩ := (means a).mpr eligible
    obtain ⟨scope', listed', meant'⟩ := (means b).mpr eligible'
    exact Option.some.inj (meant.symm.trans ((same scope listed).trans
      ((same scope' listed').symm.trans meant')))
  · intro unique scope listed
    cases meant : scope.meant? site t with
    | some a =>
      have eligible := isEligible_of_meant? segmented history available attached ran listed meant
      obtain ⟨b, meant'⟩ :=
        exists_meant? segmented history available attached ran (.refl _) eligible
      have eligible' :=
        isEligible_of_meant? segmented history available attached ran (.refl _) meant'
      rw [meant', unique a b eligible eligible']
    | none =>
      have nothing := (meant?_eq_none_iff segmented history available attached ran listed).mp meant
      have none_iff :=
        meant?_eq_none_iff (t := t) segmented history available attached ran (.refl _)
      exact (none_iff.mpr nothing).symm

end Orders

/-- What a type name means where the visible matches come in any order. Each of the declarations
that the innermost scope leaves the choice to is meant in some order, none is meant in any order
exactly if there is no such declaration, and the order does not matter exactly if there are not
two of them. Two such declarations are visible under a relative name and have the same full name:
a scalar type and an absolute name mean the same in every order. -/
theorem resolveType_lists (segmented : s.modules.NamesAreSegments)
    (history : p.sources.History given) (available : site.source.IsAvailable s.modules given)
    (attached : site.Attached) :
    (Scalar.ofName? t ≠ none → ((Query.resolveType site t).run s p).1 = .ok none) ∧
    ∃ enclosing, site.IsEnclosing enclosing ∧
      match (Query.find site .type .anyType).run s p with
      | (.error e, _) =>
        Scalar.ofName? t = none → ((Query.resolveType site t).run s p).1 = .error e
      | (.ok found, _) =>
        ((Query.resolveType site t).run s p).1 = .ok ((Scope.ofMatches found).meant? site t) ∧
        (∀ e, (∃ scope : Scope, scope.Lists found ∧ scope.meant? site t = some e) ↔
          IsEligible enclosing found t e) ∧
        (∀ scope : Scope, scope.Lists found →
          (scope.meant? site t = none ↔ ∀ e, ¬ IsEligible enclosing found t e)) ∧
        ((∀ scope : Scope, scope.Lists found →
          scope.meant? site t = (Scope.ofMatches found).meant? site t) ↔
          ∀ a b, IsEligible enclosing found t a → IsEligible enclosing found t b → a = b) ∧
        ∀ a b, IsEligible enclosing found t a → IsEligible enclosing found t b →
          a = b ∨ isAbsolute t = false ∧ a.fullName = b.fullName := by
  have reserved : Scalar.ofName? t ≠ none →
      ((Query.resolveType site t).run s p).1 = .ok none := by
    intro reserved
    simp only [Query.resolveType, Option.isSome_iff_ne_none.mpr reserved, if_true, Query.run_pure]
  refine ⟨reserved, site.enclosingScope, site.isEnclosing, ?_⟩
  cases ran : (Query.find site .type .anyType).run s p with
  | mk result q =>
    cases result with
    | error e => exact fun unreserved => Query.resolveType_of_error unreserved ran
    | ok found =>
      refine ⟨?_, fun e => exists_lists_iff segmented history available attached ran,
        fun scope => meant?_eq_none_iff segmented history available attached ran,
        meant?_lists_iff segmented history available attached ran,
        fun a b => IsEligible.eq_or_fullName_eq segmented history available attached ran⟩
      unfold Scope.meant?
      split
      · next isScalar => exact reserved (Option.isSome_iff_ne_none.mp isScalar)
      · next unreserved =>
        exact Query.resolveType_of_ok (Option.not_isSome_iff_eq_none.mp unreserved) ran

/-- A file that imports two files of its own package, which declare an enum of one name. -/
def doubledFiles : FileStore where
  entries := [
    ("/a.proto", "package p; import 'b.proto'; import 'c.proto';".toUTF8.toList),
    ("/b.proto", "package p; enum E { }".toUTF8.toList),
    ("/c.proto", "package p; enum E { }".toUTF8.toList)]

/-- Reading the first file. -/
def doubledStart : Fetch :=
  SourceSet.empty.fetch Surroundings.plain.frames doubledFiles schemaExtension "/a.proto"

/-- A place at the top of the first file. -/
def doubledSite (start : Source) : Element := (Element.ofSource start).inside

/-- A query in the files. -/
def doubledRun {α : Type} (q : Query α) : Except QueryError α × Progress :=
  q.run (.plain doubledFiles) ⟨doubledStart.sources, [], [], none⟩

/-- In every order the relative name means one of the enums, and the absolute name none. -/
theorem resolveType_lists_doubled : ∃ start found p', doubledStart.found = some start ∧
    doubledRun (Query.find (doubledSite start) .type .anyType) = (.ok found, p') ∧
    ∀ scope : Scope, scope.Lists found →
      scope.meant? (doubledSite start) "E" ≠ none ∧
      scope.meant? (doubledSite start) ".p.E" = none := by
  have facts : doubledStart.found.bind (fun start =>
      (doubledRun (Query.find (doubledSite start) .type .anyType)).1.toOption.map fun found =>
        (((Scope.ofMatches found).meant? (doubledSite start) "E").isSome,
          ((Scope.ofMatches found).meant? (doubledSite start) ".p.E").isSome)) =
      some (true, false) := by decide +kernel
  obtain ⟨start, opened, facts⟩ := Option.bind_eq_some_iff.mp facts
  obtain ⟨found, returned, facts⟩ := Option.map_eq_some_iff.mp facts
  obtain ⟨relative, absolute⟩ := Prod.mk.inj facts
  have history : SourceSet.History doubledStart.sources (doubledStart.found.toList ++ []) :=
    .fetch _ doubledFiles schemaExtension "/a.proto" .start
  have available : (doubledSite start).source.IsAvailable Builtin.wellKnown
      (doubledStart.found.toList ++ []) :=
    .inl (by simp [opened, doubledSite, Element.inside, Element.ofSource])
  have attached : (doubledSite start).Attached := (Element.Attached.document _).inside
  have ran : doubledRun (Query.find (doubledSite start) .type .anyType) = (.ok found, _) :=
    Prod.ext (Query.eq_ok_of_toOption returned) rfl
  -- one order is enough to see whether a name means anything
  have none_iff : ∀ name, ∀ scope : Scope, scope.Lists found →
      (scope.meant? (doubledSite start) name = none ↔
        (Scope.ofMatches found).meant? (doubledSite start) name = none) := by
    intro name scope listed
    obtain ⟨-, enclosing, -, means⟩ := resolveType_lists (s := (.plain doubledFiles))
      (p := ⟨doubledStart.sources, [], [], none⟩) (t := name) Builtin.namesAreSegments_wellKnown
      history available attached
    simp only [doubledRun] at ran
    rw [ran] at means
    obtain ⟨-, -, nothing, -⟩ := means
    exact (nothing scope listed).trans (nothing _ (.refl _)).symm
  refine ⟨start, found, _, opened, ran, fun scope listed => ⟨?_, ?_⟩⟩
  · rw [Ne, none_iff "E" scope listed]
    simpa [Option.isSome_iff_ne_none] using relative
  · rw [none_iff ".p.E" scope listed]
    simpa using absolute

/-- Which of the enums the relative name means depends on the order, and it is not turned down as
the absolute name is. -/
theorem doubled_not_none : ∃ start found scope scope' a b c,
    doubledStart.found = some start ∧
    (doubledRun (Query.find (doubledSite start) .type .anyType)).1 = .ok found ∧
    Scope.Lists scope found ∧ scope.meant? (doubledSite start) "E" = some a ∧
    Scope.Lists scope' found ∧ scope'.meant? (doubledSite start) "E" = some b ∧
    a ≠ b ∧ a.fullName = "p.E" ∧ b.fullName = "p.E" ∧
    (doubledRun (Query.resolveType (doubledSite start) "E")).1 = .ok (some c) ∧
    (doubledRun (Query.resolveType (doubledSite start) ".p.E")).1 = .ok none := by
  have facts : doubledStart.found.bind (fun start =>
      (doubledRun (Query.find (doubledSite start) .type .anyType)).1.toOption.bind fun found =>
        ((Scope.ofMatches found).meant? (doubledSite start) "E").bind fun a =>
          (Scope.meant? ⟨(Scope.ofMatches found).entries.reverse⟩ (doubledSite start) "E").bind
            fun b =>
              (doubledRun (Query.resolveType (doubledSite start) "E")).1.toOption.bind
                fun answer => answer.bind fun c =>
                  (doubledRun (Query.resolveType (doubledSite start) ".p.E")).1.toOption.map
                    fun other =>
                      (a.source.document.uri, b.source.document.uri, a.fullName, b.fullName,
                        other.isSome)) =
      some ("/c.proto", "/b.proto", "p.E", "p.E", false) := by decide +kernel
  obtain ⟨start, opened, facts⟩ := Option.bind_eq_some_iff.mp facts
  obtain ⟨found, returned, facts⟩ := Option.bind_eq_some_iff.mp facts
  obtain ⟨a, meant, facts⟩ := Option.bind_eq_some_iff.mp facts
  obtain ⟨b, meant', facts⟩ := Option.bind_eq_some_iff.mp facts
  obtain ⟨_, answered, facts⟩ := Option.bind_eq_some_iff.mp facts
  obtain ⟨c, rfl, facts⟩ := Option.bind_eq_some_iff.mp facts
  obtain ⟨other, answered', parts⟩ := Option.map_eq_some_iff.mp facts
  simp only [Prod.mk.injEq, Option.isSome_eq_false_iff, Option.isNone_iff_eq_none] at parts
  obtain ⟨uri, uri', name, name', rfl⟩ := parts
  refine ⟨start, found, _, _, a, b, c, opened, Query.eq_ok_of_toOption returned, .refl _, meant,
    List.reverse_perm _, meant', ?_, name, name', Query.eq_ok_of_toOption answered,
    Query.eq_ok_of_toOption answered'⟩
  rintro rfl
  exact absurd (uri.symm.trans uri') (by decide)

end ProtoNames
