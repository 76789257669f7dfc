import ProtoNames.Proofs.Patience
import ProtoNames.Proofs.Segments

/-!
Enum values are named beside their enum.

* `KeepsLast`: in each way in which files are looked through, the names of a declaration are some
  outer segments, each followed by the declaration's own name. The outer segments depend on where
  the declaration stands only, so they are the same for an enum and for its values.
* `mem_found_iff`: what is found is what `Sighted` candidates contribute, whatever is wanted.
* `literals_beside_enums`: the names of a value are those of its enum with another last segment,
  and the values of any enum are the values of all enums that are in scope as types.
-/

namespace ProtoNames

variable {s : Setup} {p p' : Progress} {given : List Source} {site top e v c : Element}
  {d b : Source} {w : Wanted} {name : String} {importer : List String} {level : Nat}
  {visits : List Visit} {own : String} {gives : QualifiedName → List String}

/-! ### Names with another last segment -/

/-- A name with another last segment. -/
def withLast (name last : String) : String := joinDots ((segments name).dropLast ++ [last])

theorem withLast_joinDots {outer : List String} {own last : String}
    (clean : AreSegments (outer ++ [own])) :
    withLast (joinDots (outer ++ [own])) last = joinDots (outer ++ [last]) := by
  rw [withLast, segments_joinDots clean, List.dropLast_concat]

/-- Names that are made of the same outer segments, whatever the own name is. -/
def KeepsLast (gives : QualifiedName → List String) : Prop :=
  ∀ package init, ∃ outers : List (List String), (∀ outer ∈ outers, outer <:+ package ++ init) ∧
    ∀ own, gives ⟨package, init ++ [own]⟩ = outers.map fun outer => joinDots (outer ++ [own])

theorem suffixNames_concat (least : Nat) (front : List String) :
    ∃ outers : List (List String), (∀ outer ∈ outers, outer <:+ front) ∧
      ∀ own, suffixNames (least + 1) (front ++ [own]) =
        outers.map fun outer => joinDots (outer ++ [own]) := by
  refine ⟨(List.range' (least + 1) (front.length + 1 - least)).map
    fun n => front.drop (front.length + 1 - n), ?_, fun own => ?_⟩
  · simp only [List.forall_mem_map]
    exact fun n _ => List.drop_suffix _ _
  · simp only [suffixNames, List.length_append, List.length_singleton, List.map_map]
    have count : front.length + 1 + 1 - (least + 1) = front.length + 1 - least := by omega
    rw [count]
    refine List.map_congr_left fun n inside => ?_
    have positive : least + 1 ≤ n := (List.mem_range'_1.mp inside).1
    simp only [Function.comp_apply]
    rw [List.drop_append_of_le_length (by omega)]

theorem keepsLast_localNames (level : Nat) : KeepsLast (·.localNames level) := by
  intro package init
  obtain ⟨outers, ends, names⟩ := suffixNames_concat level (package ++ init)
  refine ⟨outers, ends, fun own => ?_⟩
  simp only [QualifiedName.localNames, QualifiedName.segments, ← List.append_assoc, names]

theorem keepsLast_descriptorNames (level : Nat) : KeepsLast (·.descriptorNames level) := by
  intro package init
  obtain ⟨outers, ends, names⟩ := suffixNames_concat level init
  refine ⟨outers ++ [package ++ init], ?_, fun own => ?_⟩
  · intro outer inside
    rcases List.mem_append.mp inside with inside | whole
    · exact (ends outer inside).trans (List.suffix_append _ _)
    · rw [List.mem_singleton.mp whole]
  · simp only [QualifiedName.descriptorNames, names, QualifiedName.full, QualifiedName.segments,
      List.map_append, List.map_singleton, List.append_assoc]

theorem keepsLast_importedNames (importer : List String) :
    KeepsLast fun q => q.importedNames importer q.package := by
  intro package init
  refine ⟨(List.range ((sharedSegments importer package).length + 1)).reverse.map
    fun k => (package ++ init).drop k, ?_, fun own => ?_⟩
  · simp only [List.forall_mem_map]
    exact fun n _ => List.drop_suffix _ _
  · have shorter : (sharedSegments importer package).length ≤ package.length :=
      (prefix_sharedSegments_iff.mp List.prefix_rfl).2.length_le
    simp only [QualifiedName.importedNames, QualifiedName.segments, List.map_map]
    refine List.map_congr_left fun k inside => ?_
    have bound := List.mem_range.mp (List.mem_reverse.mp inside)
    simp only [Function.comp_apply]
    rw [← List.append_assoc, List.drop_append_of_le_length]
    rw [List.length_append]
    omega

/-! ### Candidates in sight -/

/-- A candidate is looked at, and these are the names that it gives to what it contributes: in a
scope of the site, in a document that is seen, or in a built-in file. -/
inductive Sighted (site : Element) (importer : List String) (visits : List Visit) :
    Element → (QualifiedName → List String) → Prop
  | own {scope c : Element} {level : Nat} : scope ∈ site.scopes → scope.Reaches c level →
      Sighted site importer visits c (·.localNames level)
  | related {d : Source} {c : Element} {level : Nat} : .imported d ∈ visits →
      areRelated importer d.document.packagePath = true → (Element.ofSource d).Reaches c level →
      Sighted site importer visits c (·.localNames level)
  | foreign {d : Source} {c : Element} : .imported d ∈ visits →
      areRelated importer d.document.packagePath = false → (Element.ofSource d).Within c →
      Sighted site importer visits c fun q => q.importedNames importer q.package
  | builtIn {b : Source} {c : Element} {level : Nat} :
      .builtIn b ∈ visits → (Element.ofSource b).Reaches c level →
      Sighted site importer visits c (·.descriptorNames level)

theorem Sighted.keepsLast (h : Sighted site importer visits c gives) : KeepsLast gives := by
  cases h with
  | own _ _ => exact keepsLast_localNames _
  | related _ _ _ => exact keepsLast_localNames _
  | foreign _ _ _ => exact keepsLast_importedNames _
  | builtIn _ _ => exact keepsLast_descriptorNames _

theorem Wanted.mem_inBuiltIn : ⟨name, e⟩ ∈ w.inBuiltIn b ↔
    ∃ c level, (Element.ofSource b).Reaches c level ∧ e ∈ w.targets c ∧
      name ∈ e.qualifiedName.descriptorNames level := by
  simp only [inBuiltIn, List.mem_flatMap, Prod.exists, Match.mem_under]
  constructor
  · rintro ⟨c, level, met, _, target, named, rfl⟩
    exact ⟨c, level, Element.mem_scopedContents.mp met, target, named⟩
  · rintro ⟨c, level, reaches, target, named⟩
    exact ⟨c, level, Element.mem_scopedContents.mpr reaches, e, target, named, rfl⟩

/-- What is found is what the candidates in sight contribute, under the names that they give. -/
theorem mem_found_iff : ⟨name, e⟩ ∈ w.inOwn site ++ visits.flatMap (w.inVisit importer) ↔
    ∃ c gives, Sighted site importer visits c gives ∧ e ∈ w.targets c ∧
      name ∈ gives e.qualifiedName := by
  constructor
  · intro found
    rcases List.mem_append.mp found with own | visited
    · obtain ⟨scope, isScope, seen⟩ := List.mem_flatMap.mp own
      obtain ⟨c, level, reaches, target, named⟩ := Wanted.mem_inScope.mp seen
      exact ⟨c, _, .own isScope reaches, target, named⟩
    · obtain ⟨b | d, visit, seen⟩ := List.mem_flatMap.mp visited
      · obtain ⟨c, level, reaches, target, named⟩ := Wanted.mem_inBuiltIn.mp seen
        exact ⟨c, _, .builtIn visit reaches, target, named⟩
      · simp only [Wanted.inVisit, Wanted.inImported] at seen
        split at seen
        · next related =>
          obtain ⟨c, level, reaches, target, named⟩ := Wanted.mem_inScope.mp seen
          exact ⟨c, _, .related visit related reaches, target, named⟩
        · next unrelated =>
          obtain ⟨c, within_, target, named⟩ := Wanted.mem_inForeign.mp seen
          exact ⟨c, _, .foreign visit (by simpa using unrelated) within_, target, named⟩
  · rintro ⟨c, gives, sighted, target, named⟩
    refine List.mem_append.mpr ?_
    cases sighted with
    | own isScope reaches =>
      exact .inl (List.mem_flatMap.mpr
        ⟨_, isScope, Wanted.mem_inScope.mpr ⟨c, _, reaches, target, named⟩⟩)
    | related visit related reaches =>
      refine .inr (List.mem_flatMap.mpr ⟨_, visit, ?_⟩)
      simp only [Wanted.inVisit, Wanted.inImported, if_pos related]
      exact Wanted.mem_inScope.mpr ⟨c, _, reaches, target, named⟩
    | foreign visit unrelated within_ =>
      refine .inr (List.mem_flatMap.mpr ⟨_, visit, ?_⟩)
      simp only [Wanted.inVisit, Wanted.inImported, unrelated]
      exact Wanted.mem_inForeign.mpr ⟨c, within_, target, named⟩
    | builtIn visit reaches =>
      exact .inr (List.mem_flatMap.mpr
        ⟨_, visit, Wanted.mem_inBuiltIn.mpr ⟨c, _, reaches, target, named⟩⟩)

/-! ### Enums and their values -/

/-- The values of an enum. -/
def Element.values (e : Element) : List Element := e.children.filter fun v => v.kind = .enumValue

/-- An enum and its values are called the same but for their own names. -/
theorem Element.qualifiedName_values (isEnum : e.kind = .enum) (inside : v ∈ e.values) :
    ∃ package init called own, e.qualifiedName = ⟨package, init ++ [called]⟩ ∧
      v.node?.bind Node.name? = some own ∧ v.qualifiedName = ⟨package, init ++ [own]⟩ := by
  obtain ⟨child, isValue⟩ := List.mem_filter.mp inside
  obtain ⟨i, n, -, rfl⟩ := Element.mem_children.mp child
  have kind : n.kind = .enumValue := by simpa using isValue
  obtain ⟨own, named⟩ := Node.name?_of_kind (n := n) (by simp [kind])
  rcases List.eq_nil_or_concat' e.trail with empty | ⟨init, ⟨step, last⟩, split⟩
  · simp [Element.kind, Element.node?, empty] at isEnum
  · have nodes : e.nodes = init.map (·.2) ++ [last] := by simp [Element.nodes, split]
    have lastKind : last.kind = .enum := by
      simpa [Element.kind, Element.node?, split] using isEnum
    obtain ⟨called, lastNamed⟩ := Node.name?_of_kind (n := last) (by simp [lastKind])
    refine ⟨e.source.document.packagePath, (init.map (·.2)).filterMap Node.containerName?, called,
      own, ?_, ?_, ?_⟩
    · simp only [Element.qualifiedName, nodes, relativeSegments_append_singleton, lastNamed]
      rfl
    · rw [Element.down_singleton_node?]
      exact named
    · simp only [Element.qualifiedName, Element.nodes_down, nodes, List.map_singleton,
        relativeSegments_append_singleton, List.filterMap_append, named,
        Node.containerName?_of_kind (.inr lastKind), List.filterMap_cons_none, List.filterMap_nil,
        List.append_nil]
      rfl

/-- So the names of a value are those of its enum with another last segment. -/
theorem KeepsLast.mem_iff (keeps : KeepsLast gives) (isEnum : e.kind = .enum)
    (clean : AreSegments e.qualifiedName.segments) (inside : v ∈ e.values)
    (hasName : v.node?.bind Node.name? = some own) : name ∈ gives v.qualifiedName ↔
      ∃ called ∈ gives e.qualifiedName, name = withLast called own := by
  obtain ⟨package, init, last, own', enumName, hasName', valueName⟩ :=
    Element.qualifiedName_values isEnum inside
  cases hasName.symm.trans hasName'
  obtain ⟨outers, ends, names⟩ := keeps package init
  rw [enumName, QualifiedName.segments, ← List.append_assoc] at clean
  have swap : ∀ outer ∈ outers, withLast (joinDots (outer ++ [last])) own =
      joinDots (outer ++ [own]) := by
    intro outer inside
    apply withLast_joinDots
    obtain ⟨front, split⟩ := ends outer inside
    rw [← split, List.append_assoc] at clean
    exact clean.of_append.2
  simp only [enumName, valueName, names, List.mem_map]
  constructor
  · rintro ⟨outer, inside, rfl⟩
    exact ⟨_, ⟨outer, inside, rfl⟩, (swap outer inside).symm⟩
  · rintro ⟨_, ⟨outer, inside, rfl⟩, rfl⟩
    exact ⟨outer, inside, (swap outer inside).symm⟩

/-- Where a value has names, so has its enum. -/
theorem KeepsLast.exists_mem (keeps : KeepsLast gives) (isEnum : e.kind = .enum)
    (inside : v ∈ e.values) (named : name ∈ gives v.qualifiedName) :
    ∃ called, called ∈ gives e.qualifiedName := by
  obtain ⟨package, init, last, own, enumName, -, valueName⟩ :=
    Element.qualifiedName_values isEnum inside
  obtain ⟨outers, -, names⟩ := keeps package init
  rw [valueName, names] at named
  obtain ⟨outer, inside, -⟩ := List.mem_map.mp named
  rw [enumName, names]
  exact ⟨_, List.mem_map.mpr ⟨outer, inside, rfl⟩⟩

theorem Wanted.mem_targets_enums :
    e ∈ (Wanted.types [.enum]).targets c ↔ c = e ∧ c.kind = .enum := by
  rw [Wanted.mem_targets_types, List.mem_singleton, eq_comm]

theorem Wanted.mem_targets_values {enum : Option Element} : v ∈ (Wanted.values enum).targets c ↔
    (c.kind = .enum ∧ enum.all c.isSame = true) ∧ v ∈ c.values := by
  simp only [targets, List.mem_ite_nil_right]
  rfl

section Beside

/-- What is found at a site where some files are seen. -/
def foundFor (site : Element) (importer : List String) (visits : List Visit) (w : Wanted) :
    List Match := w.inOwn site ++ visits.flatMap (w.inVisit importer)

/-- A value that is found stands in an enum that is found as a type. -/
theorem exists_enum_of_found {enum : Option Element}
    (found : ⟨name, v⟩ ∈ foundFor site importer visits (.values enum)) :
    ∃ c gives, Sighted site importer visits c gives ∧ c.kind = .enum ∧
      enum.all c.isSame = true ∧ v ∈ c.values ∧ name ∈ gives v.qualifiedName ∧
      ∃ called, ⟨called, c⟩ ∈ foundFor site importer visits (.types [.enum]) := by
  obtain ⟨c, gives, sighted, target, named⟩ := mem_found_iff.mp found
  obtain ⟨⟨isEnum, same⟩, inside⟩ := Wanted.mem_targets_values.mp target
  obtain ⟨called, named'⟩ := sighted.keepsLast.exists_mem isEnum inside named
  exact ⟨c, gives, sighted, isEnum, same, inside, named, called, mem_found_iff.mpr
    ⟨c, gives, sighted, Wanted.mem_targets_enums.mpr ⟨rfl, isEnum⟩, named'⟩⟩

theorem kind_of_found (found : ⟨name, e⟩ ∈ foundFor site importer visits (.types [.enum])) :
    e.kind = .enum := by
  obtain ⟨c, gives, -, target, -⟩ := mem_found_iff.mp found
  obtain ⟨rfl, isEnum⟩ := Wanted.mem_targets_enums.mp target
  exact isEnum

/-- What is found among the values of any enum is found among those of an enum that is found as a
type. -/
theorem mem_anyValue_iff : ⟨name, v⟩ ∈ foundFor site importer visits (.values none) ↔
    ∃ e called, ⟨called, e⟩ ∈ foundFor site importer visits (.types [.enum]) ∧
      ⟨name, v⟩ ∈ foundFor site importer visits (.values (some e)) := by
  constructor
  · intro found
    obtain ⟨c, gives, sighted, isEnum, -, inside, named, called, asType⟩ :=
      exists_enum_of_found found
    refine ⟨c, called, asType, mem_found_iff.mpr ⟨c, gives, sighted, ?_, named⟩⟩
    exact Wanted.mem_targets_values.mpr ⟨⟨isEnum, by simp [Element.isSame_refl]⟩, inside⟩
  · rintro ⟨e, called, -, found⟩
    obtain ⟨c, gives, sighted, isEnum, -, inside, named, -⟩ := exists_enum_of_found found
    exact mem_found_iff.mpr
      ⟨c, gives, sighted, Wanted.mem_targets_values.mpr ⟨⟨isEnum, rfl⟩, inside⟩, named⟩

variable (unique : ∀ m ∈ foundFor site importer visits (.types [.enum]),
    ∀ m' ∈ foundFor site importer visits (.types [.enum]),
      m.element.isSame m'.element = true → m.element = m'.element)
  (visible : ∃ called, ⟨called, e⟩ ∈ foundFor site importer visits (.types [.enum]))

include unique visible

/-- All that is found among the values of an enum is a value of it. -/
theorem mem_values_of_found (found : ⟨name, v⟩ ∈ foundFor site importer visits (.values (some e))) :
    v ∈ e.values := by
  obtain ⟨called, asType⟩ := visible
  obtain ⟨c, gives, -, -, same, inside, -, called', asType'⟩ := exists_enum_of_found found
  obtain rfl : c = e := unique _ asType' _ asType (by simpa using same)
  exact inside

/-- A value is found under the names of its enum with another last segment. -/
theorem mem_value_iff (clean : AreSegments e.qualifiedName.segments) (inside : v ∈ e.values)
    (hasName : v.node?.bind Node.name? = some own) :
    ⟨name, v⟩ ∈ foundFor site importer visits (.values (some e)) ↔
      ∃ called, ⟨called, e⟩ ∈ foundFor site importer visits (.types [.enum]) ∧
        name = withLast called own := by
  constructor
  · intro found
    obtain ⟨called, asType⟩ := visible
    obtain ⟨c, gives, sighted, isEnum, same, -, named, called', asType'⟩ :=
      exists_enum_of_found found
    obtain rfl : c = e := unique _ asType' _ asType (by simpa using same)
    obtain ⟨called, named', rfl⟩ :=
      (sighted.keepsLast.mem_iff isEnum clean inside hasName).mp named
    exact ⟨called, mem_found_iff.mpr
      ⟨c, gives, sighted, Wanted.mem_targets_enums.mpr ⟨rfl, isEnum⟩, named'⟩, rfl⟩
  · rintro ⟨called, asType, rfl⟩
    obtain ⟨c, gives, sighted, target, named⟩ := mem_found_iff.mp asType
    obtain ⟨rfl, isEnum⟩ := Wanted.mem_targets_enums.mp target
    refine mem_found_iff.mpr ⟨c, gives, sighted, Wanted.mem_targets_values.mpr
      ⟨⟨isEnum, by simp [Element.isSame_refl]⟩, inside⟩, ?_⟩
    exact (sighted.keepsLast.mem_iff isEnum clean inside hasName).mpr ⟨called, named, rfl⟩

end Beside

/-! ### Three queries at one site -/

theorem SourceSet.History.grows {extension : String} {files : FileStore}
    {sources sources' : SourceSet} (history : sources.History given)
    (grows : SourceSet.Grows frames files extension sources sources') :
    ∃ given', given ⊆ given' ∧ sources'.History given' := by
  induction grows with
  | refl => exact ⟨given, fun _ member => member, history⟩
  | tail _ step ih =>
    obtain ⟨uri, rfl⟩ := step
    obtain ⟨given', more, history'⟩ := ih
    exact ⟨_, fun d member => List.mem_append_right _ (more member),
      history'.fetch frames files extension uri⟩

/-- Queries that only open documents add to what was given out. -/
theorem SourceSet.History.of_run {α : Type} {q : Query α} {result : Except QueryError α}
    (history : p.sources.History given) (settles : Query.Settles s True p q)
    (ran : q.run s p = (result, p')) :
    ∃ given', given ⊆ given' ∧ p'.sources.History given' :=
  history.grows (settles.opens_of_run ran).sources.grows

namespace Query

variable {r : ReferenceKind} {criteria : Criteria} {found : List Match}
  {p₁ p₂ : Progress}

/-- What a query comes to if nobody loses patience: the files that the document sees are looked
through for what is wanted. -/
theorem run_find (patient : p.patience = none) (accepted : Wanted.ofCriteria r criteria = .ok w) :
    (find site r criteria).run s p =
      (((Query.visits site.source).run s p).1.map fun visits =>
          foundFor site site.source.document.packagePath visits w,
        ((Query.visits site.source).run s p).2) := by
  simp only [find, accepted, ofCriteria, run_bind, run_pure,
    run_checks_patient patient site.scopes]
  rcases (Query.visits site.source).run s p with ⟨_ | _, _⟩ <;> rfl

/-- Once a query has returned at a site, any other query there returns what it wants from the same
files. -/
theorem run_find_again (accounted : p.sources.Accounted given) (patient : p.patience = none)
    (accepted : Wanted.ofCriteria r criteria = .ok w)
    (ran : (find site r criteria).run s p = (.ok found, p₁)) (later : p₁.Opens s p₂) :
    ∃ visits, found = foundFor site site.source.document.packagePath visits w ∧
      ∀ r' criteria' w', Wanted.ofCriteria r' criteria' = .ok w' → ∃ after,
        (find site r' criteria').run s p₂ =
          (.ok (foundFor site site.source.document.packagePath visits w'), after) := by
  rw [run_find patient accepted] at ran
  obtain ⟨opens, again⟩ := settles_visits (s := s) site.source accounted
  cases seen : (Query.visits site.source).run s p with
  | mk result after =>
    rw [seen] at ran opens again
    cases result with
    | error e => cases ran
    | ok files =>
      cases ran
      have patient₂ := later.patience (opens.patience patient)
      refine ⟨files, rfl, fun r' criteria' w' accepted' => ?_⟩
      have same := (again p₂ later.sources.grows fun _ => patient₂.trans patient.symm).1
      rw [run_find patient₂ accepted', same]
      exact ⟨_, rfl⟩

/-- So it is for the scopes at the site. -/
theorem run_scopeOf_again {scope : Scope} (history : p.sources.History given)
    (available : site.source.IsAvailable s.modules given) (attached : site.Attached)
    (patient : p.patience = none) (accepted : Wanted.ofCriteria r criteria = .ok w)
    (ran : (scopeOf site r criteria).run s p = (.ok scope, p₁)) (later : p₁.Opens s p₂) :
    ∃ visits, (find site r criteria).run s p =
        (.ok (foundFor site site.source.document.packagePath visits w), p₁) ∧
      (∀ m, m ∈ scope.entries ↔ m ∈ foundFor site site.source.document.packagePath visits w) ∧
      ∀ r' criteria' w', Wanted.ofCriteria r' criteria' = .ok w' → ∃ scope' after,
        (scopeOf site r' criteria').run s p₂ = (.ok scope', after) ∧
        ∀ m, m ∈ scope'.entries ↔
          m ∈ foundFor site site.source.document.packagePath visits w' := by
  obtain ⟨found, mid, ran, built⟩ := run_bind_eq_ok ran
  cases built
  have opens : p.Opens s p₁ := (settles_find site _ _ history.accounted).opens_of_run ran
  obtain ⟨given₂, more, history₂⟩ := history.grows (opens.trans later).grows.sources
  have available₂ : site.source.IsAvailable s.modules given₂ :=
    available.imp_left fun member => more member
  obtain ⟨visits, rfl, again⟩ := run_find_again history.accounted patient accepted ran later
  refine ⟨visits, ran, fun m => mem_entries history available ran attached, ?_⟩
  intro r' criteria' w' accepted'
  obtain ⟨after, ran'⟩ := again r' criteria' w' accepted'
  refine ⟨.ofMatches _, after, ?_, fun m => mem_entries history₂ available₂ ran' attached⟩
  simp only [scopeOf, run_bind, ran', run_pure]

end Query

theorem ofCriteria_enum (kind : e.kind = .enum) :
    Wanted.ofCriteria .literal (.element e) = .ok (.values (some e)) := by
  simp [Wanted.ofCriteria, Wanted.ofCriteria?, kind]

/-- Enum values are named as siblings of their enum. Once the enums that a reference at a site can
mean as types are known, the values of each of them can be asked for: they have the names of the
enum, with their own name in place of the last segment. The values that can be asked for without
saying which enum are those of all these enums together. -/
theorem literals_beside_enums {p₁ p₂ : Progress} {types : Scope}
    (segmented : s.modules.NamesAreSegments)
    (history : p.sources.History given) (available : site.source.IsAvailable s.modules given)
    (attached : site.Attached) (patient : p.patience = none)
    (ran : (Query.scopeOf site .type (.sortal (.element .enum))).run s p = (.ok types, p₁))
    (later : p₁.Opens s p₂) :
    (∀ e, (∃ called, ⟨called, e⟩ ∈ types.entries) → ∃ values after,
      (Query.scopeOf site .literal (.element e)).run s p₂ = (.ok values, after) ∧
      (∀ m ∈ values.entries, m.element ∈ e.values) ∧
      ∀ v ∈ e.values, ∃ own, v.node?.bind Node.name? = some own ∧ ∀ name,
        ⟨name, v⟩ ∈ values.entries ↔
          ∃ called, ⟨called, e⟩ ∈ types.entries ∧ name = withLast called own) ∧
    ∃ all after, (Query.scopeOf site .literal .anyEnum).run s p₂ = (.ok all, after) ∧
      ∀ m, m ∈ all.entries ↔ ∃ e called values after', ⟨called, e⟩ ∈ types.entries ∧
        (Query.scopeOf site .literal (.element e)).run s p₂ = (.ok values, after') ∧
        m ∈ values.entries := by
  obtain ⟨visits, ran, entries, asked⟩ :=
    Query.run_scopeOf_again history available attached patient rfl ran later
  have unique := eq_of_isSame history available ran attached
  obtain ⟨given', accounted, place⟩ := place_of_mem_found history available ran attached
  simp only [entries]
  refine ⟨fun e visible => ?_, ?_⟩
  · obtain ⟨called, asType⟩ := id visible
    have isEnum := kind_of_found asType
    obtain ⟨values, after, returned, found⟩ :=
      asked .literal (.element e) _ (ofCriteria_enum isEnum)
    refine ⟨values, after, returned, fun m member => ?_, fun v inside => ?_⟩
    · exact mem_values_of_found unique visible ((found m).mp member)
    · obtain ⟨-, -, -, own, -, hasName, -⟩ := Element.qualifiedName_values isEnum inside
      obtain ⟨atHand, within_⟩ := place _ asType
      have clean := within_.areSegments (atHand.namesAreSegments segmented accounted)
      refine ⟨own, hasName, fun name => ?_⟩
      rw [found]
      exact mem_value_iff unique visible clean inside hasName
  · obtain ⟨all, after, returned, found⟩ := asked .literal .anyEnum _ rfl
    refine ⟨all, after, returned, ?_⟩
    rintro ⟨name, v⟩
    rw [found, mem_anyValue_iff]
    constructor
    · rintro ⟨e, called, asType, member⟩
      obtain ⟨values, after', returned', found'⟩ :=
        asked .literal (.element e) _ (ofCriteria_enum (kind_of_found asType))
      exact ⟨e, called, values, after', asType, returned', (found' _).mpr member⟩
    · rintro ⟨e, called, values, after', asType, returned', member⟩
      obtain ⟨values', after'', returned'', found'⟩ :=
        asked .literal (.element e) _ (ofCriteria_enum (kind_of_found asType))
      cases returned'.symm.trans returned''
      exact ⟨e, called, asType, (found' _).mp member⟩

/-- A file with an enum in a message, and an enum in a file of a package beside its own. -/
def siblingFiles : FileStore where
  entries := [
    ("/a.proto", "package p.q; import 'b.proto'; message A { enum E { V = 0; } }".toUTF8.toList),
    ("/b.proto", "package p.r; enum F { X = 0; Y = 1; }".toUTF8.toList)]

/-- Reading the first file. -/
def siblingStart : Fetch :=
  SourceSet.empty.fetch Surroundings.plain.frames siblingFiles schemaExtension "/a.proto"

/-- A place inside the message. -/
def siblingSite? (start : Source) : Option Element :=
  ((Element.ofSource start).descend? [2]).map Element.inside

def siblingSetup : Setup := .plain siblingFiles

/-- The enums at a place. -/
def siblingTypes (site : Element) : Except QueryError Scope × Progress :=
  (Query.scopeOf site .type (.sortal (.element .enum))).run siblingSetup
    ⟨siblingStart.sources, [], [], none⟩

/-- The imported enum may be called with and without the package that both files share, and so may
its two values. -/
theorem literals_beside_enums_sibling : ∃ start site types p₁ e values after,
    siblingStart.found = some start ∧ siblingSite? start = some site ∧
    siblingTypes site = (.ok types, p₁) ∧ ⟨"r.F", e⟩ ∈ types.entries ∧
    types.entries.map Match.name = ["E", "A.E", "q.A.E", "p.q.A.E", "r.F", "p.r.F"] ∧
    (Query.scopeOf site .literal (.element e)).run siblingSetup p₁ = (.ok values, after) ∧
    values.entries.map Match.name = ["r.X", "p.r.X", "r.Y", "p.r.Y"] ∧
    ∀ v ∈ e.values, ∃ own, v.node?.bind Node.name? = some own ∧ ∀ name,
      ⟨name, v⟩ ∈ values.entries ↔
        ∃ called, ⟨called, e⟩ ∈ types.entries ∧ name = withLast called own := by
  have facts : siblingStart.found.bind (fun start => (siblingSite? start).bind fun site =>
      (siblingTypes site).1.toOption.bind fun types =>
        (types.entries.find? (·.name == "r.F")).map fun m =>
          (types.entries.map Match.name,
            ((Query.scopeOf site .literal (.element m.element)).run siblingSetup
              (siblingTypes site).2).1.toOption.map fun values =>
                values.entries.map Match.name)) =
      some (["E", "A.E", "q.A.E", "p.q.A.E", "r.F", "p.r.F"],
        some ["r.X", "p.r.X", "r.Y", "p.r.Y"]) := by
    decide +kernel
  obtain ⟨start, opened, facts⟩ := Option.bind_eq_some_iff.mp facts
  obtain ⟨site, place, facts⟩ := Option.bind_eq_some_iff.mp facts
  obtain ⟨types, returned, facts⟩ := Option.bind_eq_some_iff.mp facts
  obtain ⟨⟨name, e⟩, first, facts⟩ := Option.map_eq_some_iff.mp facts
  obtain ⟨called, names⟩ := Prod.mk.inj facts
  obtain rfl : name = "r.F" := by simpa using List.find?_some first
  have asType : ⟨"r.F", e⟩ ∈ types.entries := List.mem_of_find?_eq_some first
  obtain ⟨message, found, rfl⟩ := Option.map_eq_some_iff.mp place
  have history : SourceSet.History siblingStart.sources (siblingStart.found.toList ++ []) :=
    .fetch _ siblingFiles schemaExtension "/a.proto" .start
  have source : message.inside.source = start := Element.source_of_descend? found
  have available : message.inside.source.IsAvailable Builtin.wellKnown
      (siblingStart.found.toList ++ []) :=
    .inl (by simp [opened, source])
  have attached : message.inside.Attached := ((Element.Attached.document _).descend found).inside
  have ran : siblingTypes message.inside = (.ok types, (siblingTypes message.inside).2) :=
    Prod.ext (Query.eq_ok_of_toOption returned) rfl
  obtain ⟨beside, -⟩ :=
    literals_beside_enums Builtin.namesAreSegments_wellKnown history available attached rfl ran
      (.refl _)
  obtain ⟨values, after, literals, -, each⟩ := beside e ⟨_, asType⟩
  refine ⟨start, message.inside, types, _, e, values, after, opened, place, ran, asType, called,
    literals, ?_, each⟩
  rw [literals] at names
  exact Option.some.inj names

end ProtoNames
