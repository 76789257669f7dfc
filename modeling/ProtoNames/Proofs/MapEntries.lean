import Mathlib.Data.List.Forall2
import Mathlib.Data.List.Nodup
import ProtoNames.Builtin.Files
import ProtoNames.Proofs.Names

/-!
Map entries in described files.

`listed` gives the messages of a file at every depth, each with the names that lead to it. In a
compiled file these names are told apart, as `WellNamed` says.

* `mapEntriesOfAll_eq`: map entries are looked up by their full names, and so in a well-named
  file each is found (`lookup_entries`).
* `showsField_toField`: a field of the document shows the described field, or in place of a map
  entry its key and value types.
* `ShowsField.type_ne`: no part of a field has the type of an entry.
-/

namespace ProtoNames

open Text

/-! ### Messages at every depth -/

mutual

/-- A message, and what is nested in it as far as `keep` admits it, each with the names that
lead to it. Containers come first. -/
def MessageDescriptor.listed (keep : MessageDescriptor → Bool) (outer : List String) :
    MessageDescriptor → List (List String × MessageDescriptor)
  | .mk name mapEntry messages enums fields =>
    (outer ++ [name], .mk name mapEntry messages enums fields) ::
      listedAll keep (outer ++ [name]) messages

/-- Messages, and what is nested in them, as far as `keep` admits them. -/
def listedAll (keep : MessageDescriptor → Bool) (outer : List String) :
    List MessageDescriptor → List (List String × MessageDescriptor)
  | [] => []
  | m :: rest => (if keep m then m.listed keep outer else []) ++ listedAll keep outer rest

end

namespace FileDescriptor

/-- All messages of a file, each with the names that lead to it. -/
def allMessages (f : FileDescriptor) : List (List String × MessageDescriptor) :=
  listedAll (fun _ => true) [] f.messages

/-- The full name of what some names lead to. -/
def fullName (f : FileDescriptor) (path : List String) : String :=
  joinDots (packageParts f.package ++ path)

/-- How a type of the file is written: its full name with a dot in front. -/
def typeName (f : FileDescriptor) (path : List String) : String := "." ++ f.fullName path

/-- The names of a file are told apart, as they are in every file that a pool of descriptors
takes. Fields may have types of other files. -/
structure WellNamed (f : FileDescriptor) : Prop where
  unique : (f.allMessages.map fun x => f.typeName x.1).Nodup
  /-- What is stated to be an enum has not the name of a message. -/
  enums : ∀ x ∈ f.allMessages, ∀ d ∈ x.2.fields, ∀ y ∈ f.allMessages,
    d.type ≠ .enum (f.typeName y.1)
  /-- The package has no empty part, but perhaps behind a dot at its end. -/
  package : f.package.toList.getLast? ≠ some '.' → packageParts f.package = segments f.package

end FileDescriptor

theorem lookup_of_mem {α β : Type} [BEq α] [LawfulBEq α] {l : List (α × β)} {a : α} {b : β}
    (unique : (l.map Prod.fst).Nodup) (h : (a, b) ∈ l) : l.lookup a = some b := by
  obtain ⟨before, after, rfl⟩ := List.append_of_mem h
  refine List.lookup_eq_some_iff.mpr ⟨before, after, rfl, fun x inside => ?_⟩
  rw [List.map_append, List.map_cons] at unique
  have apart := (List.nodup_append.mp unique).2.2 x.1 (List.mem_map_of_mem inside) a (by simp)
  simpa using Ne.symm apart

/-- The files of the usual modules are well named. -/
theorem Builtin.wellNamed_files : ∀ entry ∈ Builtin.files, entry.2.WellNamed := by
  have named : ∀ entry ∈ Builtin.files,
      (entry.2.allMessages.map fun x => entry.2.typeName x.1).Nodup ∧
      (∀ x ∈ entry.2.allMessages, ∀ d ∈ x.2.fields, ∀ y ∈ entry.2.allMessages,
        d.type ≠ .enum (entry.2.typeName y.1)) ∧
      packageParts entry.2.package = segments entry.2.package := by
    decide +kernel
  intro entry member
  obtain ⟨unique, enums, package⟩ := named entry member
  exact ⟨unique, enums, fun _ => package⟩

/-! ### Map entries -/

/-- What a message with some names that lead to it is as a map entry, if it is one. -/
def entryOf (scope : List String) (x : List String × MessageDescriptor) :
    Option (String × FieldType × FieldType) :=
  match x.2.isMapEntry, typeOfField? "key" x.2.fields, typeOfField? "value" x.2.fields with
  | true, some key, some value => some (absoluteName (scope ++ x.1), key, value)
  | _, _, _ => none

mutual

theorem mapEntriesOf_eq (scope outer : List String) (m : MessageDescriptor) :
    mapEntriesOf (scope ++ outer) m =
      (m.listed (fun _ => true) outer).filterMap (entryOf scope) := by
  obtain ⟨name, mapEntry, messages, enums, fields⟩ := m
  unfold mapEntriesOf MessageDescriptor.listed
  dsimp only
  rw [List.filterMap_cons, List.append_assoc, mapEntriesOfAll_eq scope (outer ++ [name]) messages]
  generalize (listedAll (fun _ => true) (outer ++ [name]) messages).filterMap (entryOf scope) = rest
  simp only [entryOf, MessageDescriptor.isMapEntry, MessageDescriptor.fields]
  generalize typeOfField? "key" fields = key
  generalize typeOfField? "value" fields = value
  cases mapEntry <;> cases key <;> cases value <;> rfl

/-- The map entries of messages are those among all that are nested in them. -/
theorem mapEntriesOfAll_eq (scope outer : List String) (ms : List MessageDescriptor) :
    mapEntriesOfAll (scope ++ outer) ms =
      (listedAll (fun _ => true) outer ms).filterMap (entryOf scope) := by
  cases ms with
  | nil => rfl
  | cons m rest =>
    rw [mapEntriesOfAll, listedAll, if_pos rfl, List.filterMap_append,
      mapEntriesOf_eq scope outer m, mapEntriesOfAll_eq scope outer rest]

end

namespace FileDescriptor

variable {f : FileDescriptor}

/-- The map entries of a file. -/
def entries (f : FileDescriptor) : MapEntries :=
  mapEntriesOfAll (packageParts f.package) f.messages

theorem entries_eq : f.entries = f.allMessages.filterMap (entryOf (packageParts f.package)) := by
  rw [entries, allMessages, ← mapEntriesOfAll_eq, List.append_nil]

theorem mem_entries {name : String} {key value : FieldType} :
    (name, key, value) ∈ f.entries ↔ ∃ x ∈ f.allMessages, x.2.isMapEntry = true ∧
      typeOfField? "key" x.2.fields = some key ∧ typeOfField? "value" x.2.fields = some value ∧
      name = f.typeName x.1 := by
  rw [entries_eq, List.mem_filterMap]
  refine exists_congr fun x => and_congr_right fun _ => ?_
  unfold entryOf
  split
  · next entry key' value' =>
    simp only [Option.some.injEq, Prod.mk.injEq, entry, key', value', true_and]
    constructor
    · rintro ⟨rfl, rfl, rfl⟩
      exact ⟨rfl, rfl, rfl⟩
    · rintro ⟨rfl, rfl, rfl⟩
      exact ⟨rfl, rfl, rfl⟩
  · next other =>
    refine ⟨(nomatch ·), ?_⟩
    rintro ⟨entry, key', value', -⟩
    exact (other key value entry key' value').elim

theorem nodup_entries (named : f.WellNamed) : (f.entries.map Prod.fst).Nodup := by
  refine named.unique.sublist ?_
  rw [entries_eq]
  induction f.allMessages with
  | nil => exact .slnil
  | cons x rest ih =>
    rw [List.filterMap_cons, List.map_cons]
    unfold entryOf
    split
    · exact ih.cons _
    · next found =>
      split at found
      · cases found
        exact ih.cons_cons _
      · cases found

/-! ### Fields -/

/-- Map entries are as compilers make them: nested messages with a key and a value, which are
not used by each other. -/
structure MapsAreNested (f : FileDescriptor) : Prop where
  nested : ∀ m ∈ f.messages, m.isMapEntry = false
  pair : ∀ x ∈ f.allMessages, x.2.isMapEntry = true → x.2.fields.map (·.name) = ["key", "value"]
  used : ∀ x ∈ f.allMessages, x.2.isMapEntry = true → ∀ d ∈ x.2.fields, ∀ y ∈ f.allMessages,
    y.2.isMapEntry = true → d.type ≠ .message (f.typeName y.1)

/-- A field of a document shows a described one: its name, its number and its type, or the
types of the key and the value if its own type is a map entry. -/
inductive ShowsField (f : FileDescriptor) (d : FieldDescriptor) : Field → Prop
  | plain : (∀ x ∈ f.allMessages, x.2.isMapEntry = true → d.type ≠ .message (f.typeName x.1)) →
      ShowsField f d ⟨d.type.text, d.name, d.number, none, none, none, []⟩
  | map {x : List String × MessageDescriptor} {key value : FieldDescriptor} :
      x ∈ f.allMessages → x.2.isMapEntry = true → x.2.fields = [key, value] →
      d.type = .message (f.typeName x.1) →
      ShowsField f d ⟨value.type.text, d.name, d.number, none, some key.type.text, none, []⟩

theorem typeOfField?_of_pair {fields : List FieldDescriptor}
    (h : fields.map (·.name) = ["key", "value"]) :
    ∃ key value, fields = [key, value] ∧ typeOfField? "key" fields = some key.type ∧
      typeOfField? "value" fields = some value.type := by
  rcases fields with _ | ⟨key, _ | ⟨value, _ | ⟨third, more⟩⟩⟩
  case cons.cons.nil =>
    obtain ⟨isKey, isValue⟩ : key.name = "key" ∧ value.name = "value" := by simpa using h
    exact ⟨key, value, rfl, by simp [typeOfField?, isKey], by simp [typeOfField?, isKey, isValue]⟩
  all_goals simp at h

theorem lookup_entries (named : f.WellNamed) (maps : f.MapsAreNested)
    {x : List String × MessageDescriptor} (member : x ∈ f.allMessages)
    (entry : x.2.isMapEntry = true) : ∃ key value, x.2.fields = [key, value] ∧
      f.entries.lookup (f.typeName x.1) = some (key.type, value.type) := by
  obtain ⟨key, value, fields, isKey, isValue⟩ := typeOfField?_of_pair (maps.pair x member entry)
  refine ⟨key, value, fields, lookup_of_mem (nodup_entries named) ?_⟩
  exact mem_entries.mpr ⟨x, member, entry, isKey, isValue, rfl⟩

theorem showsField_toField (named : f.WellNamed) (maps : f.MapsAreNested) (d : FieldDescriptor) :
    f.ShowsField d (d.toField f.entries) := by
  by_cases isMap : ∃ x ∈ f.allMessages, x.2.isMapEntry = true ∧ d.type = .message (f.typeName x.1)
  · obtain ⟨x, member, entry, type⟩ := isMap
    obtain ⟨key, value, fields, found⟩ := lookup_entries named maps member entry
    have shown_ := ShowsField.map (d := d) member entry fields type
    simpa only [FieldDescriptor.toField, type, found] using shown_
  · have plain : ∀ x ∈ f.allMessages, x.2.isMapEntry = true → d.type ≠ .message (f.typeName x.1) :=
      fun x member entry type => isMap ⟨x, member, entry, type⟩
    have shown_ := ShowsField.plain plain
    cases type : d.type with
    | message name =>
      have absent : f.entries.lookup name = none := by
        refine List.lookup_eq_none_iff.mpr fun ⟨name', key, value⟩ inside => ?_
        obtain ⟨x, member, entry, -, -, rfl⟩ := mem_entries.mp inside
        have other : name ≠ f.typeName x.1 := fun same => plain x member entry (same ▸ type)
        simpa using other
      simpa only [FieldDescriptor.toField, type, absent] using shown_
    | _ => simpa only [FieldDescriptor.toField, type] using shown_

/-- Only a field with the type of an entry would be written like one. -/
theorem text_ne_typeName (named : f.WellNamed) {x y : List String × MessageDescriptor}
    {d : FieldDescriptor} (owner : x ∈ f.allMessages) (member : d ∈ x.2.fields)
    (other : y ∈ f.allMessages) (type : d.type ≠ .message (f.typeName y.1)) :
    d.type.text ≠ f.typeName y.1 := by
  intro same
  cases sort : d.type with
  | message name =>
    rw [sort] at same
    exact type (sort.trans (congrArg FieldType.message same))
  | enum name =>
    rw [sort] at same
    exact named.enums x owner d member y other (sort.trans (congrArg FieldType.enum same))
  | scalar scalar =>
    rw [sort] at same
    have dot : (f.typeName y.1).toList.head? = some '.' := by simp [typeName]
    rw [← same] at dot
    cases scalar <;> exact absurd dot (by decide)

/-- No part of a shown field has the type of a map entry. -/
theorem ShowsField.type_ne (named : f.WellNamed) (maps : f.MapsAreNested)
    {x y : List String × MessageDescriptor} {d : FieldDescriptor} {shown_ : Field} {type : String}
    (h : f.ShowsField d shown_) (owner : x ∈ f.allMessages) (member : d ∈ x.2.fields)
    (written : shown_.type = type ∨ shown_.mapKey = some type) (other : y ∈ f.allMessages)
    (entry : y.2.isMapEntry = true) : type ≠ f.typeName y.1 := by
  cases h with
  | plain plain =>
    rcases written with rfl | none_
    · exact text_ne_typeName named owner member other (plain y other entry)
    · cases none_
  | @map z key value isMessage isEntry fields _ =>
    have part {part : FieldDescriptor} (inside : part ∈ z.2.fields) :
        part.type.text ≠ f.typeName y.1 :=
      text_ne_typeName named isMessage inside other (maps.used z isMessage isEntry part inside y
        other entry)
    rcases written with rfl | isKey
    · exact part (by simp [fields])
    · cases isKey
      exact part (by simp [fields])

end FileDescriptor

end ProtoNames
