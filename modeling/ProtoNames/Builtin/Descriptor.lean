import ProtoNames.DottedName
import ProtoNames.Schema.Basic

/-!
Compiled file descriptors and the documents that they stand for.

A descriptor refers to types by full name, with a dot in front, and has no source text. In
it a map field is a field whose type is a nested *map entry* message with a `key` and a
`value`; the document has the map field itself and no entry. Inside a message the document
lists nested messages, enums and fields, in this order.
-/

namespace ProtoNames

open Text

/-! ### Descriptors -/

/-- The types that need no declaration. -/
inductive Scalar
  | double | float | int64 | uint64 | int32 | fixed64 | fixed32 | bool | string | bytes
  | uint32 | sfixed32 | sfixed64 | sint32 | sint64
  deriving DecidableEq, Repr

/-- All scalar types. -/
def Scalar.all : List Scalar :=
  [.double, .float, .int64, .uint64, .int32, .fixed64, .fixed32, .bool, .string, .bytes,
   .uint32, .sfixed32, .sfixed64, .sint32, .sint64]

/-- How a scalar type is written. -/
def Scalar.name : Scalar → String
  | .double => "double"
  | .float => "float"
  | .int64 => "int64"
  | .uint64 => "uint64"
  | .int32 => "int32"
  | .fixed64 => "fixed64"
  | .fixed32 => "fixed32"
  | .bool => "bool"
  | .string => "string"
  | .bytes => "bytes"
  | .uint32 => "uint32"
  | .sfixed32 => "sfixed32"
  | .sfixed64 => "sfixed64"
  | .sint32 => "sint32"
  | .sint64 => "sint64"

/-- The scalar type that a name is, if any. -/
def Scalar.ofName? (name : String) : Option Scalar :=
  Scalar.all.find? fun s => s.name == name

/-- The type of a described field. The name of a declared type is its full name with a dot
in front. -/
inductive FieldType
  | scalar (s : Scalar)
  | message (name : String)
  | enum (name : String)
  deriving DecidableEq, Repr

/-- A field of a described message. -/
structure FieldDescriptor where
  name : String
  number : Int
  type : FieldType
  deriving DecidableEq, Repr

/-- A described enum. -/
structure EnumDescriptor where
  name : String
  values : List (String × Int)
  deriving DecidableEq, Repr

/-- A described message. -/
inductive MessageDescriptor
  | mk (name : String) (mapEntry : Bool) (messages : List MessageDescriptor)
      (enums : List EnumDescriptor) (fields : List FieldDescriptor)
  deriving Repr

/-- A described file. -/
structure FileDescriptor where
  path : String
  package : String
  messages : List MessageDescriptor
  enums : List EnumDescriptor
  deriving Repr

namespace MessageDescriptor

/-- The name of a described message. -/
def name : MessageDescriptor → String
  | .mk name _ _ _ _ => name

/-- Whether a message only stands for the entries of a map. -/
def isMapEntry : MessageDescriptor → Bool
  | .mk _ mapEntry _ _ _ => mapEntry

/-- The fields of a described message. -/
def fields : MessageDescriptor → List FieldDescriptor
  | .mk _ _ _ _ fields => fields

end MessageDescriptor

/-! ### Map entries -/

/-- How a field's type is written in the document. -/
def FieldType.text : FieldType → String
  | .scalar s => s.name
  | .message name => name
  | .enum name => name

/-- The type of the first field of a name. -/
def typeOfField? (name : String) (fields : List FieldDescriptor) : Option FieldType :=
  (fields.find? fun f => f.name == name).map (·.type)

/-- Key and value types of a map, by the name of its entry message. -/
abbrev MapEntries := List (String × FieldType × FieldType)

/-- The full name of what segments lead to, with a dot in front. -/
def absoluteName (path : List String) : String := "." ++ joinDots path

/-- The parts of a dotted name. Empty parts are kept. -/
def nameParts (name : List Char) : List String := (pieces '.' name).map String.ofList

/-- The parts of a package's name. -/
def packageParts (package : String) : List String :=
  if package.isEmpty then [] else nameParts package.toList

mutual

/-- The map entries among a message and what is nested in it. -/
def mapEntriesOf (scope : List String) : MessageDescriptor → MapEntries
  | .mk name mapEntry messages _ fields =>
    let path := scope ++ [name]
    let here : MapEntries :=
      match mapEntry, typeOfField? "key" fields, typeOfField? "value" fields with
      | true, some key, some value => [(absoluteName path, key, value)]
      | _, _, _ => []
    here ++ mapEntriesOfAll path messages

/-- The map entries among messages and what is nested in them. -/
def mapEntriesOfAll (scope : List String) : List MessageDescriptor → MapEntries
  | [] => []
  | m :: rest => mapEntriesOf scope m ++ mapEntriesOfAll scope rest

end

/-! ### Documents -/

/-- The field that a descriptor stands for. A map's entry is nested in the message that has the
map, and so it is among the entries of the file itself. -/
def FieldDescriptor.toField (entries : MapEntries) (f : FieldDescriptor) : Field :=
  let entry? :=
    match f.type with
    | .message name => entries.lookup name
    | _ => none
  let (mapKey, type) :=
    match entry? with
    | some (key, value) => (some key.text, value.text)
    | none => (none, f.type.text)
  { type, name := f.name, number := f.number, label := none, mapKey, oneof := none, options := [] }

/-- The enum that a descriptor stands for. -/
def EnumDescriptor.toNode (e : EnumDescriptor) : Node :=
  .block (.enum e.name) (e.values.map fun (name, number) => .leaf (.enumValue name number))

mutual

/-- The message that a descriptor stands for. -/
def MessageDescriptor.toNode (entries : MapEntries) : MessageDescriptor → Node
  | .mk name _ messages enums fields =>
    .block (.message name)
      (messageNodes entries messages ++ enums.map EnumDescriptor.toNode ++
        fields.map fun f => .leaf (.field (f.toField entries)))

/-- The messages that descriptors stand for; map entries stand for none. -/
def messageNodes (entries : MapEntries) : List MessageDescriptor → List Node
  | [] => []
  | m :: rest =>
    if m.isMapEntry then messageNodes entries rest
    else m.toNode entries :: messageNodes entries rest

end

/-- The document that a file descriptor stands for. A file's own messages are no map
entries. -/
def FileDescriptor.toDocument (f : FileDescriptor) : Document :=
  let entries := mapEntriesOfAll (packageParts f.package) f.messages
  let package : List Node := if f.package.isEmpty then [] else [.leaf (.package f.package)]
  ⟨f.path, none,
    package ++ f.messages.map (·.toNode entries) ++ f.enums.map EnumDescriptor.toNode⟩

end ProtoNames
