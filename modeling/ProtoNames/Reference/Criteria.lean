import ProtoNames.Number.Shortest
import ProtoNames.Schema.QualifiedName
import ProtoNames.Text.Quoted

/-!
What a reference can refer to.

There are four kinds of reference. For each, *criteria* narrow down what is wanted: the
kinds of types, the message that is extended, the kind of element that an option is for,
the enum whose value is meant. Callers may pass anything as criteria; `Wanted.ofCriteria`
accepts what makes sense for the kind of reference, and everything later works on
`Wanted`.
-/

namespace ProtoNames

open Number Text

/-- The kinds of reference. -/
inductive ReferenceKind
  | type | extension | option | literal
  deriving DecidableEq, Repr

/-- All kinds of reference. -/
def ReferenceKind.all : List ReferenceKind := [.type, .extension, .option, .literal]

/-- The word for a kind of reference. -/
def ReferenceKind.word : ReferenceKind → String
  | .type => "type"
  | .extension => "extension"
  | .option => "option"
  | .literal => "literal"

/-- The kind of reference for a word. -/
def ReferenceKind.ofWord? (word : String) : Option ReferenceKind :=
  ReferenceKind.all.find? fun r => r.word == word

/-- The kinds of element that an option can be for. -/
inductive OptionType
  | file | message | field | enum | enumValue | service | method
  deriving DecidableEq, Repr

/-- The message whose extensions are the options of a kind, within its package. -/
def OptionType.carrier : OptionType → String
  | .file => "FileOptions"
  | .message => "MessageOptions"
  | .field => "FieldOptions"
  | .enum => "EnumOptions"
  | .enumValue => "EnumValueOptions"
  | .service => "ServiceOptions"
  | .method => "MethodOptions"

/-- The full name of that message. -/
def OptionType.messageName (o : OptionType) : String := "google.protobuf." ++ o.carrier

/-- The name of a kind of option in messages. -/
def OptionType.name : OptionType → String
  | .file => "FILE"
  | .message => "MESSAGE"
  | .field => "FIELD"
  | .enum => "ENUM"
  | .enumValue => "ENUM_VALUE"
  | .service => "SERVICE"
  | .method => "METHOD"

/-- The kind of option that can be declared directly inside an element. -/
def OptionType.inside? : Kind → Option OptionType
  | .document => some .file
  | .message => some .message
  | .group => some .message
  | .field => some .field
  | .enum => some .enum
  | .enumValue => some .enumValue
  | .service => some .service
  | .rpc => some .method
  | _ => none

/-! ### Criteria -/

/-- A class of things that may be asked for: a kind of element, or the integers. -/
inductive Sortal
  | element (k : Kind)
  | integer
  deriving DecidableEq, Repr

/-- A plain value. -/
inductive Plain
  | none
  | bool (b : Bool)
  | int (n : Int)
  | double (x : Binary64)
  | text (s : String)
  | tuple (items : List Plain)
  | list (items : List Plain)
  /-- Values by name. -/
  | table (entries : List (String × Plain))
  deriving Repr

/-- What a caller may pass as criteria. -/
inductive Criteria
  | sortal (s : Sortal)
  | sortals (s : List Sortal)
  | option (o : OptionType)
  | anyEnum
  | element (e : Element)
  | plain (v : Plain)
  deriving Repr

/-- What is wanted, checked. -/
inductive Wanted
  /-- Types of these kinds, all among message, group and enum. -/
  | types (kinds : List Kind)
  /-- Extensions of the message with these name segments. -/
  | extensions (extended : List String)
  /-- The values of an enum, or of every enum. -/
  | values (enum : Option Element)
  deriving Repr

/-- Why criteria make no sense. -/
inductive CriteriaError
  | unsuitable (reference : ReferenceKind) (given : Criteria)
  | noOptionsIn (k : Kind)
  deriving Repr

/-! ### Messages -/

/-- The name of a kind of element in messages. -/
def Kind.title : Kind → String
  | .document => "Document"
  | .package => "Package"
  | .importing => "Import"
  | .option => "Option"
  | .field => "Field"
  | .enumValue => "EnumValue"
  | .enum => "Enum"
  | .message => "Message"
  | .group => "Group"
  | .extend => "Extend"
  | .rpc => "Rpc"
  | .service => "Service"

/-- A title with the mark of schema elements. -/
def Kind.protoTitle (k : Kind) : String := "Proto" ++ k.title

/-- A class in messages. -/
def Sortal.text : Sortal → String
  | .element k => "<class 'protoc_scope.parser.proto_ast." ++ k.protoTitle ++ "'>"
  | .integer => "<class 'int'>"

/-- Texts in round brackets; one alone is followed by a comma. -/
def tupleText : List String → String
  | [s] => "(" ++ s ++ ",)"
  | items => "(" ++ ", ".intercalate items ++ ")"

mutual

/-- A plain value in messages. -/
def Plain.repr : Plain → String
  | .none => "None"
  | .bool true => "True"
  | .bool false => "False"
  | .int n => toString n
  | .double x => x.text
  | .text s => quoted s
  | .tuple items => tupleText (plainTexts items)
  | .list items => "[" ++ ", ".intercalate (plainTexts items) ++ "]"
  | .table entries => "\x7b" ++ ", ".intercalate (entryTexts entries) ++ "\x7d"

/-- Plain values in messages, one by one. -/
def plainTexts : List Plain → List String
  | [] => []
  | v :: rest => v.repr :: plainTexts rest

/-- Named values in messages, one by one. -/
def entryTexts : List (String × Plain) → List String
  | [] => []
  | (name, v) :: rest => (quoted name ++ ": " ++ v.repr) :: entryTexts rest

end

/-- Criteria in messages. An element has no short form. -/
def Criteria.text? : Criteria → Option String
  | .sortal s => some s.text
  | .sortals s => some (tupleText (s.map Sortal.text))
  | .option o => some ("<OptionType." ++ o.name ++ ": '" ++ o.carrier ++ "'>")
  | .anyEnum => some "ANY_ENUM"
  | .element _ => none
  | .plain v => some v.repr

/-- What a kind of reference asks for. -/
def ReferenceKind.demand : ReferenceKind → String
  | .type => "Type criteria must be ProtoMessage, ProtoGroup, ProtoEnum or a tuple of them"
  | .extension => "Extension criteria must be a message or a non-empty dotted name"
  | .option => "Custom option criteria must be an OptionType"
  | .literal => "Literal criteria must be a ProtoEnum or ANY_ENUM"

/-- The words for a criteria error, unless it is about an element. -/
def CriteriaError.message? : CriteriaError → Option String
  | .unsuitable reference given => given.text?.map fun t => reference.demand ++ ", got " ++ t
  | .noOptionsIn k => some ("Options cannot be declared in " ++ k.protoTitle)

/-! ### Checking -/

/-- The kinds that can be the type of a field. -/
def typeKinds : List Kind := [.message, .group, .enum]

/-- The kind that can be the type of a field, if the class is one. -/
def Sortal.typeKind? : Sortal → Option Kind
  | .element k => if k ∈ typeKinds then some k else none
  | .integer => none

namespace Wanted

/-- The types that classes name, if they do and there is one at least. -/
def ofSortals? (s : List Sortal) : Option Wanted :=
  if s.isEmpty then none else (s.mapM Sortal.typeKind?).map types

/-- The extensions of the message that a dotted name names. -/
def ofExtendedName? (name : String) : Option Wanted :=
  let extended := segments name
  if extended.isEmpty then none else some (extensions extended)

/-- What criteria mean for a kind of reference, if they make sense. -/
def ofCriteria? : ReferenceKind → Criteria → Option Wanted
  | .type, .sortal s => ofSortals? [s]
  | .type, .sortals s => ofSortals? s
  | .extension, .element e =>
    if e.kind = .message ∨ e.kind = .group then some (extensions (segments e.fullName)) else none
  | .extension, .plain (.text name) => ofExtendedName? name
  | .option, .option o => some (extensions (segments o.messageName))
  | .literal, .anyEnum => some (values none)
  | .literal, .element e => if e.kind = .enum then some (values (some e)) else none
  | _, _ => none

/-- What criteria mean for a kind of reference. -/
def ofCriteria (r : ReferenceKind) (c : Criteria) : Except CriteriaError Wanted :=
  match ofCriteria? r c with
  | some w => .ok w
  | none => .error (.unsuitable r c)

end Wanted

/-- The kind of option that can be declared directly inside an element. -/
def OptionType.inside (k : Kind) : Except CriteriaError OptionType :=
  match OptionType.inside? k with
  | some o => .ok o
  | none => .error (.noOptionsIn k)

end ProtoNames
