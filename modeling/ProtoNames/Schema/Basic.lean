import ProtoNames.Number.Literal

/-!
The tree of a schema file.

A document is a list of nodes. A node is a leaf (package, import, option, field, enum
value, rpc) or a block: a header (enum, message, group, extend, service) with a body of
nodes. Members of a oneof stand in the body of their message and carry the oneof's name.
-/

namespace ProtoNames

open Number

/-- The value of an option. A bare identifier and an aggregate are kept as text. -/
inductive Constant
  | number (n : Number)
  | bool (b : Bool)
  | text (s : String)
  deriving DecidableEq, Repr

/-- An option and its value. -/
structure Setting where
  name : String
  value : Constant
  deriving DecidableEq, Repr

/-- How a field's presence is declared. -/
inductive Label
  | «optional» | required | repeated
  deriving DecidableEq, Repr

/-- A field, with the options in its brackets. -/
structure Field where
  type : String
  name : String
  number : Int
  label : Option Label
  mapKey : Option String
  oneof : Option String
  options : List Setting
  deriving DecidableEq, Repr

/-- How an import is qualified. A public import is passed on to importers. -/
inductive ImportMode
  | plain | «public» | weak
  deriving DecidableEq, Repr

/-- An import statement. -/
structure Import where
  path : String
  mode : ImportMode
  deriving DecidableEq, Repr

/-- A method of a service. -/
structure Rpc where
  name : String
  input : String
  output : String
  clientStreaming : Bool
  serverStreaming : Bool
  deriving DecidableEq, Repr

/-- A declaration without a body. -/
inductive Leaf
  | package (name : String)
  | importing (i : Import)
  | option (o : Setting)
  | field (f : Field)
  | enumValue (name : String) (number : Int)
  | rpc (r : Rpc)
  deriving DecidableEq, Repr

/-- What stands before the braces of a declaration with a body. -/
inductive Header
  | enum (name : String)
  | message (name : String)
  | group (name : String) (number : Int) (label : Option Label)
  | extend (target : String)
  | service (name : String)
  deriving DecidableEq, Repr

/-- A declaration and all that is declared inside it. -/
inductive Node
  | leaf (l : Leaf)
  | block (header : Header) (body : List Node)
  deriving Repr

-- No equality can be derived, since nodes stand in lists of nodes.
mutual

/-- Whether two nodes are the same. -/
def Node.decEq : (n m : Node) → Decidable (n = m)
  | .leaf l, .leaf l' => decidable_of_iff (l = l') (by simp)
  | .block header body, .block header' body' =>
    have := Node.decEqs body body'
    decidable_of_iff (header = header' ∧ body = body') (by simp)
  | .leaf _, .block _ _ => isFalse (by simp)
  | .block _ _, .leaf _ => isFalse (by simp)

/-- Whether two lists of nodes are the same. -/
def Node.decEqs : (ns ms : List Node) → Decidable (ns = ms)
  | [], [] => isTrue rfl
  | n :: ns, m :: ms =>
    have := Node.decEq n m
    have := Node.decEqs ns ms
    decidable_of_iff (n = m ∧ ns = ms) (by simp)
  | [], _ :: _ => isFalse (by simp)
  | _ :: _, [] => isFalse (by simp)

end

instance : DecidableEq Node := Node.decEq

/-- A schema file: where it is, the dialect that it states, and its declarations. -/
structure Document where
  uri : String
  dialect : Option String
  statements : List Node
  deriving DecidableEq, Repr

/-! ### Kinds -/

/-- The kinds of elements. -/
inductive Kind
  | document | package | importing | option | field | enumValue | enum | message | group
  | extend | rpc | service
  deriving DecidableEq, Repr

/-- The kind of a leaf. -/
def Leaf.kind : Leaf → Kind
  | .package _ => .package
  | .importing _ => .importing
  | .option _ => .option
  | .field _ => .field
  | .enumValue _ _ => .enumValue
  | .rpc _ => .rpc

/-- The kind of a block. -/
def Header.kind : Header → Kind
  | .enum _ => .enum
  | .message _ => .message
  | .group _ _ _ => .group
  | .extend _ => .extend
  | .service _ => .service

namespace Node

/-- The kind of a node. -/
def kind : Node → Kind
  | .leaf l => l.kind
  | .block header _ => header.kind

/-- What is declared directly inside a node. -/
def body : Node → List Node
  | .leaf _ => []
  | .block _ body => body

/-- The options in a field's brackets. -/
def settings : Node → List Setting
  | .leaf (.field f) => f.options
  | _ => []

/-- The name that a declaration gives to its element. Packages, imports, options and
extend blocks declare no element of their own. -/
def name? : Node → Option String
  | .leaf (.field f) => some f.name
  | .leaf (.enumValue name _) => some name
  | .leaf (.rpc r) => some r.name
  | .block (.enum name) _ => some name
  | .block (.message name) _ => some name
  | .block (.group name _ _) _ => some name
  | .block (.service name) _ => some name
  | _ => none

/-- Messages and groups open a naming scope for what is declared inside them. -/
def opensScope : Node → Bool
  | .block (.message _) _ => true
  | .block (.group _ _ _) _ => true
  | _ => false

end Node

namespace Document

/-- The first package statement. -/
def package? (d : Document) : Option String :=
  d.statements.findSome? fun
    | .leaf (.package name) => some name
    | _ => none

/-- The import statements, in order. -/
def imports (d : Document) : List Import :=
  d.statements.filterMap fun
    | .leaf (.importing i) => some i
    | _ => none

end Document

end ProtoNames
