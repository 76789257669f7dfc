import ProtoNames.Number.Shortest
import ProtoNames.Schema.Grammar
import ProtoNames.Token.Lexeme

/-!
Printing documents.

A document is printed as the list of its lexemes. Names are spelled word by word, with the
dots and parentheses between the words. Numbers are printed in decimal, with a minus in front
of negative ones. Every member of a oneof is printed in a oneof block of its own. What the
grammar reads and drops (reserved numbers, the options of groups, oneofs and methods) is no
part of a document and so is not printed.
-/

namespace ProtoNames

open Number

/-! ### Names and numbers -/

/-- The word that some characters make up, if there are any. -/
def wordOf : List Char → List Lexeme
  | [] => []
  | c :: cs => [.word (String.ofList (c :: cs))]

/-- The lexemes of a text that goes on with some characters after the beginning of a word. -/
def spellFrom (word : List Char) : List Char → List Lexeme
  | [] => wordOf word
  | c :: rest =>
    match Symbol.ofChar? c with
    | some s => wordOf word ++ .symbol s :: spellFrom [] rest
    | none => spellFrom (word ++ [c]) rest

/-- The words and delimiters of a dotted name or an option's name. -/
def spell (name : String) : List Lexeme := spellFrom [] name.toList

/-- The minus of a negative number. -/
def printedSign (negative : Bool) : List Lexeme :=
  if negative then [.symbol .minus] else []

/-- An integer in decimal. -/
def printedInt (n : Int) : List Lexeme :=
  printedSign (n < 0) ++ [.number (toString n.natAbs)]

/-- A double in decimal. Infinity and what is no number have names. -/
def printedDouble (x : Binary64) : List Lexeme :=
  let text := (Binary64.mk false x.magnitude).text
  printedSign x.negative ++ [if x.magnitude < Binary64.infinite then .number text else .word text]

/-! ### Options -/

/-- A constant. Texts are printed as strings. -/
def Constant.printed : Constant → List Lexeme
  | .number (.int n) => printedInt n
  | .number (.double x) => printedDouble x
  | .bool b => [.word (if b then "true" else "false")]
  | .text s => [.string s]

/-- An option's name, equals sign and value. -/
def Setting.printed (o : Setting) : List Lexeme :=
  spell o.name ++ .symbol .equals :: o.value.printed

/-- Options in brackets, or nothing if there are no options. -/
def printedSettings : List Setting → List Lexeme
  | [] => []
  | first :: others =>
    .symbol .lbracket :: first.printed ++
      others.flatMap (fun o => .symbol .comma :: o.printed) ++ [.symbol .rbracket]

/-! ### Declarations -/

/-- A label, if there is one. -/
def printedLabel (label : Option Label) : List Lexeme :=
  label.toList.map fun l => .keyword (Grammar.Label.keyword l)

/-- The type of a field or map. -/
def Field.printedType (f : Field) : List Lexeme :=
  match f.mapKey with
  | none => spell f.type
  | some key =>
    .keyword .map :: .symbol .langle :: spell key ++ .symbol .comma :: spell f.type ++
      [.symbol .rangle]

/-- A field behind its label. -/
def Field.printedBare (f : Field) : List Lexeme :=
  f.printedType ++ .word f.name :: .symbol .equals :: printedInt f.number ++
    printedSettings f.options ++ [.symbol .semicolon]

/-- A field apart from its oneof. -/
def Field.printedAlone (f : Field) : List Lexeme := printedLabel f.label ++ f.printedBare

/-- A field. A member of a oneof has a oneof block of its own. -/
def Field.printed (f : Field) : List Lexeme :=
  match f.oneof with
  | none => f.printedAlone
  | some oneof =>
    .keyword .oneof :: .word oneof :: .symbol .lbrace :: f.printedAlone ++ [.symbol .rbrace]

/-- The word that qualifies an import. -/
def ImportMode.printed : ImportMode → List Lexeme
  | .plain => []
  | .public => [.keyword .public]
  | .weak => [.keyword .weak]

/-- A method's parameter or result. -/
def printedRpcType (streaming : Bool) (type : String) : List Lexeme :=
  .symbol .lparen :: (if streaming then [.keyword .stream] else []) ++ spell type ++
    [.symbol .rparen]

/-- A method. -/
def Rpc.printed (r : Rpc) : List Lexeme :=
  .keyword .rpc :: .word r.name :: printedRpcType r.clientStreaming r.input ++
    .keyword .returns :: printedRpcType r.serverStreaming r.output ++ [.symbol .semicolon]

/-- A declaration without a body. -/
def Leaf.printed : Leaf → List Lexeme
  | .package name => .keyword .package :: spell name ++ [.symbol .semicolon]
  | .importing i => .keyword .import :: i.mode.printed ++ [.string i.path, .symbol .semicolon]
  | .option o => .keyword .option :: o.printed ++ [.symbol .semicolon]
  | .field f => f.printed
  | .enumValue name number =>
    .word name :: .symbol .equals :: printedInt number ++ [.symbol .semicolon]
  | .rpc r => r.printed

/-- What stands before the opening brace of a block. -/
def Header.printed : Header → List Lexeme
  | .enum name => [.keyword .enum, .word name]
  | .message name => [.keyword .message, .word name]
  | .group name number label =>
    printedLabel label ++ .keyword .group :: .word name :: .symbol .equals :: printedInt number
  | .extend target => .keyword .extend :: spell target
  | .service name => [.keyword .service, .word name]

mutual

/-- A declaration and all that is declared inside it. -/
def Node.printed : Node → List Lexeme
  | .leaf l => l.printed
  | .block header body =>
    header.printed ++ .symbol .lbrace :: printedNodes body ++ [.symbol .rbrace]

/-- Declarations one after the other. -/
def printedNodes : List Node → List Lexeme
  | [] => []
  | n :: others => n.printed ++ printedNodes others

end

/-- The statement of a dialect, if one is stated. -/
def printedDialect : Option String → List Lexeme
  | none => []
  | some dialect =>
    [.keyword .dialect, .symbol .equals, .string dialect, .symbol .semicolon]

/-- A document. -/
def Document.printed (d : Document) : List Lexeme :=
  printedDialect d.dialect ++ printedNodes d.statements

end ProtoNames
