/-!
Tokens of schema text.

A token is a keyword, a delimiter, an identifier, a number or a string, together with
its text and the position of its first character. A keyword is an ordinary name
wherever the grammar asks for a name.
-/

namespace ProtoNames

/-- Line and column of a character, both counted from 1. -/
structure Position where
  line : Nat
  column : Nat
  deriving DecidableEq, Repr

/-- The words that begin a statement or qualify one. -/
inductive Keyword
  | dialect | package | «import» | «public» | weak | option | message | enum | group
  | extend | extensions | oneof | map | reserved | service | rpc | returns | stream
  | optional | required | repeated
  deriving DecidableEq, Repr

/-- The single-character delimiters. -/
inductive Symbol
  | lbrace | rbrace | lparen | rparen | lbracket | rbracket | langle | rangle
  | semicolon | equals | comma | dot | minus
  deriving DecidableEq, Repr

/-- The sort of a token. -/
inductive TokenKind
  | keyword (k : Keyword)
  | symbol (s : Symbol)
  | identifier
  | number
  | string
  deriving DecidableEq, Repr

/-- A token: its sort, its text and where it begins. The text of a string is what
stands between the quotes. -/
structure Token where
  kind : TokenKind
  text : String
  position : Position
  deriving DecidableEq, Repr

/-- All tokens of a text, and the position where the text ends. -/
structure TokenStream where
  tokens : List Token
  finish : Position
  deriving DecidableEq, Repr

/-! ### Spelling -/

/-- All keywords. -/
def Keyword.all : List Keyword :=
  [.dialect, .package, .import, .public, .weak, .option, .message, .enum, .group, .extend,
   .extensions, .oneof, .map, .reserved, .service, .rpc, .returns, .stream, .optional,
   .required, .repeated]

/-- How a keyword is written. -/
def Keyword.word : Keyword → String
  | .dialect => "syntax"
  | .package => "package"
  | .import => "import"
  | .public => "public"
  | .weak => "weak"
  | .option => "option"
  | .message => "message"
  | .enum => "enum"
  | .group => "group"
  | .extend => "extend"
  | .extensions => "extensions"
  | .oneof => "oneof"
  | .map => "map"
  | .reserved => "reserved"
  | .service => "service"
  | .rpc => "rpc"
  | .returns => "returns"
  | .stream => "stream"
  | .optional => "optional"
  | .required => "required"
  | .repeated => "repeated"

/-- The keyword that a word is, if any. -/
def Keyword.ofWord? (word : String) : Option Keyword :=
  Keyword.all.find? fun k => k.word == word

/-- All delimiters. -/
def Symbol.all : List Symbol :=
  [.lbrace, .rbrace, .lparen, .rparen, .lbracket, .rbracket, .langle, .rangle, .semicolon,
   .equals, .comma, .dot, .minus]

/-- How a delimiter is written. -/
def Symbol.char : Symbol → Char
  | .lbrace => '{'
  | .rbrace => '}'
  | .lparen => '('
  | .rparen => ')'
  | .lbracket => '['
  | .rbracket => ']'
  | .langle => '<'
  | .rangle => '>'
  | .semicolon => ';'
  | .equals => '='
  | .comma => ','
  | .dot => '.'
  | .minus => '-'

/-- The delimiter that a character is, if any. -/
def Symbol.ofChar? (c : Char) : Option Symbol :=
  Symbol.all.find? fun s => s.char == c

/-! ### Names in messages -/

/-- The name of a delimiter in messages. -/
def Symbol.name : Symbol → String
  | .lbrace => "LBRACE"
  | .rbrace => "RBRACE"
  | .lparen => "LPAREN"
  | .rparen => "RPAREN"
  | .lbracket => "LBRACKET"
  | .rbracket => "RBRACKET"
  | .langle => "LANGLE"
  | .rangle => "RANGLE"
  | .semicolon => "SEMICOLON"
  | .equals => "EQUALS"
  | .comma => "COMMA"
  | .dot => "DOT"
  | .minus => "MINUS"

/-- The name of a keyword in messages. -/
def Keyword.name (k : Keyword) : String := k.word.toUpper

/-- The name of a sort of token in messages. -/
def TokenKind.name : TokenKind → String
  | .keyword k => k.name
  | .symbol s => s.name
  | .identifier => "IDENT"
  | .number => "NUMBER"
  | .string => "STRING_LIT"

/-- The name under which the end of the text is reported. -/
def endName : String := "EOF"

/-- Identifiers and keywords can be names. -/
def TokenKind.isName : TokenKind → Bool
  | .keyword _ => true
  | .identifier => true
  | _ => false

end ProtoNames
