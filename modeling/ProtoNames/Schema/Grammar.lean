import ProtoNames.DottedName
import ProtoNames.Schema.Basic
import ProtoNames.Token.Reader
import ProtoNames.Token.Scan

/-!
The grammar of schema files.

Declarations without a body, and the headers of those with one, are read by plain
readers. Bodies are read by `bodyOf`: it takes one *entry* after another, where an entry
is a whole leaf, the header of a block up to its opening brace, or something that
declares nothing. It recurses into blocks and ends because every entry takes a token.

The recursion takes room on the stack, which is counted in *frames*: one for each call that
waits for a body to end. Where there are too few for a block, reading fails as `tooDeep`,
whatever the rest of the text is like.

Which words begin an entry depends on the *region*: the words that begin another
production there are no names, all others are.
-/

namespace ProtoNames

open Number

namespace Grammar

open Reader

/-! ### Names, numbers and constants -/

/-- A name, or names joined by dots; a dot in front makes it absolute. -/
def dottedName : Reader String := do
  let rooted ← accept (.symbol .dot)
  let first ← name
  let others ← afterEach .dot name
  return joinDots (if rooted then "" :: first :: others else first :: others)

/-- The value that a number token was found to have; without one it is refused. -/
def valueOf {α : Type} (t : Token) : Except LiteralError α → Reader α
  | .ok a => pure a
  | .error e => refuseAt (some t) (.literal e)

/-- The number of a field, group or enum value. -/
def integer : Reader Int := do
  let negative ← accept (.symbol .minus)
  let t ← expect .number
  let n ← valueOf t (readInt t.text)
  return withSign negative n

/-- The tokens of a braced group whose opening brace has been taken, at some depth of
nesting. A group that is never closed reaches to the end. -/
def braced : Nat → List Token → List Token × List Token
  | 0, ts => ([], ts)
  | _, [] => ([], [])
  | depth + 1, t :: rest =>
    let (inside, after) :=
      braced (if t.kind == .symbol .lbrace then depth + 2
        else if t.kind == .symbol .rbrace then depth else depth + 1) rest
    (t :: inside, after)

/-- The rest of a braced group after its opening brace. -/
def bracedRest : Reader (List Token) := fun ts => .ok (braced 1 ts)

/-- A braced group, as its tokens. -/
def aggregate : Reader (List Token) := do
  let opening ← symbol .lbrace
  let inside ← bracedRest
  return opening :: inside

/-- A number constant whose sign has been read. -/
def numberConstant (negative : Bool) : Reader Constant := do
  let t ← expect .number
  let n ← valueOf t (readNumber t.text)
  return .number (if negative then -n else n)

/-- A constant that is a name: a number or truth value that has a name of its own, or an
identifier. -/
def namedConstant (negative : Bool) : Reader Constant := do
  let next ← peek
  let word ← dottedName
  if word == "inf" then return .number (.double ⟨negative, Binary64.infinite⟩)
  else if word == "nan" then
    return .number (if negative then -.double Binary64.nan else .double Binary64.nan)
  else if negative then refuseAt next (.signBefore word)
  else if word == "true" then return .bool true
  else if word == "false" then return .bool false
  else return .text word

/-- The text of a list of tokens, with something in between. -/
def textOf (separator : String) (ts : List Token) : String :=
  separator.intercalate (ts.map (·.text))

/-- A constant that is no string and no aggregate, where a token of kind `k` follows its
sign. -/
def signedConstant (negative : Bool) (k : Option TokenKind) : Reader Constant :=
  if k = some .number then numberConstant negative else namedConstant negative

/-- A constant that begins with a token of kind `k`. Strings next to each other are one
string. -/
def constantAt (k : Option TokenKind) : Reader Constant :=
  if k = some .string then do
    let chunks ← takeAll .string
    return .text (textOf "" chunks)
  else if k = some (.symbol .lbrace) then do
    let ts ← aggregate
    return .text (textOf " " ts)
  else do
    let negative ← accept (.symbol .minus)
    let next ← nextKind
    signedConstant negative next

/-- The value of an option. -/
def constant : Reader Constant := do
  let k ← nextKind
  constantAt k

/-! ### Options -/

/-- One part of an option's name: a name, or the name of an extension in parentheses. -/
def optionPart : Reader String := do
  if ← accept (.symbol .lparen) then
    let extension ← dottedName
    let _ ← symbol .rparen
    return "(" ++ extension ++ ")"
  else name

/-- An option's name, equals sign and value. -/
def setting : Reader Setting := do
  let first ← optionPart
  let others ← afterEach .dot optionPart
  let _ ← symbol .equals
  let value ← constant
  return ⟨joinDots (first :: others), value⟩

/-- An option statement. -/
def optionStatement : Reader Leaf := do
  let _ ← keyword .option
  let s ← setting
  let _ ← symbol .semicolon
  return .option s

/-- Options in brackets, if there are any. -/
def bracketedSettings : Reader (List Setting) := do
  if ← accept (.symbol .lbracket) then
    let first ← setting
    let others ← afterEach .comma setting
    let _ ← symbol .rbracket
    return first :: others
  else return []

/-! ### Statements of a file -/

/-- The statement that names the dialect. -/
def dialectStatement : Reader String := do
  let _ ← keyword .dialect
  let _ ← symbol .equals
  let t ← expect .string
  let _ ← symbol .semicolon
  return t.text

/-- The statement that names an edition. All editions are one dialect. -/
def editionStatement : Reader String := do
  let _ ← expect .identifier
  let _ ← symbol .equals
  let _ ← expect .string
  let _ ← symbol .semicolon
  return "editions"

/-- The package statement. -/
def packageStatement : Reader Leaf := do
  let _ ← keyword .package
  let package ← dottedName
  let _ ← symbol .semicolon
  return .package package

/-- The word that qualifies an import. -/
def importMode : Reader ImportMode := do
  if ← accept (.keyword .public) then return .public
  else if ← accept (.keyword .weak) then return .weak
  else return .plain

/-- An import statement. -/
def importStatement : Reader Leaf := do
  let _ ← keyword .import
  let mode ← importMode
  let path ← expect .string
  let _ ← symbol .semicolon
  return .importing ⟨path.text, mode⟩

/-! ### Declarations without a body -/

/-- The word that a label is. -/
def Label.keyword : Label → Keyword
  | .optional => .optional
  | .required => .required
  | .repeated => .repeated

/-- The label of a field or group, if there is one. -/
def label : Reader (Option Label) := do
  if ← accept (.keyword .optional) then return some .optional
  else if ← accept (.keyword .required) then return some .required
  else if ← accept (.keyword .repeated) then return some .repeated
  else return none

/-- Whether a map type comes next. A type may also be named `map`. -/
def startsMap : List Token → Bool
  | t :: u :: _ => t.kind == .keyword .map && u.kind == .symbol .langle
  | _ => false

/-- The key and value types of a map. -/
def mapType : Reader (Option String × String) := do
  let _ ← keyword .map
  let _ ← symbol .langle
  let key ← dottedName
  let _ ← symbol .comma
  let value ← dottedName
  let _ ← symbol .rangle
  return (some key, value)

/-- The type of a field, with the key type if it is a map. -/
def fieldType : Reader (Option String × String) := fun ts =>
  if startsMap ts then mapType ts else ((fun t => (none, t)) <$> dottedName) ts

/-- A field whose label has been read. -/
def field (label : Option Label) : Reader Field := do
  let (mapKey, type) ← fieldType
  let name ← name
  let _ ← symbol .equals
  let number ← integer
  let options ← bracketedSettings
  let _ ← symbol .semicolon
  return { type, name, number, label, mapKey, oneof := none, options }

/-- An enum value. The options in its brackets are read and dropped. -/
def enumValue : Reader Leaf := do
  let name ← name
  let _ ← symbol .equals
  let number ← integer
  let _ ← bracketedSettings
  let _ ← symbol .semicolon
  return .enumValue name number

/-- A method's parameter or result in parentheses: whether it is a stream, and its type. -/
def rpcType : Reader (Bool × String) := do
  let _ ← symbol .lparen
  let streaming ← accept (.keyword .stream)
  let type ← dottedName
  let _ ← symbol .rparen
  return (streaming, type)

/-- What follows a method: a semicolon, or a braced group, which is dropped. -/
def rpcEndAt (k : Option TokenKind) : Reader Unit :=
  if k = some (.symbol .lbrace) then do
    let _ ← aggregate
    return
  else do
    let _ ← symbol .semicolon
    return

/-- A method of a service. -/
def rpc : Reader Leaf := do
  let _ ← keyword .rpc
  let name ← name
  let (clientStreaming, input) ← rpcType
  let _ ← keyword .returns
  let (serverStreaming, output) ← rpcType
  let next ← nextKind
  rpcEndAt next
  return .rpc { name, input, output, clientStreaming, serverStreaming }

/-! ### Headers -/

/-- The header of a block that a keyword and a name begin, with its opening brace. -/
def namedHeader (k : Keyword) : Reader String := do
  let _ ← keyword k
  let name ← name
  let _ ← symbol .lbrace
  return name

/-- The header of an extend block. -/
def extendHeader : Reader Header := do
  let _ ← keyword .extend
  let target ← dottedName
  let _ ← symbol .lbrace
  return .extend target

/-- The header of a group whose label has been read. The options in its brackets are read
and dropped. -/
def groupHeader (label : Option Label) : Reader Header := do
  let _ ← keyword .group
  let name ← name
  let _ ← symbol .equals
  let number ← integer
  let _ ← bracketedSettings
  let _ ← symbol .lbrace
  return .group name number label

/-! ### Entries of bodies -/

/-- What stands between a pair of braces. -/
inductive Region
  | message | oneof | extend | enum | service
  deriving DecidableEq, Repr

/-- The region of a block's body. -/
def regionOf : Header → Region
  | .enum _ => .enum
  | .message _ => .message
  | .group _ _ _ => .message
  | .extend _ => .extend
  | .service _ => .service

/-- One entry of a body. -/
inductive Entry
  /-- The body ends here; nothing has been taken. -/
  | close
  /-- Something that declares nothing has been taken. -/
  | skip
  | leaf (l : Leaf)
  /-- A header up to its opening brace. -/
  | header (h : Header)
  /-- A oneof up to its opening brace. -/
  | oneof (name : String)
  deriving DecidableEq, Repr

/-- The tokens after the next semicolon. -/
def afterSemicolon : List Token → List Token
  | [] => []
  | t :: rest => if t.kind == .symbol .semicolon then rest else afterSemicolon rest

/-- Takes everything up to the next semicolon or the end of the text. -/
def skipToSemicolon : Reader Unit := fun ts => .ok ((), afterSemicolon ts)

/-- Passes over a statement that a keyword begins, whatever stands in it. -/
def skipStatement (k : Keyword) : Reader Entry := do
  let _ ← keyword k
  skipToSemicolon
  return .skip

/-- A field, or the header of a group, whose label has been read and which begins with a
token of kind `k`. -/
def fieldOrGroupAt (label : Option Label) (k : Option TokenKind) : Reader Entry :=
  if k = some (.keyword .group) then .header <$> groupHeader label
  else (.leaf ∘ .field) <$> field label

/-- A field, or the header of a group. -/
def fieldOrGroup : Reader Entry := do
  let label ← label
  let next ← nextKind
  fieldOrGroupAt label next

/-- An entry of a message or group that begins with a token of kind `k`. -/
def messageEntryAt : TokenKind → Reader Entry
  | .keyword .message => (.header ∘ .message) <$> namedHeader .message
  | .keyword .enum => (.header ∘ .enum) <$> namedHeader .enum
  | .keyword .extend => .header <$> extendHeader
  | .keyword .option => .leaf <$> optionStatement
  | .keyword .oneof => .oneof <$> namedHeader .oneof
  | .keyword .reserved => skipStatement .reserved
  | .keyword .extensions => skipStatement .extensions
  | _ => fieldOrGroup

/-- An entry of a oneof. Its options are passed over. -/
def oneofEntryAt : TokenKind → Reader Entry
  | .keyword .option => skipStatement .option
  | _ => fieldOrGroup

/-- An entry of an enum. -/
def enumEntryAt : TokenKind → Reader Entry
  | .keyword .option => .leaf <$> optionStatement
  | .keyword .reserved => skipStatement .reserved
  | _ => .leaf <$> enumValue

/-- An entry of a service. -/
def serviceEntryAt : TokenKind → Reader Entry
  | .keyword .rpc => .leaf <$> rpc
  | .keyword .option => .leaf <$> optionStatement
  | _ => refuse .notInService

/-- A semicolon on its own. -/
def lonelySemicolon : Reader Entry := do
  let _ ← symbol .semicolon
  return .skip

/-- An entry of a region that begins with a token of kind `k`. -/
def entryAt (r : Region) (k : TokenKind) : Reader Entry :=
  if k = .symbol .semicolon then lonelySemicolon
  else
    match r with
    | .message => messageEntryAt k
    | .oneof => oneofEntryAt k
    | .extend => fieldOrGroup
    | .enum => enumEntryAt k
    | .service => serviceEntryAt k

/-- The entry of a region that comes next, given the kind of the next token. -/
def entryFrom (r : Region) : Option TokenKind → Reader Entry
  | none => pure .close
  | some k => if k = .symbol .rbrace then pure .close else entryAt r k

/-- The next entry of a region. -/
def entry (r : Region) : Reader Entry := do
  let k ← nextKind
  entryFrom r k

/-! ### What the productions leave -/

instance : Takes dottedName := by unfold dottedName; infer_instance

instance {α : Type} (t : Token) (value : Except LiteralError α) : Shrinks (valueOf t value) := by
  cases value <;> (unfold valueOf; infer_instance)

instance : Takes integer := by unfold integer; infer_instance

theorem braced_suffix (depth : Nat) (ts : List Token) : (braced depth ts).2 <:+ ts := by
  fun_induction braced depth ts with
  | case1 => exact List.suffix_refl _
  | case2 => exact List.suffix_refl _
  | case3 depth t rest inside after h ih =>
    rw [h] at ih
    exact ih.trans (List.suffix_cons t rest)

instance : Shrinks bracedRest where
  suffix ts _ rest h := by
    have : (braced 1 ts).2 = rest := congrArg Prod.snd (Except.ok.inj h)
    exact this ▸ braced_suffix 1 ts

instance : Takes aggregate := by unfold aggregate; infer_instance

instance (negative : Bool) : Takes (numberConstant negative) := by
  unfold numberConstant; infer_instance

instance (negative : Bool) : Takes (namedConstant negative) := by
  unfold namedConstant; infer_instance

instance (negative : Bool) (k : Option TokenKind) : Takes (signedConstant negative k) := by
  unfold signedConstant; infer_instance

instance (k : Option TokenKind) : Shrinks (constantAt k) := by
  unfold constantAt; infer_instance

instance : Shrinks constant := by unfold constant; infer_instance

instance : Takes optionPart := by unfold optionPart; infer_instance

instance : Takes setting := by unfold setting; infer_instance

instance : Takes optionStatement := by unfold optionStatement; infer_instance

instance : Shrinks bracketedSettings := by unfold bracketedSettings; infer_instance

instance : Takes dialectStatement := by unfold dialectStatement; infer_instance

instance : Takes editionStatement := by unfold editionStatement; infer_instance

instance : Takes packageStatement := by unfold packageStatement; infer_instance

instance : Shrinks importMode := by unfold importMode; infer_instance

instance : Takes importStatement := by unfold importStatement; infer_instance

instance : Shrinks label := by unfold label; infer_instance

instance : Takes mapType := by unfold mapType; infer_instance

instance : Takes fieldType where
  suffix ts _ _ h := by
    unfold fieldType at h
    split at h
    · exact Shrinks.suffix h
    · exact Shrinks.suffix h
  shorter ts _ _ h := by
    unfold fieldType at h
    split at h
    · exact Takes.shorter h
    · exact Takes.shorter h

instance (label : Option Label) : Takes (field label) := by unfold field; infer_instance

instance : Takes enumValue := by unfold enumValue; infer_instance

instance : Takes rpcType := by unfold rpcType; infer_instance

instance (k : Option TokenKind) : Takes (rpcEndAt k) := by unfold rpcEndAt; infer_instance

instance : Takes rpc := by unfold rpc; infer_instance

instance (k : Keyword) : Takes (namedHeader k) := by unfold namedHeader; infer_instance

instance : Takes extendHeader := by unfold extendHeader; infer_instance

instance (label : Option Label) : Takes (groupHeader label) := by
  unfold groupHeader; infer_instance

theorem afterSemicolon_suffix (ts : List Token) : afterSemicolon ts <:+ ts := by
  fun_induction afterSemicolon ts with
  | case1 => exact List.suffix_refl _
  | case2 t rest => exact List.suffix_cons t rest
  | case3 t rest _ ih => exact ih.trans (List.suffix_cons t rest)

instance : Shrinks skipToSemicolon where
  suffix _ _ _ h := by cases h; exact afterSemicolon_suffix _

instance (k : Keyword) : Takes (skipStatement k) := by unfold skipStatement; infer_instance

instance (label : Option Label) (k : Option TokenKind) : Takes (fieldOrGroupAt label k) := by
  unfold fieldOrGroupAt; infer_instance

instance : Takes fieldOrGroup := by unfold fieldOrGroup; infer_instance

instance (k : TokenKind) : Takes (messageEntryAt k) := by
  unfold messageEntryAt; split <;> infer_instance

instance (k : TokenKind) : Takes (oneofEntryAt k) := by
  unfold oneofEntryAt; split <;> infer_instance

instance (k : TokenKind) : Takes (enumEntryAt k) := by
  unfold enumEntryAt; split <;> infer_instance

instance (k : TokenKind) : Takes (serviceEntryAt k) := by
  unfold serviceEntryAt; split <;> infer_instance

instance : Takes lonelySemicolon := by unfold lonelySemicolon; infer_instance

instance (r : Region) (k : TokenKind) : Takes (entryAt r k) := by
  unfold entryAt; cases r <;> infer_instance

instance (r : Region) (k : Option TokenKind) : Shrinks (entryFrom r k) := by
  cases k <;> (unfold entryFrom; infer_instance)

instance (r : Region) : Shrinks (entry r) := by unfold entry; infer_instance

/-- An entry other than the end takes a token. -/
theorem length_entry_lt {r : Region} {ts rest : List Token} {e : Entry}
    (h : entry r ts = .ok (e, rest)) (open_ : e ≠ .close) : rest.length < ts.length := by
  obtain ⟨k, mid, next, from_⟩ := bind_eq_ok.mp h
  cases next
  cases ts with
  | nil => cases from_; exact absurd rfl open_
  | cons t more =>
    change (if t.kind = .symbol .rbrace then pure .close else entryAt r t.kind) _ = _ at from_
    split at from_
    · cases from_; exact absurd rfl open_
    · exact Takes.shorter from_

/-! ### Bodies -/

/-- How many calls wait for the body of a block to end: the one that reads the body, and
those that lead to it from the body around it. -/
def framesOf : Header → Nat
  | .message _ => 2
  | .group _ _ _ => 3
  | .enum _ | .extend _ | .service _ => 1

/-- The one call that waits for the body of a oneof to end. -/
def oneofFrames : Nat := 1

/-- What reading a body of `given` gives: its nodes, and the rest from the closing brace
on. -/
structure Body (given : List Token) where
  nodes : List Node
  rest : List Token
  length_le : rest.length ≤ given.length

/-- The members of a oneof carry its name. Groups are not marked. -/
def markOneof (oneof : String) : Node → Node
  | .leaf (.field f) => .leaf (.field { f with oneof := some oneof })
  | n => n

/-- The entries of a region up to its closing brace or the end of the text, with room for
`frames` more calls. -/
def bodyOf (frames : Nat) (r : Region) (ts : List Token) :
    Except (ReadFailure Refusal) (Body ts) :=
  match h : entry r ts with
  | .error e => .error (.refused e)
  | .ok (.close, rest) => .ok ⟨[], rest, Shrinks.length_le h⟩
  | .ok (.skip, rest) =>
    have lt := length_entry_lt h (by simp)
    (bodyOf frames r rest).map fun others =>
      ⟨others.nodes, others.rest, by have := others.length_le; omega⟩
  | .ok (.leaf l, rest) =>
    have lt := length_entry_lt h (by simp)
    (bodyOf frames r rest).map fun others =>
      ⟨.leaf l :: others.nodes, others.rest, by have := others.length_le; omega⟩
  | .ok (.header header, rest) =>
    have lt := length_entry_lt h (by simp)
    if frames < framesOf header then .error .tooDeep
    else
      match bodyOf (frames - framesOf header) (regionOf header) rest with
      | .error e => .error e
      | .ok inner =>
        have le := inner.length_le
        match closing : symbol .rbrace inner.rest with
        | .error e => .error (.refused e)
        | .ok (_, after) =>
          have shorter := Takes.shorter closing
          (bodyOf frames r after).map fun others =>
            ⟨.block header inner.nodes :: others.nodes, others.rest,
              by have := others.length_le; omega⟩
  | .ok (.oneof name, rest) =>
    have lt := length_entry_lt h (by simp)
    if frames < oneofFrames then .error .tooDeep
    else
      match bodyOf (frames - oneofFrames) .oneof rest with
      | .error e => .error e
      | .ok inner =>
        have le := inner.length_le
        match closing : symbol .rbrace inner.rest with
        | .error e => .error (.refused e)
        | .ok (_, after) =>
          have shorter := Takes.shorter closing
          (bodyOf frames r after).map fun others =>
            ⟨inner.nodes.map (markOneof name) ++ others.nodes, others.rest,
              by have := others.length_le; omega⟩
termination_by ts.length

/-! ### Files -/

/-- One statement of a file. -/
inductive Statement
  | blank
  | dialect (name : String)
  | leaf (l : Leaf)
  | header (h : Header)
  deriving DecidableEq, Repr

/-- The edition statement begins with a word that is no keyword. -/
def startsEdition (t : Token) : Bool := t.kind == .identifier && t.text == "edition"

/-- The statement that begins with `t`, a block's up to its opening brace. -/
def statementAt (hasPackage : Bool) (t : Token) : Reader Statement :=
  match t.kind with
  | .symbol .semicolon => (fun _ => .blank) <$> symbol .semicolon
  | .keyword .dialect => .dialect <$> dialectStatement
  | .keyword .package =>
    if hasPackage then refuse .secondPackage else .leaf <$> packageStatement
  | .keyword .import => .leaf <$> importStatement
  | .keyword .option => .leaf <$> optionStatement
  | .keyword .message => (.header ∘ .message) <$> namedHeader .message
  | .keyword .enum => (.header ∘ .enum) <$> namedHeader .enum
  | .keyword .extend => .header <$> extendHeader
  | .keyword .service => (.header ∘ .service) <$> namedHeader .service
  | _ => if startsEdition t then .dialect <$> editionStatement else refuse .notAStatement

instance (hasPackage : Bool) (t : Token) : Takes (statementAt hasPackage t) := by
  unfold statementAt; split <;> infer_instance

/-- What a file consists of: the dialects that it states, in order, and its nodes. -/
structure Contents where
  dialects : List String
  nodes : List Node

/-- Whether a leaf is a package statement. -/
def isPackage : Leaf → Bool
  | .package _ => true
  | _ => false

/-- The statements of a file from `ts` on, where `hasPackage` tells whether a package
statement came before, with room for `frames` calls. -/
def contents (frames : Nat) (hasPackage : Bool) (ts : List Token) :
    Except (ReadFailure Refusal) Contents :=
  match ts with
  | [] => .ok ⟨[], []⟩
  | t :: more =>
    match h : statementAt hasPackage t (t :: more) with
    | .error e => .error (.refused e)
    | .ok (.blank, rest) =>
      have := Takes.shorter h
      contents frames hasPackage rest
    | .ok (.dialect name, rest) =>
      have := Takes.shorter h
      (contents frames hasPackage rest).map fun c => { c with dialects := name :: c.dialects }
    | .ok (.leaf l, rest) =>
      have := Takes.shorter h
      (contents frames (hasPackage || isPackage l) rest).map fun c =>
        { c with nodes := .leaf l :: c.nodes }
    | .ok (.header header, rest) =>
      have := Takes.shorter h
      if frames < framesOf header then .error .tooDeep
      else
        match bodyOf (frames - framesOf header) (regionOf header) rest with
        | .error e => .error e
        | .ok inner =>
          have := inner.length_le
          match closing : symbol .rbrace inner.rest with
          | .error e => .error (.refused e)
          | .ok (_, after) =>
            have := Takes.shorter closing
            (contents frames hasPackage after).map fun c =>
              { c with nodes := .block header inner.nodes :: c.nodes }
termination_by ts.length
decreasing_by all_goals (simp only [List.length_cons] at *; omega)

end Grammar

/-! ### Documents -/

/-- Why a text is no schema, and where. -/
structure ParseError where
  position : Position
  refusal : Refusal
  deriving DecidableEq, Repr

/-- The words for a parse error. -/
def ParseError.message (e : ParseError) : String :=
  "Line " ++ toString e.position.line ++ ":" ++ toString e.position.column ++ ": " ++
    e.refusal.message

namespace Document

/-- The document that a list of tokens spells, read with room for `frames` calls. The last
statement of a dialect counts. -/
def ofTokens (frames : Nat) (uri : String) (s : TokenStream) :
    Except (ReadFailure ParseError) Document :=
  match Grammar.contents frames false s.tokens with
  | .error (.refused r) => .error (.refused ⟨(r.found.map (·.position)).getD s.finish, r⟩)
  | .error .tooDeep => .error .tooDeep
  | .ok c => .ok ⟨uri, c.dialects.getLast?, c.nodes⟩

/-- The document that a text spells, read with room for `frames` calls. -/
def parse (frames : Nat) (uri text : String) : Except (ReadFailure ParseError) Document :=
  ofTokens frames uri (tokenize text)

end Document

end ProtoNames
