import ProtoNames.Text.Digit
import ProtoNames.Text.Quoted

/-!
The options of the command, and how an argument is recognised as one.

An option is spelled in full, or by as much of its long spelling as no other option shares.
A value follows as the next argument or behind `=`, where `--` stands for no value: the
option is given, but with nothing. Other arguments that begin with a dash are taken for
unknown options, except negative numbers and what has a space in it.
-/

namespace ProtoNames.CommandLine

open Text

/-- The options. -/
inductive Switch
  | help | proto | name | kind | site | extended | enum | includeDir | dialect | reexports
  | compile | logLevel | jsonLogs
  deriving DecidableEq, Repr

namespace Switch

/-- The long spelling of an option. -/
def long : Switch → String
  | .help => "--help"
  | .proto => "--proto"
  | .name => "--name"
  | .kind => "--kind"
  | .site => "--site"
  | .extended => "--extends"
  | .enum => "--enum"
  | .includeDir => "--include"
  | .dialect => "--syntax"
  | .reexports => "--protoc-reexports"
  | .compile => "--compile"
  | .logLevel => "--log-level"
  | .jsonLogs => "--json-logs"

/-- All options, in the order of their description. -/
def all : List Switch :=
  [.help, .proto, .name, .kind, .site, .extended, .enum, .includeDir, .dialect, .reexports,
   .compile, .logLevel, .jsonLogs]

/-- The options as messages name them. -/
def title : Switch → String
  | .help => "-h/--help"
  | s => s.long

/-- Whether an option has a value. -/
def takesValue : Switch → Bool
  | .help | .reexports | .compile | .jsonLogs => false
  | _ => true

/-- The option with a long spelling. -/
def ofLong? (spelling : String) : Option Switch := all.find? fun s => s.long == spelling

/-- The options whose long spelling begins in a certain way. -/
def beginning (start : List Char) : List Switch :=
  all.filter fun s => start.isPrefixOf s.long.toList

end Switch

/-! ### Errors -/

/-- Why arguments are refused. -/
inductive UsageError
  | ambiguous (argument : String) (meanings : List Switch)
  | missingValue (s : Switch)
  | unwantedValue (s : Switch) (value : String)
  | unknownKind (value : String) (known : List String)
  | missingProto
  | unrecognized (arguments : List String)
  | missingExtended
  deriving DecidableEq, Repr

/-- The words for a usage error. -/
def UsageError.message : UsageError → String
  | .ambiguous argument meanings =>
    "ambiguous option: " ++ argument ++ " could match " ++
      ", ".intercalate (meanings.map Switch.long)
  | .missingValue s => "argument " ++ s.title ++ ": expected one argument"
  | .unwantedValue s value =>
    "argument " ++ s.title ++ ": ignored explicit argument " ++ quoted value
  | .unknownKind value known =>
    "argument " ++ Switch.kind.title ++ ": invalid choice: " ++ quoted value ++
      " (choose from " ++ ", ".intercalate (known.map quoted) ++ ")"
  | .missingProto => "the following arguments are required: " ++ Switch.proto.title
  | .unrecognized arguments => "unrecognized arguments: " ++ " ".intercalate arguments
  | .missingExtended =>
    Switch.kind.title ++ " extension requires " ++ Switch.extended.title

/-! ### Arguments -/

/-- What an option is given as its value. -/
inductive Given
  | text (s : String)
  /-- The mark `--` stands for no value. -/
  | nothing
  deriving DecidableEq, Repr

namespace Given

/-- What is given by the text in a value's place. -/
def ofText (s : String) : Given := if s == "--" then .nothing else .text s

/-- The text, if there is one. -/
def text? : Given → Option String
  | .text s => some s
  | .nothing => none

/-- The text, or none at all. -/
def content (g : Given) : String := g.text?.getD ""

end Given

/-- What an argument is, seen alone. -/
inductive Argument
  /-- An option without anything attached. -/
  | bare (s : Switch)
  /-- A long option with a value behind `=`. -/
  | valued (s : Switch) (value : String)
  /-- The short `-h` with more behind it. -/
  | shortHelp (attached : List Char)
  /-- An unknown option. -/
  | unknown
  /-- The mark after which nothing is an option. -/
  | separator
  /-- Anything else. It can be the value of an option. -/
  | plain
  deriving DecidableEq, Repr

/-- Whether a text is a negative decimal number; a newline at the end is overlooked. -/
def isNegativeNumber : List Char → Bool
  | '-' :: cs =>
    let digits := if cs.getLast? == some '\n' then cs.dropLast else cs
    (!digits.isEmpty && digits.all isDecimal) ||
      match digits.dropWhile isDecimal with
      | '.' :: fraction => !fraction.isEmpty && fraction.all isDecimal
      | _ => false
  | _ => false

/-- What an argument is that begins with a dash and is no option. -/
def Argument.ofDashed (arg : List Char) : Argument :=
  if isNegativeNumber arg || arg.contains ' ' then .plain else .unknown

/-- An option with what stands behind `=`, if anything. -/
def Argument.ofSwitch (s : Switch) : List Char → Argument
  | '=' :: value => .valued s (String.ofList value)
  | _ => .bare s

/-- What an argument with two dashes is. -/
def Argument.ofLong (arg : String) : Except UsageError Argument :=
  let spelling := arg.toList.takeWhile (· != '=')
  let value := arg.toList.dropWhile (· != '=')
  match Switch.ofLong? (String.ofList spelling), Switch.beginning spelling with
  | some s, _ => .ok (.ofSwitch s value)
  | none, [s] => .ok (.ofSwitch s value)
  | none, [] => .ok (.ofDashed arg.toList)
  | none, meanings => .error (.ambiguous arg meanings)

/-- What an argument is. -/
def Argument.of (arg : String) : Except UsageError Argument :=
  match arg.toList with
  | ['-', '-'] => .ok .separator
  | '-' :: '-' :: _ => Argument.ofLong arg
  | ['-', 'h'] => .ok (.bare .help)
  | '-' :: 'h' :: attached => .ok (.shortHelp attached)
  | '-' :: c :: rest => .ok (.ofDashed ('-' :: c :: rest))
  | _ => .ok .plain

/-- What all arguments are. Behind a separator nothing is an option. -/
def Argument.ofAll : List String → Except UsageError (List (String × Argument))
  | [] => .ok []
  | arg :: rest => do
    match ← Argument.of arg with
    | .separator => return (arg, .separator) :: rest.map (·, .plain)
    | a => return (arg, a) :: (← ofAll rest)

/-- Whether what is attached to `-h` is in order: it may only repeat the `h`, and there
must be something. -/
def checkRepeats : List Char → Except UsageError Unit
  | ['h'] => .ok ()
  | 'h' :: rest => checkRepeats rest
  | attached => .error (.unwantedValue .help (String.ofList attached))

/-- Whether an argument that begins with `-h` is in order, by what stands behind that. An
equals sign may come first. -/
def checkShortHelp : List Char → Except UsageError Unit
  | '=' :: attached => checkRepeats attached
  | attached => checkRepeats attached

end ProtoNames.CommandLine
