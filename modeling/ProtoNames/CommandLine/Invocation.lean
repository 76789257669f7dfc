import ProtoNames.CommandLine.Switch
import ProtoNames.Reference.Criteria

/-!
What the command is asked to do.

Arguments are read from left to right. The first fault ends it, and so does a request for
help; but an ambiguous option anywhere is found first. Whatever is no option and no value
of one is refused at the end.
-/

namespace ProtoNames.CommandLine

/-- What the options say. An option that is given again replaces the one before, except
directories and dialects, which add up. An empty name of an extended message or an enum is
as good as none. -/
structure Invocation where
  proto : Option Given
  name : Option Given
  /-- The kind of reference, unless it is given as nothing. -/
  kind : Option ReferenceKind
  site : Given
  extended : String
  enum : String
  includes : List Given
  dialects : List Given
  reexports : Bool
  compile : Bool
  logLevel : Given
  jsonLogs : Bool
  /-- The arguments that are neither options nor values of options. -/
  extras : List String
  deriving DecidableEq, Repr

/-- What no options say. -/
def Invocation.initial : Invocation where
  proto := none
  name := none
  kind := some .type
  site := .text ""
  extended := ""
  enum := ""
  includes := []
  dialects := []
  reexports := false
  compile := false
  logLevel := .text "WARNING"
  jsonLogs := false
  extras := []

namespace Invocation

/-- Notes an argument that is no option and no value of one. -/
def withExtra (i : Invocation) (arg : String) : Invocation :=
  { i with extras := i.extras ++ [arg] }

/-- Follows an option that has no value. -/
def withFlag (i : Invocation) : Switch → Invocation
  | .reexports => { i with reexports := true }
  | .compile => { i with compile := true }
  | .jsonLogs => { i with jsonLogs := true }
  | _ => i

/-- Follows the option for the kind of reference. -/
def withKind (i : Invocation) : Given → Except UsageError Invocation
  | .nothing => .ok { i with kind := none }
  | .text word =>
    match ReferenceKind.ofWord? word with
    | some kind => .ok { i with kind := some kind }
    | none => .error (.unknownKind word (ReferenceKind.all.map ReferenceKind.word))

/-- Follows an option with its value. -/
def withValue (i : Invocation) (value : Given) : Switch → Except UsageError Invocation
  | .proto => .ok { i with proto := some value }
  | .name => .ok { i with name := some value }
  | .kind => i.withKind value
  | .site => .ok { i with site := value }
  | .extended => .ok { i with extended := value.content }
  | .enum => .ok { i with enum := value.content }
  | .includeDir => .ok { i with includes := i.includes ++ [value] }
  | .dialect => .ok { i with dialects := i.dialects ++ [value] }
  | .logLevel => .ok { i with logLevel := value }
  | _ => .ok i

end Invocation

/-- What arguments ask for. -/
inductive Request
  | help
  | run (i : Invocation)
  deriving DecidableEq, Repr

/-- Follows the arguments after what `i` says. -/
def follow (i : Invocation) : List (String × Argument) → Except UsageError Request
  | [] => .ok (.run i)
  | (_, .bare s) :: rest =>
    if s = .help then .ok .help
    else if s.takesValue then
      match rest with
      | (value, .plain) :: rest' => do follow (← i.withValue (.ofText value) s) rest'
      | _ => .error (.missingValue s)
    else follow (i.withFlag s) rest
  | (_, .valued s value) :: rest =>
    if s.takesValue then do follow (← i.withValue (.ofText value) s) rest
    else .error (.unwantedValue s value)
  | (_, .shortHelp attached) :: _ => (checkShortHelp attached).map fun _ => .help
  | (arg, _) :: rest => follow (i.withExtra arg) rest

/-- What the whole command line asks for, once all of it has been read. -/
def Invocation.check (i : Invocation) : Except UsageError Request :=
  if i.proto.isNone then .error .missingProto
  else if !i.extras.isEmpty then .error (.unrecognized i.extras)
  else if i.kind = some .extension ∧ i.extended.isEmpty then .error .missingExtended
  else .ok (.run i)

/-- What arguments ask for. -/
def Request.ofArguments (args : List String) : Except UsageError Request := do
  match ← follow .initial (← Argument.ofAll args) with
  | .help => return .help
  | .run i => i.check

end ProtoNames.CommandLine
