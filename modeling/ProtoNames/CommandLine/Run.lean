import ProtoNames.CommandLine.Invocation
import ProtoNames.Log.Line
import ProtoNames.Report
import ProtoNames.Scope.Resolve

/-!
The command: from an invocation to what is written and the exit status.

The schema is read, the site is looked up, the scope of a reference there is built, the
compiler is run if asked for, and the report is written. The status is 0 if the name that
was asked for means something and the compiler found no error.
-/

namespace ProtoNames.CommandLine

open Compiler Text

/-- What the command works with. -/
structure Host where
  around : Surroundings
  files : FileStore
  modules : Builtin.Modules
  /-- What the compiler gives back when it is run, if there is one. -/
  compiler : Option Run
  /-- A directory for files that are not kept. -/
  scratch : String
  /-- The time in log lines. -/
  time : String

/-- What the command leaves behind. -/
structure Outcome where
  status : Nat
  output : String
  errors : String
  deriving DecidableEq, Repr

/-- A failure that the command does not answer for. -/
inductive Crash
  | query (e : QueryError)
  | compiler (e : NumberTooLong)
  /-- The level of the log is given as nothing. -/
  | noLevel
  /-- The name to look up is given as nothing. -/
  | noName
  deriving Repr

/-- The words for such a failure. -/
def Crash.message : Crash → String
  | .query e => e.message?.getD ""
  | .compiler e => e.message
  | .noLevel => "'list' object has no attribute 'upper'"
  | .noName => "'list' object has no attribute 'startswith'"

/-- Why there is no report. -/
inductive Failure
  | unreadable (path : String)
  | noSite (site path : String)
  /-- The scope cannot be built. -/
  | fatal (reason : String)
  | crash (c : Crash)
  deriving Repr

/-- The words for a failure. -/
def Failure.message : Failure → String
  | .unreadable path => "Could not load " ++ path ++ "\n"
  | .noSite site path => "No declaration named '" ++ site ++ "' in " ++ path ++ "\n"
  | .fatal reason => "FATAL: " ++ reason ++ "\n"
  | .crash c => c.message ++ "\n"

namespace Invocation

/-- The path of the schema. -/
def path (i : Invocation) : String := (i.proto.map Given.content).getD ""

/-- The name of the site. -/
def siteName (i : Invocation) : String := i.site.content

/-- The word for the kind of reference. A kind that is given as nothing is shown as an empty
list. -/
def kindText (i : Invocation) : String := (i.kind.map ReferenceKind.word).getD (quotedList [])

/-- The kind of reference that is looked up. -/
def reference (i : Invocation) : ReferenceKind := i.kind.getD .literal

/-- The directories with a name. -/
def includePaths (i : Invocation) : List String := i.includes.filterMap Given.text?

/-- The settings of the look-up. -/
def config (i : Invocation) : Config :=
  { Config.default with
    includePaths := i.includePaths
    unnamedInclude := i.includes.contains .nothing
    dialects :=
      if i.dialects.isEmpty then Config.default.dialects else i.dialects.filterMap Given.text?
    strict := !i.reexports }

/-- The name that must be an enum's, unless values of all enums are wanted. -/
def enumName? (i : Invocation) : Option String := if i.enum.isEmpty then none else some i.enum

/-- The words for a name that is no enum's. -/
def notAnEnum (i : Invocation) (name : String) : String :=
  "'" ++ name ++ "' does not name an enum visible from " ++
    (if i.siteName.isEmpty then "the file" else i.siteName)

end Invocation

/-- A failed query, as the command sees it. Only misuse of the look-up is answered for. -/
def Failure.ofQuery : QueryError → Failure
  | .criteria e => .fatal (e.message?.getD "")
  | .cancelled => .fatal ((QueryError.cancelled.message?).getD "")
  | e => .crash (.query e)

/-- The exit status: whether the name means something and the compiler is content. -/
def exitStatus (name? : Option String) (s : Scope) (c : Option Compilation) : Nat :=
  if name?.all s.contains && c.all Compilation.ok then 0 else 1

/-- Steps of the command. They stop at the first failure and keep a log. -/
abbrev Work := ReaderT Setup (ExceptT Failure (StateM Progress))

namespace Work

/-- Makes a query. -/
def query {α : Type} (q : Query α) : Work α := fun s p =>
  match q.run s p with
  | (.ok a, p') => (.ok a, p')
  | (.error e, p') => (.error (.ofQuery e), p')

/-- The schema. -/
def document (i : Invocation) : Work Source := do
  if i.proto = some .nothing then throw (.crash (.query .noPath))
  match ← query (Query.document i.path) with
  | some source => return source
  | none => throw (.unreadable i.path)

/-- The element at the site. -/
def site (i : Invocation) (source : Source) : Work Element :=
  match Element.named? source i.siteName with
  | some e => pure e
  | none => throw (.noSite i.siteName i.path)

/-- The enum whose values are wanted. -/
def enumCriteria (i : Invocation) (place : Element) : Work Criteria :=
  match i.enumName? with
  | none => return .anyEnum
  | some name => do
    match ← query (Query.resolveType place name) with
    | some e =>
      if e.kind = .enum then return .element e else throw (.fatal (i.notAnEnum name))
    | none => throw (.fatal (i.notAnEnum name))

/-- What is wanted of a reference at an element that stands at `place`. -/
def criteria (i : Invocation) (e place : Element) : Work Criteria :=
  match i.reference with
  | .type => return .anyType
  | .extension => return .plain (.text i.extended)
  | .option => query do return .option (← Query.ofCriteria (OptionType.inside e.kind))
  | .literal => enumCriteria i place

/-- The scope of a reference at an element. -/
def scope (i : Invocation) (e : Element) : Work Scope := do
  let place := e.referenceSite
  let wanted ← criteria i e place
  let s ← query (Query.scopeOf place i.reference wanted)
  query (Query.log (.scopeBuilt (i.kind.map ReferenceKind.word) i.site.text? s.size))
  return s

/-- What the compiler says, if it is asked. -/
def compilation (i : Invocation) (host : Host) : Work (Option Compilation) := do
  if i.compile then
    let job := Job.check i.path i.includePaths
    let (events, result) := job.result host.around host.scratch host.compiler
    query (events.forM Query.log)
    match result with
    | .ok c => return some c
    | .error (.numberTooLong e) => throw (.crash (.compiler e))
    | .error e => throw (.fatal e.message)
  else return none

/-- The name to look up, if one is given. -/
def name? (i : Invocation) : Work (Option String) :=
  match i.name with
  | none => return none
  | some (.text name) => return some name
  | some .nothing => throw (.crash .noName)

/-- The whole work: the status and the report. -/
def all (i : Invocation) (host : Host) : Work (Nat × String) := do
  let e ← site i (← document i)
  let s ← scope i e
  let c ← compilation i host
  let name? ← name? i
  return (exitStatus name? s c, report ⟨i.path, i.siteName, i.kindText, name?⟩ s c)

end Work

/-- What an invocation leaves behind. -/
def Invocation.outcome (i : Invocation) (host : Host) : Except Crash Outcome := do
  let some level := i.logLevel.text? | throw .noLevel
  let style : LogStyle := ⟨.ofName level, i.jsonLogs⟩
  let setup : Setup := ⟨i.config, host.around, host.files, host.modules⟩
  let (result, p) := (Work.all i host setup).run .initial
  let log := style.log host.time p.journal
  match result with
  | .error (.crash c) => .error c
  | .error e => .ok ⟨1, "", log ++ e.message⟩
  | .ok (status, report) => .ok ⟨status, report, log⟩

/-- The program's name. -/
def programName : String := "protoc-scope"

/-- A short description of the options. -/
def helpText : String :=
  "usage: " ++ programName ++ " --proto PROTO [options]\n\noptions:\n" ++
    String.join (Switch.all.map fun s =>
      "  " ++ s.title ++ (if s.takesValue then " VALUE" else "") ++ "\n")

/-- What the command leaves behind. Misuse is status 2. -/
def outcome (args : List String) (host : Host) : Except Crash Outcome :=
  match Request.ofArguments args with
  | .error e => .ok ⟨2, "", programName ++ ": error: " ++ e.message⟩
  | .ok .help => .ok ⟨0, helpText, ""⟩
  | .ok (.run i) => i.outcome host

end ProtoNames.CommandLine
