import ProtoNames.Compiler.MarkerSet
import ProtoNames.File.Path
import ProtoNames.Log.Event
import ProtoNames.Scope.Config
import ProtoNames.Text.Lines

/-!
Running a schema compiler on a file.

A job says what to compile, a run is what the compiler gave back, and a compilation is the
result: the command, the exit status, and the markers found in the error output. Files
with another extension than that of schemas are left alone.
-/

namespace ProtoNames.Compiler

open Text

/-- What to compile, and how. -/
structure Job where
  path : String
  includePaths : List String
  /-- Where to write generated code; without it the file is only checked. -/
  outDir : Option String
  languages : List String
  /-- The name of the compiler. -/
  compiler : String
  deriving DecidableEq, Repr

/-- The name of the usual compiler. -/
def usualCompiler : String := "protoc"

/-- The languages that code is generated for unless others are named. -/
def usualLanguages : List String := ["python"]

/-- Only checks a file. -/
def Job.check (path : String) (includePaths : List String) : Job where
  path := path
  includePaths := includePaths
  outDir := none
  languages := usualLanguages
  compiler := usualCompiler

/-- What a compiler gave back. -/
structure Run where
  status : Int
  errorOutput : String
  deriving DecidableEq, Repr

/-- The result of a compilation. -/
structure Compilation where
  path : String
  command : List String
  status : Int
  markers : MarkerSet
  deriving DecidableEq, Repr

/-- Whether the compiler found nothing wrong. -/
def Compilation.ok (c : Compilation) : Bool := c.status == 0 && c.markers.errors.isEmpty

/-- Why there is no result. -/
inductive CompileError
  | notFound (compiler : String)
  | numberTooLong (e : NumberTooLong)
  deriving DecidableEq, Repr

/-- The words for a compile error. -/
def CompileError.message : CompileError → String
  | .notFound compiler =>
    "'" ++ compiler ++
      "' not found. Please install Protocol Buffers compiler and ensure it is in PATH."
  | .numberTooLong e => e.message

/-! ### Commands -/

/-- The directory of a file, as an absolute path. -/
def directoryOf (around : Surroundings) (path : String) : String :=
  ((Path.ofString path).absolute around).parent.toString

/-- The first of equal texts, and no empty ones. -/
def uniqueNonempty (texts : List String) : List String :=
  (texts.filter (!·.isEmpty)).eraseDups

/-- A command line: the file's own directory is searched for imports first. -/
def commandLine (around : Surroundings) (compiler path : String)
    (includePaths outputs : List String) : List String :=
  let searched := uniqueNonempty (directoryOf around path :: includePaths)
  compiler :: searched.flatMap (["-I", ·]) ++ outputs ++ [path]

/-- What to write: code for each language, or a descriptor set in a scratch directory. -/
def Job.outputs (j : Job) (scratch : String) : List String :=
  match j.outDir with
  | some dir => j.languages.map fun language => "--" ++ language ++ "_out=" ++ dir
  | none => ["--descriptor_set_out=" ++ scratch ++ "/descriptor_set.pb"]

/-- The command line of a job. -/
def Job.command (j : Job) (around : Surroundings) (scratch : String) : List String :=
  commandLine around j.compiler j.path j.includePaths (j.outputs scratch)

/-! ### Results -/

/-- Adds the markers on lines of output. The lines that have none are reported. -/
def collect (s : MarkerSet) : List String → List Event × Except NumberTooLong MarkerSet
  | [] => ([], .ok s)
  | line :: rest =>
    match s.addLine line with
    | .error e => ([], .error e)
    | .ok (s', found) =>
      let (events, result) := collect s' rest
      (if found.isSome then events else .outputIgnored line :: events, result)

/-- The lines of a text that are not blank. -/
def nonblankLines (text : String) : List String :=
  (lines text).filter fun line => !(trim line.toList).isEmpty

/-- The result of a job that was run, with what happened. Without a run there was no
compiler. -/
def Job.finish (j : Job) (command : List String) :
    Option Run → List Event × Except CompileError Compilation
  | none => ([], .error (.notFound j.compiler))
  | some run =>
    match collect .empty (nonblankLines run.errorOutput) with
    | (events, .error e) => (events, .error (.numberTooLong e))
    | (events, .ok markers) =>
      (events ++ [.compilationFinished j.path run.status markers.size],
        .ok ⟨j.path, command, run.status, markers⟩)

/-- Whether a job is about a schema file. -/
def Job.isForSchema (j : Job) : Bool := endsIn j.path schemaExtension

/-- The result of a job, with what happened. -/
def Job.result (j : Job) (around : Surroundings) (scratch : String) (run : Option Run) :
    List Event × Except CompileError Compilation :=
  if j.isForSchema then
    let command := j.command around scratch
    let (events, outcome) := j.finish command run
    (.compilationStarted (" ".intercalate command) :: events, outcome)
  else ([.compilationSkipped j.path], .ok ⟨j.path, [], 0, .empty⟩)

end ProtoNames.Compiler
