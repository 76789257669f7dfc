import ProtoNames.File.SourceSet

/-!
Working with documents while files change.

A workspace is documents that are kept in some way, and the files there are. What is asked
for by a path goes by the absolute form of the path; a path without one is refused before
anything else is looked at.
-/

namespace ProtoNames

/-- What a document is asked for, or to become. -/
inductive Request
  /-- The document, read from its file if necessary. -/
  | fetch
  /-- The document, if it has been read. -/
  | known
  /-- Text in place of the file. -/
  | overlay (text : String)
  /-- To be forgotten. -/
  | invalidate
  /-- Whether it has been read. -/
  | contains
  deriving DecidableEq, Repr

/-- What happens in a workspace. -/
inductive Operation
  | request (path : String) (r : Request)
  /-- How many documents are kept? -/
  | size
  /-- How many files have been loaded? -/
  | loadCount
  /-- Somebody writes a file. -/
  | write (uri : String) (bytes : List UInt8)
  /-- Somebody deletes a file. -/
  | delete (uri : String)
  deriving DecidableEq, Repr

/-- What an operation is answered with. -/
inductive Answer
  | document (found : Option Source)
  | truth (b : Bool)
  | number (n : Nat)
  | done
  deriving Repr

/-- Why an operation is refused. -/
inductive OperationError
  | path (e : PathError)
  | text (e : ParseError)
  | stack (e : StackError)
  deriving Repr

/-- Documents that are kept in some way, and the files there are. -/
structure Workspace (σ : Type) where
  documents : σ
  files : FileStore

/-- A way of keeping documents: what becomes of a request, by the room on the stack, the files,
their extension and the absolute path of the document, and what can be counted. -/
structure Keeper (σ : Type) where
  answer : Nat → FileStore → String → String → Request → σ → Except OperationError Answer × σ
  size : σ → Nat
  loadCount : σ → Nat

namespace Keeper

variable {σ : Type}

/-- One operation. -/
def perform (k : Keeper σ) (around : Surroundings) (extension : String) (x : Workspace σ) :
    Operation → Except OperationError Answer × Workspace σ
  | .request path r =>
    match Path.uri around path with
    | .error e => (.error (.path e), x)
    | .ok uri =>
      let (answer, documents) := k.answer around.frames x.files extension uri r x.documents
      (answer, { x with documents })
  | .size => (.ok (.number (k.size x.documents)), x)
  | .loadCount => (.ok (.number (k.loadCount x.documents)), x)
  | .write uri bytes => (.ok .done, { x with files := x.files.write uri bytes })
  | .delete uri => (.ok .done, { x with files := x.files.delete uri })

/-- Operations one after the other, each with its answer. -/
def run (k : Keeper σ) (around : Surroundings) (extension : String) (x : Workspace σ) :
    List Operation → List (Except OperationError Answer) × Workspace σ
  | [] => ([], x)
  | op :: rest =>
    let (answer, y) := k.perform around extension x op
    let (answers, z) := run k around extension y rest
    (answer :: answers, z)

end Keeper

/-- What becomes of a request to a set of documents. -/
def SourceSet.answer (frames : Nat) (files : FileStore) (extension uri : String) (r : Request)
    (s : SourceSet) : Except OperationError Answer × SourceSet :=
  match r with
  | .fetch =>
    let f := s.fetch frames files extension uri
    ((f.outcome.mapError .stack).map .document, f.sources)
  | .known => (.ok (.document (s.current? uri)), s)
  | .overlay text =>
    match s.addOverlay frames uri text with
    | .ok (s', d) => (.ok (.document (some d)), s')
    | .error (.refused e) => (.error (.text e), s)
    | .error .tooDeep => (.error (.stack .exhausted), s)
  | .invalidate => (.ok .done, s.invalidate uri)
  | .contains => (.ok (.truth (s.contains uri)), s)

/-- A set of documents as a way of keeping documents. -/
def SourceSet.keeper : Keeper SourceSet where
  answer := SourceSet.answer
  size := SourceSet.size
  loadCount := SourceSet.loadCount

end ProtoNames
