import ProtoNames.File.Path
import ProtoNames.File.Store
import ProtoNames.Log.Event
import ProtoNames.Schema.Element

/-!
The documents that have been read, by the absolute path of their file.

A document comes from its file (`loaded`) or from text that was given in its place
(`overlays`), which wins over the file until it is dropped. Every reading gets a number of
its own, so that a document read again can be told from the one before.
-/

namespace ProtoNames

/-- The documents that have been read. -/
structure SourceSet where
  overlays : List (String × Source)
  loaded : List (String × Source)
  /-- How many files have been loaded so far. -/
  loadCount : Nat
  /-- The number of the next reading. -/
  next : Nat

/-- A table without an entry. -/
def withoutEntry (table : List (String × Source)) (uri : String) : List (String × Source) :=
  table.filter fun e => e.1 != uri

/-- There was no room left on the stack. -/
inductive StackError
  | exhausted
  deriving DecidableEq, Repr

/-- The words for a stack error. -/
def StackError.message : StackError → String
  | .exhausted => "maximum recursion depth exceeded"

/-- What asking for a document gives: the set afterwards, the document if there is one, and
what happened. -/
structure Fetch where
  sources : SourceSet
  outcome : Except StackError (Option Source)
  events : List Event

/-- The document, if there is one. -/
def Fetch.found (f : Fetch) : Option Source :=
  match f.outcome with
  | .ok found => found
  | .error _ => none

namespace SourceSet

/-- No documents. -/
def empty : SourceSet := ⟨[], [], 0, 0⟩

/-- The document at a path, if it has been read. -/
def current? (s : SourceSet) (uri : String) : Option Source :=
  (s.overlays.lookup uri).or (s.loaded.lookup uri)

/-- The paths that have a document. -/
def uris (s : SourceSet) : List String :=
  (s.overlays.map (·.1) ++ s.loaded.map (·.1)).eraseDups

/-- How many paths have a document. -/
def size (s : SourceSet) : Nat := s.uris.length

/-- Whether a path has a document. -/
def contains (s : SourceSet) (uri : String) : Bool := (s.current? uri).isSome

/-- Gives text in place of a file. Text that cannot be read changes nothing. -/
def addOverlay (s : SourceSet) (frames : Nat) (uri text : String) :
    Except (ReadFailure ParseError) (SourceSet × Source) :=
  (Document.parse frames uri text).map fun d =>
    let source : Source := ⟨.reading s.next, d⟩
    ({ s with
        overlays := (uri, source) :: withoutEntry s.overlays uri
        loaded := withoutEntry s.loaded uri
        next := s.next + 1 },
      source)

/-- Forgets the document at a path, and text given in its place. -/
def invalidate (s : SourceSet) (uri : String) : SourceSet :=
  { s with overlays := withoutEntry s.overlays uri, loaded := withoutEntry s.loaded uri }

/-- Keeps a document that was loaded from its file. -/
def keep (s : SourceSet) (uri : String) (d : Document) : SourceSet × Source :=
  let source : Source := ⟨.reading s.next, d⟩
  ({ s with
      loaded := (uri, source) :: withoutEntry s.loaded uri
      loadCount := s.loadCount + 1
      next := s.next + 1 },
    source)

/-- Reads a file that has no document yet. That it is no schema is only reported, but there must
be room to find out. -/
def load (s : SourceSet) (frames : Nat) (uri : String) (bytes : List UInt8) : Fetch :=
  match fileText bytes with
  | .error e => ⟨s, .ok none, [.fileUnreadable uri e]⟩
  | .ok text =>
    match Document.parse frames uri text with
    | .error (.refused e) => ⟨s, .ok none, [.fileMalformed uri e]⟩
    | .error .tooDeep => ⟨s, .error .exhausted, []⟩
    | .ok d =>
      let (kept, source) := s.keep uri d
      ⟨kept, .ok (some source), [.fileLoaded uri]⟩

/-- The document at a path: the one that has been read, or else the one in the file, if the
path has the right extension and the file exists and is a schema. -/
def fetch (s : SourceSet) (frames : Nat) (files : FileStore) (extension uri : String) : Fetch :=
  match s.current? uri with
  | some source => ⟨s, .ok (some source), []⟩
  | none =>
    if !endsIn uri extension then ⟨s, .ok none, [.fileSkipped uri]⟩
    else
      match files.bytes? uri with
      | none => ⟨s, .ok none, []⟩
      | some bytes => s.load frames uri bytes

end SourceSet

end ProtoNames
