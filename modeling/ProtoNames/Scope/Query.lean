import ProtoNames.Builtin.Module
import ProtoNames.File.SourceSet
import ProtoNames.Reference.Criteria
import ProtoNames.Scope.Config

/-!
Queries: look-ups that may read files, report events, and be cancelled.

A query reads its setup and changes its progress. When it fails, the progress up to there
is kept: documents that were loaded stay loaded.
-/

namespace ProtoNames

/-- What a query runs in. -/
structure Setup where
  config : Config
  around : Surroundings
  files : FileStore
  modules : Builtin.Modules

/-- The usual settings in plain surroundings, with the modules of the built-in files. -/
def Setup.plain (files : FileStore) : Setup := ⟨.default, .plain, files, Builtin.wellKnown⟩

/-- What a query changes. -/
structure Progress where
  sources : SourceSet
  /-- The modules of the built-in files that have been used. -/
  builtInsUsed : List String
  /-- What has happened, in order. -/
  journal : List Event
  /-- After how many more checks the query is cancelled, if ever. -/
  patience : Option Nat

/-- The start of everything. -/
def Progress.initial : Progress := ⟨.empty, [], [], none⟩

/-- Why a query fails. -/
inductive QueryError
  | criteria (e : CriteriaError)
  | cancelled
  /-- A path leads to no file. -/
  | path (e : PathError)
  /-- A file cannot be read. -/
  | stack (e : StackError)
  /-- There is no path where one is needed. -/
  | noPath
  /-- No type name is implied by an element of this kind. -/
  | noTypeName (k : Kind)
  /-- It is not said which message is extended. -/
  | noExtended
  | module (e : Builtin.ModuleError)
  deriving Repr

/-- The words for a failure, unless it is about an element. -/
def QueryError.message? : QueryError → Option String
  | .criteria e => e.message?
  | .cancelled => some "Resolution was cancelled"
  | .path e => some e.message
  | .stack e => some e.message
  | .noPath => some "expected str, bytes or os.PathLike object, not list"
  | .noTypeName k => some ("Cannot infer a type name from " ++ k.protoTitle)
  | .noExtended =>
    some "ScopeProvider.scope_for_extension() missing 1 required positional argument: 'extended'"
  | .module e => some e.message

/-- A look-up. -/
abbrev Query := ReaderT Setup (ExceptT QueryError (StateM Progress))

namespace Query

/-- Runs a query. -/
def run {α : Type} (q : Query α) (s : Setup) (p : Progress) : Except QueryError α × Progress :=
  (ReaderT.run q s).run p

/-- Reports an event. -/
def log (e : Event) : Query Unit :=
  modify fun p => { p with journal := p.journal ++ [e] }

/-- Gives up if the query has been cancelled. -/
def check : Query Unit := do
  let p ← get
  match p.patience with
  | none => pure ()
  | some 0 =>
    log .cancelled
    throw .cancelled
  | some (n + 1) => set { p with patience := some n }

/-- Fails with a criteria error. -/
def ofCriteria {α : Type} : Except CriteriaError α → Query α
  | .ok a => pure a
  | .error e => throw (.criteria e)

/-- The absolute form of a path. -/
def uriOf (path : String) : Query String := do
  let s ← read
  match Path.uri s.around path with
  | .ok uri => return uri
  | .error e => throw (.path e)

/-- The document at a path, read from its file if necessary. -/
def document (path : String) : Query (Option Source) := do
  let s ← read
  let uri ← uriOf path
  let p ← get
  let f := p.sources.fetch s.around.frames s.files s.config.extension uri
  set { p with sources := f.sources, journal := p.journal ++ f.events }
  match f.outcome with
  | .ok found => return found
  | .error e => throw (.stack e)

end Query

end ProtoNames
