import ProtoNames.Scope.Query

/-!
From an import statement to the document that it means.

A file is looked for in the importer's directory first and then in the include paths, in
order. Built-in imports have no file: the document comes with the module that carries it.
-/

namespace ProtoNames

/-- An import statement, with the file in which it stands. -/
structure ImportRef where
  importer : String
  statement : Import
  deriving DecidableEq, Repr

namespace ImportRef

/-- The import path. -/
def path (i : ImportRef) : String := i.statement.path

/-- Whether importers of the importer see through this import. -/
def isPublic (i : ImportRef) : Bool := i.statement.mode == .public

/-- The imports of a document. -/
def ofDocument (d : Document) : List ImportRef := d.imports.map (⟨d.uri, ·⟩)

/-- The places where the imported file may be. -/
def candidatePaths (c : Config) (i : ImportRef) : List Path :=
  let beside :=
    if i.importer.isEmpty then []
    else [((Path.ofString i.importer).parent).join (.ofString i.path)]
  beside ++ c.includePaths.map fun root => (Path.ofString root).join (.ofString i.path)

/-- Whether the import means a built-in file. -/
def isBuiltIn (c : Config) (i : ImportRef) : Bool := (c.builtIns.lookup i.path).isSome

end ImportRef

namespace Query

/-- The first document that can be read at one of several paths. -/
def firstDocument : List Path → Query (Option Source)
  | [] => return none
  | p :: rest => do
    match ← document p.toString with
    | some s => return some s
    | none => firstDocument rest

/-- The document that an import means, if it can be read. It cannot be looked for in a
directory without a name. -/
def resolve (i : ImportRef) : Query (Option Source) := do
  let s ← read
  if endsIn i.path s.config.extension then
    if s.config.unnamedInclude then throw .noPath
    match ← firstDocument (i.candidatePaths s.config) with
    | some source => return some source
    | none =>
      log (.importUnresolved i.path i.importer)
      return none
  else
    log (.importSkipped i.path)
    return none

/-- The document that an import means, if its declarations count. -/
def supported (i : ImportRef) : Query (Option Source) := do
  let s ← read
  match ← resolve i with
  | none => return none
  | some source =>
    if s.config.supports source.document then return some source
    else
      log (.importForeign i.path source.document.dialect)
      return none

/-- The document of a module. That there is no such module is only reported. -/
def builtInModule (module : String) : Query (Option Source) := do
  let s ← read
  match s.modules.document module with
  | .error e =>
    if e.isAbsence then
      log (.builtInMissing module e.message)
      return none
    else throw (.module e)
  | .ok d =>
    let p ← get
    if p.builtInsUsed.contains module then
      return some ⟨.builtIn module, d⟩
    else
      set { p with builtInsUsed := module :: p.builtInsUsed }
      log (.builtInLoaded module d.uri)
      return some ⟨.builtIn module, d⟩

/-- The built-in document for an import path, if there is one. -/
def builtIn (path : String) : Query (Option Source) := do
  let s ← read
  match s.config.builtIns.lookup path with
  | none => return none
  | some module => builtInModule module

end Query

end ProtoNames
