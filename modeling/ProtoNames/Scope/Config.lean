import ProtoNames.Builtin.Files
import ProtoNames.File.Path

/-!
The settings of a look-up: where imports are found, and which of them count.
-/

namespace ProtoNames

/-- The dialect of a file that states none. -/
def defaultDialect : String := "proto2"

/-- The extension of schema files. -/
def schemaExtension : String := ".proto"

/-- The settings of a look-up. -/
structure Config where
  /-- Directories in which imports are looked for. -/
  includePaths : List String
  /-- Whether there is a directory without a name besides. -/
  unnamedInclude : Bool
  /-- The extension of the files that are read. -/
  extension : String
  /-- The dialects whose imported files count. -/
  dialects : List String
  /-- The imports that are built in: import path and module. -/
  builtIns : List (String × String)
  /-- Whether the public imports of a file count only if it was imported publicly itself or
  stands at the start. -/
  strict : Bool
  deriving DecidableEq, Repr

/-- The usual settings. -/
def Config.default : Config where
  includePaths := []
  unnamedInclude := false
  extension := schemaExtension
  dialects := [defaultDialect]
  builtIns := Builtin.wellKnownImports
  strict := true

/-- The dialect of a document: the one that it states, unless that is empty. -/
def Document.effectiveDialect (d : Document) : String :=
  match d.dialect with
  | some name => if name.isEmpty then defaultDialect else name
  | none => defaultDialect

/-- Whether a document's declarations count when it is imported. -/
def Config.supports (c : Config) (d : Document) : Bool :=
  c.dialects.contains d.effectiveDialect

end ProtoNames
