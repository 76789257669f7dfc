import ProtoNames.Schema.Grammar
import ProtoNames.Text.Utf8

/-!
What happens while references are looked up and schemas are compiled, as data.

Every event has a level, a name and fields in a fixed order; how they are written is the
matter of `Log.Line`.
-/

namespace ProtoNames

/-- How much an event matters. -/
inductive Level
  | debug | info | warning | error
  deriving DecidableEq, Repr

/-- The value of a field of an event. -/
inductive FieldValue
  | none
  | text (s : String)
  | number (n : Int)
  | texts (items : List String)
  deriving DecidableEq, Repr

/-- A text, shown as an empty list if there is none. -/
def FieldValue.ofText? (s : Option String) : FieldValue := (s.map FieldValue.text).getD (.texts [])

/-- What happened. -/
inductive Event
  /-- A file has not the extension of schema files. -/
  | fileSkipped (path : String)
  | fileUnreadable (path : String) (error : Text.Utf8Error)
  | fileMalformed (path : String) (error : ParseError)
  | fileLoaded (path : String)
  /-- An import path has not the extension of schema files. -/
  | importSkipped (path : String)
  /-- No file was found for an import. -/
  | importUnresolved (path importer : String)
  /-- An imported file states a dialect that is left out. -/
  | importForeign (path : String) (dialect : Option String)
  /-- An import leads to a file whose declarations are known already. -/
  | importRepeated (path : String)
  | builtInLoaded (module uri : String)
  | builtInMissing (module : String) (reason : String)
  | cancelled
  /-- A type name has several meanings and none is nearest. -/
  | typeAmbiguous (name : String) (candidates : List String)
  /-- A scope was built; kind and site as far as they are given. -/
  | scopeBuilt (kind site : Option String) (candidates : Nat)
  /-- A line of the compiler's output is no diagnostic. -/
  | outputIgnored (line : String)
  /-- A file was not compiled because of its extension. -/
  | compilationSkipped (path : String)
  | compilationStarted (command : String)
  | compilationFinished (path : String) (status : Int) (markers : Nat)

namespace Event

/-- The level of an event. -/
def level : Event → Level
  | .fileSkipped _ => .debug
  | .fileUnreadable _ _ => .warning
  | .fileMalformed _ _ => .warning
  | .fileLoaded _ => .debug
  | .importSkipped _ => .debug
  | .importUnresolved _ _ => .info
  | .importForeign _ _ => .debug
  | .importRepeated _ => .debug
  | .builtInLoaded _ _ => .debug
  | .builtInMissing _ _ => .warning
  | .cancelled => .info
  | .typeAmbiguous _ _ => .info
  | .scopeBuilt _ _ _ => .debug
  | .outputIgnored _ => .debug
  | .compilationSkipped _ => .debug
  | .compilationStarted _ => .debug
  | .compilationFinished _ _ _ => .info

/-- The name of an event. -/
def name : Event → String
  | .fileSkipped _ => "resource_skipped_extension"
  | .fileUnreadable _ _ => "resource_unreadable"
  | .fileMalformed _ _ => "resource_parse_failed"
  | .fileLoaded _ => "resource_loaded"
  | .importSkipped _ => "import_skipped_extension"
  | .importUnresolved _ _ => "import_unresolved"
  | .importForeign _ _ => "import_skipped_dialect"
  | .importRepeated _ => "import_already_visited"
  | .builtInLoaded _ _ => "descriptor_bundle_loaded"
  | .builtInMissing _ _ => "descriptor_bundle_unavailable"
  | .cancelled => "resolution_cancelled"
  | .typeAmbiguous _ _ => "type_ambiguous"
  | .scopeBuilt _ _ _ => "scope_built"
  | .outputIgnored _ => "protoc_output_ignored"
  | .compilationSkipped _ => "protoc_skipped"
  | .compilationStarted _ => "protoc_command"
  | .compilationFinished _ _ _ => "protoc_finished"

/-- The fields of an event, in order. -/
def fields : Event → List (String × FieldValue)
  | .fileSkipped path => [("path", .text path)]
  | .fileUnreadable path error => [("path", .text path), ("error", .text error.message)]
  | .fileMalformed path error => [("path", .text path), ("error", .text error.message)]
  | .fileLoaded path => [("path", .text path)]
  | .importSkipped path => [("path", .text path)]
  | .importUnresolved path importer => [("path", .text path), ("importer", .text importer)]
  | .importForeign path dialect =>
    [("path", .text path), ("syntax", (dialect.map FieldValue.text).getD .none)]
  | .importRepeated path => [("path", .text path)]
  | .builtInLoaded module uri => [("module", .text module), ("uri", .text uri)]
  | .builtInMissing module reason => [("module", .text module), ("error", .text reason)]
  | .cancelled => []
  | .typeAmbiguous name candidates => [("name", .text name), ("candidates", .texts candidates)]
  | .scopeBuilt kind site candidates =>
    [("kind", .ofText? kind), ("site", .ofText? site), ("candidates", .number candidates)]
  | .outputIgnored line => [("line", .text line)]
  | .compilationSkipped path => [("path", .text path)]
  | .compilationStarted command => [("command", .text command)]
  | .compilationFinished path status markers =>
    [("path", .text path), ("returncode", .number status), ("markers", .number markers)]

end Event

end ProtoNames
