import ProtoNames.Log.Event
import ProtoNames.Text.Quoted

/-!
Events as lines of a log.

A line is written for people or as a JSON object. For people the fields stand behind the
event, sorted by name; texts are quoted only where they need it. The object has the fields
in their own order first and is written in ASCII. Time is the matter of who writes the log.
-/

namespace ProtoNames

open Text

/-! ### Levels -/

/-- The rank of a level. -/
def Level.rank : Level → Nat
  | .debug => 10
  | .info => 20
  | .warning => 30
  | .error => 40

/-- The name of a level in a line. -/
def Level.name : Level → String
  | .debug => "debug"
  | .info => "info"
  | .warning => "warning"
  | .error => "error"

/-- A letter in upper case, as far as names of levels need it. The dotless i is a small i. -/
def upperLetter (c : Char) : Char := if c == 'ı' then 'I' else c.toUpper

/-- The level that a name in any case means; warnings unless it is known. -/
def Level.ofName (name : String) : Level :=
  match String.ofList (name.toList.map upperLetter) with
  | "DEBUG" => .debug
  | "INFO" => .info
  | "ERROR" => .error
  | _ => .warning

/-- Whether an event is worth a line when lines are wanted from a level on. -/
def Event.isWorth (e : Event) (least : Level) : Bool := least.rank ≤ e.level.rank

/-! ### Lines for people -/

/-- Whether a text has to be quoted: it has a blank or a mark that could be misread. -/
def needsQuotes (s : String) : Bool :=
  s.toList.any [' ', '\t', '=', '\r', '\n', doubleQuote, singleQuote].contains

/-- The value of a field. -/
def FieldValue.plain : FieldValue → String
  | .none => "None"
  | .text s => if needsQuotes s then quoted s else s
  | .number n => toString n
  | .texts items => quotedList items

/-- A line for people. -/
def Event.plainLine (time : String) (e : Event) : String :=
  let fields := e.fields.mergeSort fun a b => decide (a.1 ≤ b.1)
  time ++ " [" ++ e.level.name ++ "] " ++ e.name ++
    String.join (fields.map fun (key, value) => " " ++ key ++ "=" ++ value.plain)

/-! ### JSON lines -/

/-- A code unit of UTF-16 as an escape. -/
def unitEscape (n : Nat) : List Char := '\\' :: 'u' :: hexDigits 4 n

/-- One character inside a JSON string. Above the basic plane it takes a surrogate pair. -/
def jsonEscaped (c : Char) : List Char :=
  if c == '"' || c == '\\' then ['\\', c]
  else if c == '\n' then ['\\', 'n']
  else if c == '\r' then ['\\', 'r']
  else if c == '\t' then ['\\', 't']
  else if c.toNat == 8 then ['\\', 'b']
  else if c.toNat == 12 then ['\\', 'f']
  else if 32 ≤ c.toNat && c.toNat < 127 then [c]
  else if c.toNat < 0x10000 then unitEscape c.toNat
  else
    let offset := c.toNat - 0x10000
    unitEscape (0xD800 + offset / 0x400) ++ unitEscape (0xDC00 + offset % 0x400)

/-- A JSON string. -/
def jsonString (s : String) : String :=
  String.ofList (doubleQuote :: s.toList.flatMap jsonEscaped ++ [doubleQuote])

/-- The value of a field in JSON. -/
def FieldValue.json : FieldValue → String
  | .none => "null"
  | .text s => jsonString s
  | .number n => toString n
  | .texts items => "[" ++ ", ".intercalate (items.map jsonString) ++ "]"

/-- A JSON object with its members in order. -/
def jsonObject (members : List (String × FieldValue)) : String :=
  "\x7b" ++ ", ".intercalate (members.map fun (key, value) => jsonString key ++ ": " ++ value.json)
    ++ "\x7d"

/-- A JSON line. -/
def Event.jsonLine (time : String) (e : Event) : String :=
  jsonObject (e.fields ++
    [("event", .text e.name), ("level", .text e.level.name), ("timestamp", .text time)])

/-! ### Logs -/

/-- How a log is written. -/
structure LogStyle where
  least : Level
  json : Bool
  deriving DecidableEq, Repr

/-- The line for an event. -/
def LogStyle.line (style : LogStyle) (time : String) (e : Event) : String :=
  (if style.json then e.jsonLine time else e.plainLine time) ++ "\n"

/-- The log of some events. -/
def LogStyle.log (style : LogStyle) (time : String) (events : List Event) : String :=
  String.join ((events.filter (·.isWorth style.least)).map (style.line time))

end ProtoNames
