import ProtoNames.Builtin.Files
import ProtoNames.Text.Quoted

/-!
From the name of a module to the file that it carries.

Which modules there are is not for this library to say: it works with any `Modules`. Those
that carry the built-in files are `wellKnown`.

A module's name is dotted. Its leading parts name the packages around it, which are looked
for first, outermost first. So the part of a name that is reported missing is the shortest
one that leads nowhere.
-/

namespace ProtoNames.Builtin

open Text

/-- Why a module gives no descriptor. -/
inductive ModuleError
  | unnamed
  /-- The name begins with a dot, as if it were relative to something. -/
  | relative (module : String)
  | missing (module : String)
  /-- The name leads into another module, which is no package. -/
  | insideModule (module other : String)
  /-- There is something of the name, but it carries no file. -/
  | undescribed (module : String)
  /-- It is there, but fails when it is loaded, perhaps for the lack of another module. -/
  | failing (message : String) (lacking : Bool)
  deriving DecidableEq, Repr

namespace ModuleError

/-- The words for a module error. -/
def message : ModuleError → String
  | .unnamed => "Empty module name"
  | .relative module =>
    "the 'package' argument is required to perform a relative import for " ++ quoted module
  | .missing module => "No module named " ++ quoted module
  | .insideModule module other =>
    "No module named " ++ quoted module ++ "; " ++ quoted other ++ " is not a package"
  | .undescribed module => "module '" ++ module ++ "' has no attribute 'DESCRIPTOR'"
  | .failing message _ => message

/-- Whether the error says that a module is lacking, although the name is in order. -/
def isAbsence : ModuleError → Bool
  | .missing _ | .insideModule _ _ => true
  | .failing _ lacking => lacking
  | _ => false

end ModuleError

/-- The modules that there are: the descriptor that each carries, or why there is none. -/
abbrev Modules := String → Except ModuleError FileDescriptor

/-- The document that a module stands for. -/
def Modules.document (modules : Modules) (module : String) : Except ModuleError Document :=
  (modules module).map FileDescriptor.toDocument

/-! ### The built-in files -/

/-- The leading parts of a dotted name, from the first piece to the whole name. -/
def leadingNames (name : String) : List String :=
  let parts := (pieces '.' name.toList).map String.ofList
  (List.range parts.length).map fun k => joinDots (parts.take (k + 1))

/-- The packages around the modules. -/
def packages : List String := leadingNames package

/-- Whether a module carries a file. -/
def isCarrier (module : String) : Bool := (files.lookup module).isSome

/-- What is wrong with the first of some leading names that leads nowhere, if one does.
They follow the leading name `outer`. -/
def absence? (outer : String) : List String → Option ModuleError
  | [] => none
  | name :: longer =>
    if packages.contains name || isCarrier name then absence? name longer
    else if isCarrier outer then some (.insideModule name outer)
    else some (.missing name)

/-- The modules that carry the built-in files. There are no others. -/
def wellKnown : Modules := fun module =>
  if module.isEmpty then .error .unnamed
  else if module.toList.head? == some '.' then .error (.relative module)
  else
    match absence? "" (leadingNames module), files.lookup module with
    | some e, _ => .error e
    | none, some file => .ok file
    | none, none => .error (.undescribed module)

end ProtoNames.Builtin
