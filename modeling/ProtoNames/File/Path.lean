import ProtoNames.Text.Pieces
import ProtoNames.Text.Quoted

/-!
File paths.

A path is a root and parts. Empty parts and single dots are dropped when a path is read;
`..` stays until the path is made absolute. Exactly two slashes in front are a root of their
own, as POSIX allows, until then too.

Where a path leads depends on the machine: on the directory that is the current one, on the
users that there are, and on symbolic links. All that is needed of it is in `Surroundings`.
-/

namespace ProtoNames

open Text

/-- Where a path starts. -/
inductive PathRoot
  | relative | absolute | doubleSlash
  deriving DecidableEq, Repr

/-- A path that has been read. -/
structure Path where
  root : PathRoot
  parts : List String
  deriving DecidableEq, Repr

/-- What a program finds around it. -/
structure Surroundings where
  /-- The parts of the current directory. -/
  current : List String
  /-- The parts of the user's home directory. -/
  home : List String
  /-- The parts of the home directories of all users, by their names. -/
  homes : String → Option (List String)
  /-- Where the parts of an absolute path lead, behind `..` and symbolic links. Links that lead
  round in a circle lead to no file: then there is the place where they are given up. -/
  real : List String → Except (List String) (List String)
  /-- How many calls the stack has room for when a text is read. -/
  frames : Nat

/-- Why a path leads to no file. -/
inductive PathError
  /-- It begins with the home directory of a user that there is not. -/
  | unknownHome
  /-- It holds a null character, which no file system takes. -/
  | nullCharacter
  /-- Symbolic links lead round in a circle. -/
  | linkLoop (path : String)
  deriving DecidableEq, Repr

/-- The words for a path error. -/
def PathError.message : PathError → String
  | .unknownHome => "Could not determine home directory."
  | .nullCharacter => "embedded null byte"
  | .linkLoop path => "Symlink loop from " ++ quoted path

/-- Parts joined by slashes. -/
def joinSlashes (parts : List String) : String := joined "/" parts

/-- Whether a text ends in another. -/
def endsIn (text ending : String) : Bool := ending.toList.isSuffixOf text.toList

namespace Path

/-- The root of a path, by the number of slashes in front. -/
def rootOf : List Char → PathRoot
  | '/' :: '/' :: '/' :: _ => .absolute
  | '/' :: '/' :: _ => .doubleSlash
  | '/' :: _ => .absolute
  | _ => .relative

/-- Reads a path. -/
def ofString (s : String) : Path :=
  ⟨rootOf s.toList,
    ((pieces '/' s.toList).map String.ofList).filter fun p => p != "" && p != "."⟩

/-- Writes a path; the empty relative path is a dot. -/
def toString (p : Path) : String :=
  match p.root with
  | .absolute => "/" ++ joinSlashes p.parts
  | .doubleSlash => "//" ++ joinSlashes p.parts
  | .relative => if p.parts.isEmpty then "." else joinSlashes p.parts

/-- The path `q` as seen from the directory `p`. -/
def join (p q : Path) : Path :=
  if q.root = .relative then ⟨p.root, p.parts ++ q.parts⟩ else q

/-- The directory that contains what a path leads to. -/
def parent (p : Path) : Path := ⟨p.root, p.parts.dropLast⟩

/-- A leading part `~` or `~name` replaced by the home directory of the user. -/
def expandHome? (around : Surroundings) (p : Path) : Option Path :=
  match p.root, p.parts with
  | .relative, first :: rest =>
    if first == "~" then some ⟨.absolute, around.home ++ rest⟩
    else
      match first.toList with
      | '~' :: name =>
        (around.homes (String.ofList name)).map fun home => ⟨.absolute, home ++ rest⟩
      | _ => some p
  | _, _ => some p

/-- Parts with every `..` taking away the part before it. Above the root is the root. -/
def collapse (parts : List String) : List String :=
  parts.foldl (fun above part => if part == ".." then above.dropLast else above ++ [part]) []

/-- The parts of a path as seen from the root. -/
def partsFromRoot (around : Surroundings) (p : Path) : List String :=
  if p.root = .relative then around.current ++ p.parts else p.parts

/-- A path without `..`, starting from the current directory if it is relative. Links are not
followed. -/
def absolute (around : Surroundings) (p : Path) : Path :=
  ⟨if p.root = .relative then .absolute else p.root, collapse (p.partsFromRoot around)⟩

/-- Whether a text holds a null character. -/
def holdsNull (s : String) : Bool := s.toList.contains '\x00'

/-- The absolute form of a path, without `~`, `.`, `..` and links: the identity of a file. The
home is looked up before the rest of the path is looked at. -/
def uri (around : Surroundings) (path : String) : Except PathError String :=
  let p := ofString path
  match p.expandHome? around with
  | none => .error (if p.parts.head?.any holdsNull then .nullCharacter else .unknownHome)
  | some q =>
    if p.parts.any holdsNull then .error .nullCharacter
    else
      match around.real (q.partsFromRoot around) with
      | .error parts => .error (.linkLoop ("/" ++ joinSlashes parts))
      | .ok parts => .ok ("/" ++ joinSlashes parts)

end Path

/-- Surroundings with no links, where all happens in the root directory. -/
def Surroundings.plain : Surroundings where
  current := []
  home := []
  homes _ := none
  real parts := .ok (Path.collapse parts)
  frames := 1000

end ProtoNames
