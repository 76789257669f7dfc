import ProtoNames.CommandLine.Run

/-!
The command as a program.

All that it decides is in `CommandLine.outcome`. Here the files that the look-up can reach
are read beforehand: the schema, what it imports, and so on. Compilers are not started from
here, so a compilation that is asked for finds none.
-/

namespace ProtoNames.CommandLine

/-- The bytes of a file, if it can be read. -/
def bytesOfFile? (uri : String) : IO (Option (List UInt8)) := do
  try
    return some (← IO.FS.readBinFile uri).toList
  catch _ => return none

/-- The files that the imports of a file may be in. -/
def importedUris (around : Surroundings) (config : Config) (uri : String)
    (bytes : List UInt8) : List String :=
  match fileText bytes with
  | .error _ => []
  | .ok text =>
    match Document.parse around.frames uri text with
    | .error _ => []
    | .ok d =>
      (ImportRef.ofDocument d).flatMap fun i =>
        (i.candidatePaths config).filterMap fun p => (Path.uri around p.toString).toOption

/-- Reads files and those that they import, and adds them to the ones that are known. -/
partial def gather (around : Surroundings) (config : Config) (known : FileStore)
    (tried : List String) : List String → IO FileStore
  | [] => return known
  | uri :: rest => do
    if tried.contains uri || !endsIn uri config.extension then
      gather around config known tried rest
    else
      match ← bytesOfFile? uri with
      | none => gather around config known (uri :: tried) rest
      | some bytes =>
        let further := importedUris around config uri bytes
        gather around config (known.write uri bytes) (uri :: tried) (rest ++ further)

/-- The parts of an absolute path. -/
def partsOf (path : String) : List String := (Path.ofString path).parts

/-- Where the program runs. Other users and symbolic links are not asked about. -/
def surroundings : IO Surroundings := do
  let current ← IO.currentDir
  let home ← IO.getEnv "HOME"
  return { Surroundings.plain with
    current := partsOf current.toString
    home := partsOf (home.getD "/") }

/-- The files that an invocation can reach. -/
def reachable (around : Surroundings) (i : Invocation) : IO FileStore :=
  gather around i.config ⟨[]⟩ [] (Path.uri around i.path).toOption.toList

/-- The files that arguments can reach. -/
def reachableFrom (around : Surroundings) (args : List String) : IO FileStore :=
  match Request.ofArguments args with
  | .ok (.run i) => reachable around i
  | _ => return ⟨[]⟩

/-- The machine's clock in log lines: milliseconds since some start. -/
def clock : IO String := return toString (← IO.monoMsNow) ++ "ms"

/-- What the command works with here. -/
def hostFor (args : List String) : IO Host := do
  let around ← surroundings
  return ⟨around, ← reachableFrom around args, Builtin.wellKnown, none, "/tmp", ← clock⟩

/-- Runs the command. A failure that it does not answer for is status 1. -/
def runProgram (args : List String) : IO UInt32 := do
  match outcome args (← hostFor args) with
  | .ok o =>
    IO.print o.output
    IO.eprint (if o.status = 2 then o.errors ++ "\n" else o.errors)
    return UInt32.ofNat o.status
  | .error c =>
    IO.eprint (Failure.crash c).message
    return 1

end ProtoNames.CommandLine

/-- The program. -/
def main (args : List String) : IO UInt32 := ProtoNames.CommandLine.runProgram args
