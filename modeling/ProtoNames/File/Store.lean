import ProtoNames.Text.Lines
import ProtoNames.Text.Utf8

/-!
The files that exist, by absolute path.

A file is bytes. It is read as strict UTF-8 with uniform line ends.
-/

namespace ProtoNames

/-- The files that exist. -/
structure FileStore where
  entries : List (String × List UInt8)

namespace FileStore

/-- The bytes of a file. -/
def bytes? (s : FileStore) (path : String) : Option (List UInt8) := s.entries.lookup path

/-- Takes a file away. -/
def delete (s : FileStore) (path : String) : FileStore :=
  ⟨s.entries.filter fun e => e.1 != path⟩

/-- Puts a file in place of what was there. -/
def write (s : FileStore) (path : String) (bytes : List UInt8) : FileStore :=
  ⟨(path, bytes) :: (s.delete path).entries⟩

end FileStore

/-- The text of a file with these bytes. -/
def fileText (bytes : List UInt8) : Except Text.Utf8Error String :=
  (Text.decodeUtf8 bytes).map fun cs => String.ofList (Text.uniformNewlines cs)

end ProtoNames
