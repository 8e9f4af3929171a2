import Automata.Error
import Automata.Files.Path

/-!
# File systems

What can be asked about a path, each time with the answer that it cannot be told. Listing a directory
may also fail in the middle: then some items of the listing are faults instead of names.
-/

namespace Automata.Files

/-- What a path leads to. -/
inductive Kind where
  | file
  | directory
  /-- A device, a socket or a pipe. -/
  | other
  deriving DecidableEq

/-- A listing as it is handed out, item by item. -/
abbrev Listing := List (Except FileFault FileName)

/-- The answers of a system of files, which does not change meanwhile. Links are followed. -/
structure FileSystem where
  /-- The names in a directory, in no particular order. -/
  list : Path → Except FileFault Listing
  /-- What a path leads to. -/
  kind : Path → Except FileFault Kind
  /-- The content of a file. -/
  read : Path → Except FileFault ByteArray

/-- Whether a path is known to lead to a directory: not if there is any fault on the way. -/
def FileSystem.isDirectory (fs : FileSystem) (path : Path) : Bool :=
  match fs.kind path with
  | .ok .directory => true
  | _ => false

end Automata.Files
