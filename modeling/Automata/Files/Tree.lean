import Automata.Files.Catalogue

/-!
# Directory trees

A tree holds files and directories under names. It makes up a file system in which everything may be
read. Paths are followed from the top of the tree, or from a working directory, name by name.
-/

namespace Automata.Files

/-- A file, or a directory as it is listed. -/
inductive Entry where
  | file (content : ByteArray)
  | directory (entries : List (FileName × Entry))

/-- The listing of a directory, with all that is in it. -/
abbrev Tree := List (FileName × Entry)

namespace Entry

def entries : Entry → Tree
  | .file _ => []
  | .directory entries => entries

def kind : Entry → Kind
  | .file _ => .file
  | .directory _ => .directory

end Entry

namespace Tree

/-! ### Following paths -/

/-- The size in bytes that a name may have. -/
def maxNameSize : Nat := 255

/-- The size in bytes that a path may have. -/
def maxPathSize : Nat := 4095

/-- Follows parts of a path from a directory; `above` are the directories around it, the nearest
first. An empty part and a dot stay. Two dots go up, unless the directory is the top one. -/
def follow : (above : List Tree) → Tree → List FileName → Except FileFault Entry
  | _, here, [] => .ok (.directory here)
  | above, here, part :: rest =>
    if part = [] ∨ part = [dot] then follow above here rest
    else if part = [dot, dot] then follow above.tail (above.headD here) rest
    else if maxNameSize < part.length then .error .nameTooLong
    else
      match here.lookup part with
      | none => .error .notFound
      | some (.directory entries) => follow (here :: above) entries rest
      | some (.file content) =>
        match rest with
        | [] => .ok (.file content)
        | _ :: _ => .error .notADirectory

/-! ### Making trees -/

/-- Puts an entry under a name, in the place of one that is there. -/
def put (name : FileName) (e : Entry) : Tree → Tree
  | [] => [(name, e)]
  | (n, e') :: rest => if n = name then (n, e) :: rest else (n, e') :: put name e rest

/-- Makes a file, or a directory if there is no content, with the directories on its path. -/
def make (content : Option ByteArray) : List FileName → Tree → Tree
  | [], t => t
  | name :: rest, t =>
    let inside := (t.lookup name).elim [] Entry.entries
    match rest, content with
    | [], some bytes => t.put name (.file bytes)
    | _, _ => t.put name (.directory (make content rest inside))

/-- The tree of files and directories at given paths. -/
def ofFiles (files : List (String × Option ByteArray)) : Tree :=
  files.foldl (fun t (path, content) =>
    t.make content ((Path.ofText path).parts.filter fun part => part != [] && part != [dot])) []

end Tree

/-! ### Trees as file systems -/

/-- A tree with a working directory, where paths start that are not absolute. -/
structure Disk where
  top : Tree
  working : List FileName

namespace Disk

/-- The names from the top to where a path starts. -/
def start (d : Disk) (path : Path) : List FileName :=
  if path.isAbsolute then [] else d.working

/-- The entry at a path. -/
def find (d : Disk) (path : Path) : Except FileFault Entry :=
  if 0 ∈ path.bytes then .error .nulInName
  else if path.bytes = [] then .error .notFound
  else if Tree.maxPathSize < path.bytes.length then .error .nameTooLong
  else Tree.follow [] d.top (d.start path ++ path.parts)

def read (d : Disk) (path : Path) : Except FileFault ByteArray := do
  match ← d.find path with
  | .file content => return content
  | .directory _ => .error .isADirectory

def list (d : Disk) (path : Path) : Except FileFault Listing := do
  match ← d.find path with
  | .file _ => .error .notADirectory
  | .directory entries => return entries.map fun e => .ok e.1

def fileSystem (d : Disk) : FileSystem where
  list := d.list
  kind path := (d.find path).map (·.kind)
  read := d.read

end Disk

namespace Tree

/-- The name of the working directory that holds a tree. -/
def workingName : FileName := .ofText "work"

/-- The tree in a working directory, beside which there is nothing. -/
def disk (t : Tree) : Disk :=
  ⟨[(workingName, .directory t)], [workingName]⟩

def fileSystem (t : Tree) : FileSystem :=
  t.disk.fileSystem

instance : Coe Tree FileSystem := ⟨fileSystem⟩

def read (t : Tree) (path : String) : Except FileFault ByteArray :=
  t.fileSystem.read path

end Tree

/-! ### Loading from trees -/

/-- The automaton in the file at `path`. -/
def load (t : Tree) (path : String) : Except Error Automaton :=
  t.fileSystem.load path

/-- The automata in the specification files of a directory, with their paths as they are shown. -/
def loadDirectory (t : Tree) (path : String) : List (Except Error (String × Automaton)) :=
  (t.fileSystem.loadDirectory path).map fun r => r.map fun (path, m) => (path.display, m)

end Automata.Files
