import Automata.Files.System
import Automata.Specification.Reading

/-!
# Automata in files

A file holds the specification of one automaton. Of a directory all files of the right extension are
loaded; each one succeeds or fails by itself.
-/

namespace Automata.Files

/-- The extension of specification files. -/
def specificationExtension : FileName := .ofText "fa"

/-- The automaton in a file that is shown as `path`, given what reading the file came to. -/
def loadContent (path : String) (content : Except FileFault ByteArray) : Except Error Automaton :=
  match content with
  | .error fault => .error (.unreadableFile path fault)
  | .ok bytes =>
    match String.fromUTF8? bytes with
    | none => .error (.unreadableFile path .notUtf8)
    | some text => Specification.parse text

/-- What loading one file of a directory comes to. -/
abbrev Loaded := Except Error (Path × Automaton)

def failure? {α : Type} : Except Error α → Option Error
  | .error e => some e
  | .ok _ => none

def success? {α : Type} : Except Error α → Option α
  | .error _ => none
  | .ok r => some r

/-! ### The order of the results -/

/-- What results are ordered by: a success by its path, and a failure by nothing. -/
def orderKey (r : Loaded) : Option Path :=
  (success? r).map Prod.fst

/-- The results by their keys, where nothing is before any path. Results with one key stay in the
order in which they come. -/
def arrange (results : List Loaded) : List Loaded :=
  results.mergeSort fun a b => (compare (orderKey a) (orderKey b)).isLE

/-! ### Loading -/

namespace FileSystem

variable (fs : FileSystem)

/-- The automaton in the file at `path`. -/
def load (path : Path) : Except Error Automaton :=
  loadContent path.display (fs.read path)

/-- The automaton at `path` with the path, or why there is none. -/
def loadNamed (path : Path) : Loaded :=
  match fs.load path with
  | .ok m => .ok (path, m)
  | .error e => .error (.unloadable path.display e)

/-- Whether an entry of a directory is taken for a specification file: it has the extension, and is
not known to be a directory. -/
def isSpecification (directory : Path) (name : FileName) : Bool :=
  !fs.isDirectory (directory.join name) && extension? name == some specificationExtension

/-- What an item of a listing comes to, if anything. -/
def loadItem? (directory : Path) : Except FileFault FileName → Option Loaded
  | .error fault => some (.error (.unreadableEntry fault))
  | .ok name =>
    if fs.isSpecification directory name then some (fs.loadNamed (directory.join name)) else none

/-- The automata in the specification files of the directory at `path`. -/
def loadDirectory (path : Path) : List Loaded :=
  match fs.list path with
  | .error fault => [.error (.unreadableDirectory path.display fault)]
  | .ok listing => arrange (listing.filterMap (fs.loadItem? path))

end FileSystem

end Automata.Files
