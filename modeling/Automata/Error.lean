import Automata.Validation
import Automata.Specification.Diagnostic

/-!
# Causes of failure

Everything that can go wrong with an automaton: its text, its soundness, its simulation and the file
it comes from. Each cause has one wording.
-/

namespace Automata

/-- The size in bytes that a specification may have. -/
def maxSpecificationSize : Nat := 65536

/-- Why a file or directory cannot be read. -/
inductive FileFault where
  | notFound
  | notADirectory
  | isADirectory
  | permissionDenied
  | notUtf8
  | nulInName
  | nameTooLong
  /-- Any other fault, in the words of the system. -/
  | other (message : String)
  deriving DecidableEq

def FileFault.message : FileFault → String
  | .notFound => "No such file or directory (os error 2)"
  | .notADirectory => "Not a directory (os error 20)"
  | .isADirectory => "Is a directory (os error 21)"
  | .permissionDenied => "Permission denied (os error 13)"
  | .notUtf8 => "stream did not contain valid UTF-8"
  | .nulInName => "file name contained an unexpected NUL byte"
  | .nameTooLong => "File name too long (os error 36)"
  | .other message => message

/-- Why an automaton cannot be had or cannot be run. -/
inductive Error where
  /-- The text is no specification. -/
  | badText (diagnostic : Specification.Diagnostic)
  /-- The text is longer than a specification may be. -/
  | oversized (bytes : Nat)
  /-- The text was read, but to nothing. -/
  | emptySpecification
  /-- The automaton is not sound. -/
  | unsound (defect : Defect)
  /-- There is no state to start from. -/
  | noInitialState
  /-- A run met a label that is no vertex. -/
  | unknownState (label : String)
  /-- A file cannot be read. -/
  | unreadableFile (path : String) (fault : FileFault)
  /-- A directory cannot be listed. -/
  | unreadableDirectory (path : String) (fault : FileFault)
  /-- An item in the listing of a directory cannot be told. -/
  | unreadableEntry (fault : FileFault)
  /-- A file of a directory holds no sound automaton. -/
  | unloadable (path : String) (cause : Error)

def Error.message : Error → String
  | .badText d => "Specification parsing error: " ++ d.message
  | .oversized bytes =>
    "Specification validation error: Specification is " ++ toString bytes ++
      " bytes, the limit is " ++ toString maxSpecificationSize ++ " bytes"
  | .emptySpecification => "Specification validation error: Empty specification"
  | .unsound d => "Specification validation error: " ++ d.message
  | .noInitialState => "No initial state defined"
  | .unknownState label => "Unknown state: " ++ label
  | .unreadableFile path fault =>
    "File error: Failed to read file " ++ path ++ ": " ++ fault.message
  | .unreadableDirectory path fault =>
    "File error: Failed to read directory " ++ path ++ ": " ++ fault.message
  | .unreadableEntry fault => "File error: Failed to read directory entry: " ++ fault.message
  | .unloadable path cause =>
    "File error: Failed to load automaton from " ++ path ++ ": " ++ cause.message

/-- The five kinds of failure. -/
inductive ErrorKind where
  | parsing
  | validation
  | noInitialState
  | unknownState
  | file
  deriving DecidableEq

def Error.kind : Error → ErrorKind
  | .badText _ => .parsing
  | .oversized _ | .emptySpecification | .unsound _ => .validation
  | .noInitialState => .noInitialState
  | .unknownState _ => .unknownState
  | .unreadableFile _ _ | .unreadableDirectory _ _ | .unreadableEntry _ | .unloadable _ _ => .file

/-! ### The constructed form -/

def ErrorKind.name : ErrorKind → String
  | .parsing => "ParseError"
  | .validation => "ValidationError"
  | .noInitialState => "NoInitialState"
  | .unknownState => "UnknownState"
  | .file => "FileError"

/-- What a message of a kind starts with. -/
def ErrorKind.heading : ErrorKind → String
  | .parsing => "Specification parsing error: "
  | .validation => "Specification validation error: "
  | .noInitialState => "No initial state defined"
  | .unknownState => "Unknown state: "
  | .file => "File error: "

/-- The message without its heading. -/
def Error.detail (e : Error) : String :=
  String.ofList (e.message.toList.drop e.kind.heading.length)

/-- The error by the name of its kind, with the detail that it holds. -/
def Error.constructed (e : Error) : String :=
  match e.kind with
  | .noInitialState => e.kind.name
  | kind => kind.name ++ "(" ++ Text.quoted e.detail ++ ")"

def Automaton.validate (m : Automaton) : Except Error Unit :=
  match m.defect? with
  | some d => .error (.unsound d)
  | none => .ok ()

end Automata
