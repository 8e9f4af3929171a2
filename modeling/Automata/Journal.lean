import Automata.Files.Tree
import Automata.Run

/-!
# Journal

What each activity reports of itself, record by record. The journal is read off the activity's input,
so keeping one changes nothing.
-/

namespace Automata.Journal

/-- How much a record matters. -/
inductive Level where
  | trace
  | debug
  | warn
  deriving DecidableEq

def Level.name : Level → String
  | .trace => "trace"
  | .debug => "debug"
  | .warn => "warn"

structure Record where
  level : Level
  message : String
  deriving DecidableEq

/-! ### Automata -/

/-- Records of a classification: the class that was found. -/
def ofClassify (m : Automaton) : List Record :=
  [⟨.debug, "classified automaton with " ++ toString m.states.length ++ " states as " ++
    m.classify.abbreviation⟩]

/-- Records of a validation: the unreachable states of a sound automaton. -/
def ofValidate (m : Automaton) : List Record :=
  match m.defect?, m.unreachable with
  | none, s :: l => [⟨.warn, "unreachable states: " ++ Text.quotedList (s :: l)⟩]
  | _, _ => []

/-- Records of a reading: those of the validation, and the size of what was read. -/
def ofParse (text : String) : List Record :=
  match Specification.parse text with
  | .error _ => []
  | .ok m => ofValidate m ++
    [⟨.debug, "parsed automaton: " ++ toString m.states.length ++ " states, " ++
      toString m.transitionCount ++ " transitions"⟩]

/-- Records of loading a file: those of reading its text. -/
def ofLoad (fs : Files.FileSystem) (path : Files.Path) : List Record :=
  match (fs.read path).toOption.bind String.fromUTF8? with
  | some text => ofParse text
  | none => []

/-- Records of loading a directory: those of its specification files as they are listed. -/
def ofLoadDirectory (fs : Files.FileSystem) (path : Files.Path) : List Record :=
  match fs.list path with
  | .error _ => []
  | .ok listing =>
    (listing.filterMap Except.toOption).flatMap fun name =>
      if fs.isSpecification path name then ofLoad fs (path.join name) else []

/-- Records of making a simulator: the classification and the size of the graph. -/
def ofSimulator (m : Automaton) : List Record :=
  match Simulator.ofAutomaton m with
  | .error _ => []
  | .ok s => ofClassify m ++
    [⟨.debug, "built " ++ s.determinism.abbreviation ++ " simulator: " ++
      toString s.graph.vertexCount ++ " vertices, " ++ toString s.graph.edgeCount ++ " edges"⟩]

/-! ### Runs -/

/-- Records of a step: the move that was made, or that none could be made. -/
def ofStep (r : Run) : List Record :=
  match r.verdict, r.input[r.position]? with
  | none, some symbol =>
    match r.simulator.advance r.active symbol with
    | .error _ => []
    | .ok next =>
      if next.isEmpty then
        [⟨.trace, "no transition on " ++ Text.quoted symbol ++ " at position " ++
          toString r.position⟩]
      else
        [⟨.trace, Text.quoted symbol ++ ": " ++ Text.quotedSet r.active.toList ++ " -> " ++
          Text.quotedSet next.toList⟩]
  | _, _ => []

/-- Records of the steps up to a verdict. -/
def ofFinish (r : Run) : List Record :=
  match r.step with
  | .halted _ _ => ofStep r
  | .consumed r' _ => ofStep r ++ ofFinish r'
termination_by r.remaining

/-- Records of a query. -/
def ofAccepts (s : Simulator) (input : List String) : List Record :=
  ofFinish (Run.start s input)

end Automata.Journal
