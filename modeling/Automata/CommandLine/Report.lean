import Automata.Json.Codec
import Automata.Run

/-!
# Reports

What a session says of an automaton: its class, its unreachable states, and for every input whether it
is accepted. A report is printed as lines or as one JSON object. A trace shows the stages of one run.
-/

namespace Automata.CommandLine

/-- A text and whether it is accepted. -/
structure Query where
  input : String
  accepted : Bool

/-- What is said of an automaton. -/
structure Report where
  kind : Determinism
  unreachable : List String
  queries : List Query

def Query.render (q : Query) : String :=
  Text.quoted q.input ++ ": the string is " ++ (if q.accepted then "accepted" else "rejected") ++
    "\n"

def Report.render (r : Report) : String :=
  "The input automaton is a " ++ r.kind.description ++ ".\n" ++
    (if r.unreachable.isEmpty then ""
      else "Unreachable states: " ++ ", ".intercalate r.unreachable ++ "\n") ++
    String.join (r.queries.map Query.render)

def Query.toJson (q : Query) : Json :=
  JsonCodec.ofFields [("input", .ofString q.input), ("accepted", .bool q.accepted)]

def Report.toJson (r : Report) : Json :=
  JsonCodec.ofFields [("kind", JsonCodec.encode r.kind),
    ("unreachable", JsonCodec.encode r.unreachable), ("queries", .array (r.queries.map (·.toJson)))]

/-! ### Traces -/

/-- The stages of a run, and how it ends. -/
structure Trace where
  stages : List (Nat × StateSet)
  verdict : Verdict

/-- The trace of a run from where it is. -/
def Trace.ofRun (r : Run) : Trace :=
  match r.step with
  | .halted v _ => ⟨[(r.position, r.active)], v⟩
  | .consumed r' _ =>
    let t := Trace.ofRun r'
    ⟨(r.position, r.active) :: t.stages, t.verdict⟩
termination_by r.remaining

def trace (s : Simulator) (input : String) : Trace :=
  .ofRun (.start s (symbolsOf input))

/-- The verdict as a trace names it. -/
def showVerdict : Verdict → String
  | .accept => "Accept"
  | .reject => "Reject"
  | .failure e => "Err(" ++ e.constructed ++ ")"

def showStage (stage : Nat × StateSet) : String :=
  "Step: " ++ toString stage.1 ++ ", States: \x7b" ++ ", ".intercalate stage.2.toList ++ "\x7d\n"

def showTrace (s : Simulator) (input : String) : String :=
  let t := trace s input
  "\nTracing " ++ Text.quoted input ++ "\n" ++ String.join (t.stages.map showStage) ++
    "Halted: " ++ showVerdict t.verdict ++ "\n"

end Automata.CommandLine
