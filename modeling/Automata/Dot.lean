import Automata.Simulator

/-!
# Drawings in the DOT language

A drawing is a list of statements: one for every vertex, one for every pair of vertices with an edge
between them, and an arrow without a source that enters the first initial state.
-/

namespace Automata.Dot

/-- A statement of a drawing. -/
inductive Statement where
  /-- A vertex, with a double border if it is accepting. -/
  | vertex (label : String) (accepting : Bool)
  /-- All edges from one vertex to another, with the symbols on them. -/
  | edges (source destination : String) (symbols : List String)
  /-- The invisible point that the entry arrow comes from. -/
  | entryPoint
  /-- The entry arrow. -/
  | entry (destination : String)
  deriving DecidableEq

/-! ### Statements of an automaton -/

/-- Files the symbol of an edge under its destination, each symbol once. -/
def fileEdge (e : Edge) : List (String × List String) → List (String × List String)
  | [] => [(e.destination, [e.weight])]
  | (d, symbols) :: rows =>
    if d = e.destination then
      (d, if symbols.contains e.weight then symbols else symbols ++ [e.weight]) :: rows
    else (d, symbols) :: fileEdge e rows

/-- The symbols of edges by destination, both in the order of the edges. -/
def byDestination (es : List Edge) : List (String × List String) :=
  es.foldl (fun rows e => fileEdge e rows) []

/-- The statements for the edges that leave the vertex of a row. -/
def rowStatements (row : String × List Edge) : List Statement :=
  (byDestination row.2).map fun (destination, symbols) => .edges row.1 destination symbols

def entryStatements (initial : List String) : List Statement :=
  match initial with
  | [] => []
  | first :: _ => [.entryPoint, .entry first]

def statements (s : Simulator) : List Statement :=
  s.graph.vertices.map (fun v => .vertex v (s.isAccepting v)) ++
    s.graph.adjacency.flatMap rowStatements ++ entryStatements s.initial

/-! ### Text -/

/-- An identifier between quotation marks. -/
def quote (label : String) : String :=
  String.ofList ('"' :: (label.toList.flatMap fun c =>
    if c = '\\' then ['\\', '\\'] else if c = '"' then ['\\', '"'] else [c]) ++ ['"'])

def Statement.render : Statement → String
  | .vertex label accepting =>
    "  " ++ quote label ++ " [shape=circle" ++ (if accepting then ", peripheries=2" else "") ++
      "];\n"
  | .edges source destination symbols =>
    "  " ++ quote source ++ " -> " ++ quote destination ++ " [label=" ++
      quote (",".intercalate symbols) ++ "];\n"
  | .entryPoint => "  \"\" [shape=none];\n"
  | .entry destination => "  \"\" -> " ++ quote destination ++ " [dir=forward, arrowhead=normal];\n"

def render (s : Simulator) : String :=
  "digraph G \x7b\n" ++ String.join ((statements s).map (·.render)) ++ "\x7d"

end Automata.Dot

namespace Automata

/-- The drawing of `m`, which must have an initial state. -/
def Automaton.toDot (m : Automaton) : Except Error String :=
  (Simulator.ofAutomaton m).map Dot.render

end Automata
