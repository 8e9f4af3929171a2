import Automata.Classification
import Automata.Error
import Automata.Graph.Index
import Automata.Reachability
import Automata.StateSet

/-!
# Moves of an automaton

The transitions become the edges of a graph. A deterministic automaton moves from one state to one
state; a non-deterministic one moves from a set of states to a set that is closed under empty moves.
A label that turns up and is no vertex ends the move.
-/

namespace Automata

/-- The graph of `m`: all states, then an edge for every target of every transition. -/
def Graph.ofAutomaton (m : Automaton) : Graph :=
  let vertices := m.states.foldl Graph.addVertex Graph.empty
  m.transitions.foldl
    (fun g t => t.targets.foldl (fun g target => g.addEdge t.source target t.symbol) g) vertices

/-- What is needed to move: the graph with its index, where to start, where to accept, and how to
move. -/
structure Simulator where
  graph : Graph
  index : graph.Index
  initial : List String
  accepting : List String
  determinism : Determinism

namespace Simulator

/-- The simulator of `m`, which must have an initial state. -/
def ofAutomaton (m : Automaton) : Except Error Simulator :=
  if m.initial.isEmpty then .error .noInitialState
  else
    let graph := Graph.ofAutomaton m
    .ok ⟨graph, graph.index, m.initial, m.accepting, m.classify⟩

def isAccepting (s : Simulator) (state : String) : Bool :=
  s.accepting.contains state

/-- Whether a member of `active` is accepting. -/
def anyAccepting (s : Simulator) (active : StateSet) : Bool :=
  active.toList.any s.isAccepting

/-- The edges that leave `state`, which must be a vertex. -/
def edges (s : Simulator) (state : String) : Except Error (List Edge) :=
  match s.index.edges? state with
  | some es => .ok es
  | none => .error (.unknownState state)

/-- The index makes no difference to the edges. -/
theorem edges_eq (s : Simulator) (state : String) :
    s.edges state = match s.graph.edges? state with
      | some es => .ok es
      | none => .error (.unknownState state) := by
  rw [edges, s.index.edges?_eq]

/-! ### Moves from one state -/

/-- Where the first edge with the symbol leads. -/
def step (s : Simulator) (state symbol : String) : Except Error (Option String) := do
  let es ← s.edges state
  return (es.find? (·.weight == symbol)).map (·.destination)

/-- Where the edges with the symbol and the empty edges lead, edge by edge. -/
def destinations (s : Simulator) (state symbol : String) : Except Error (List String) := do
  let es ← s.edges state
  return (es.filter fun e => e.weight == symbol || e.weight == epsilon).map (·.destination)

/-- The states that the edges with the symbol and the empty edges lead to. -/
def nextStates (s : Simulator) (state symbol : String) : Except Error StateSet :=
  (s.destinations state symbol).map .ofList

/-! ### Empty moves -/

/-- Empty edges as steps of a search that stops at a label which is no vertex. -/
def emptyMoves (s : Simulator) : Successors Error where
  next state := (s.edges state).map fun es =>
    (es.filter (·.weight == epsilon)).map (·.destination)
  sources := s.graph.vertices
  eq_nil_of_not_mem := by
    intro state ts hs h
    simp [edges_eq, Graph.edges?_eq_none_iff.2 hs, Except.map] at h

/-- All that empty moves lead to from `state`, itself included. -/
def epsilonClosure (s : Simulator) (state : String) : Except Error StateSet :=
  (s.emptyMoves.explore [state] ∅).map .ofTree

/-- All that empty moves lead to from the members of `states`, searched for one after the other. What
an earlier search has visited need not be visited again, as all that it leads to has been as well. -/
def close (s : Simulator) (states : StateSet) : Except Error StateSet :=
  let moves := s.emptyMoves
  (states.toList.foldlM (fun visited state => moves.explore [state] visited) ∅).map .ofTree

/-! ### Moves of the active set -/

/-- The active set before any input. -/
def start (s : Simulator) : Except Error StateSet :=
  match s.determinism with
  | .deterministic =>
    match s.initial with
    | [] => .error .noInitialState
    | first :: _ => do
      let _ ← s.edges first
      return .singleton first
  | .nonDeterministic => s.close (.ofList s.initial)

/-- The one state that the least active state leads to. -/
def advanceOne (s : Simulator) (active : StateSet) (symbol : String) : Except Error StateSet :=
  match active.first? with
  | none => .ok ∅
  | some state => do
    match ← s.step state symbol with
    | none => return ∅
    | some destination =>
      let _ ← s.edges destination
      return .singleton destination

/-- All states that the active states lead to, closed under empty moves. -/
def advanceAll (s : Simulator) (active : StateSet) (symbol : String) : Except Error StateSet := do
  let parts ← active.toList.mapM fun state => s.destinations state symbol
  let next := StateSet.ofList parts.flatten
  if next.isEmpty then return next else s.close next

/-- The active set after one more symbol. -/
def advance (s : Simulator) (active : StateSet) (symbol : String) : Except Error StateSet :=
  match s.determinism with
  | .deterministic => s.advanceOne active symbol
  | .nonDeterministic => s.advanceAll active symbol

end Simulator

end Automata
