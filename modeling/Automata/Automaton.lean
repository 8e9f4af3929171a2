/-!
# Finite automata as declared

An automaton is a plain value: five lists, each in declaration order. Nothing is assumed of them here;
`Automata.Validation` says which automata are sound.
-/

namespace Automata

/-- The marker of a transition that consumes no input. -/
def epsilon : String := "$"

/-- One line of the transition relation: from `source`, on `symbol`, to every one of `targets`. -/
structure Transition where
  source : String
  symbol : String
  targets : List String
  deriving DecidableEq

/-- A finite automaton, label by label. -/
structure Automaton where
  states : List String
  initial : List String
  accepting : List String
  alphabet : List String
  transitions : List Transition
  deriving DecidableEq

/-- The structural class of an automaton. -/
inductive Determinism where
  | deterministic
  | nonDeterministic
  deriving DecidableEq

/-! ### Queries on a transition -/

/-- A transition is empty when its symbol is the empty-move marker. -/
def Transition.isEpsilon (t : Transition) : Bool :=
  t.symbol == epsilon

/-- The pair `source:symbol` that a transition is known by. -/
def Transition.key (t : Transition) : String :=
  t.source ++ ":" ++ t.symbol

/-! ### Queries on an automaton -/

def Automaton.empty : Automaton :=
  ⟨[], [], [], [], []⟩

/-- The targets of the first transition for `state` and `symbol`. -/
def Automaton.targets? (m : Automaton) (state symbol : String) : Option (List String) :=
  (m.transitions.find? fun t => t.source == state && t.symbol == symbol).map (·.targets)

def Automaton.isState (m : Automaton) (state : String) : Bool :=
  m.states.contains state

def Automaton.isAccepting (m : Automaton) (state : String) : Bool :=
  m.accepting.contains state

/-- Whether some empty transition leads anywhere. -/
def Automaton.hasEpsilon (m : Automaton) : Bool :=
  m.transitions.any fun t => t.isEpsilon && !t.targets.isEmpty

/-- The number of `(source, symbol, target)` triples, repetitions included. -/
def Automaton.transitionCount (m : Automaton) : Nat :=
  (m.transitions.flatMap (·.targets)).length

/-! ### Names of the two classes -/

def Determinism.abbreviation : Determinism → String
  | .deterministic => "DFA"
  | .nonDeterministic => "NFA"

def Determinism.name : Determinism → String
  | .deterministic => "Deterministic"
  | .nonDeterministic => "NonDeterministic"

def Determinism.description : Determinism → String
  | .deterministic => "Deterministic Finite Automaton (DFA)"
  | .nonDeterministic => "Non-Deterministic Finite Automaton (NFA)"

end Automata
