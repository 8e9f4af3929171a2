import Automata.Automaton
import Automata.Reachability
import Automata.StateSet
import Automata.Text.Quoted

/-!
# Sound automata

An automaton is sound when it breaks none of eight rules. The rules are checked in a fixed order, and
the first one that is broken is reported with all its offenders. Unreachable states are no defect.
-/

namespace Automata

/-! ### Defects -/

/-- A broken rule, with the labels or transitions that break it. -/
inductive Defect where
  | noStates
  | duplicateStates (labels : List String)
  | noInitialState
  | undeclaredInitial (labels : List String)
  | undeclaredAccepting (labels : List String)
  | undeclaredInTransitions (uses : List String)
  | foreignSymbols (transitions : List String)
  | missingTargets (transitions : List String)
  | repeatedTargets (transitions : List String)
  deriving DecidableEq

def Defect.message : Defect → String
  | .noStates => "No states defined"
  | .duplicateStates labels => "Duplicate states: " ++ Text.quotedList labels
  | .noInitialState => "No initial state defined"
  | .undeclaredInitial labels => "Initial states are not declared: " ++ Text.quotedList labels
  | .undeclaredAccepting labels => "Accepting states are not declared: " ++ Text.quotedList labels
  | .undeclaredInTransitions uses =>
    "Transitions reference undeclared states: " ++ Text.quotedList uses
  | .foreignSymbols transitions =>
    "Transitions use symbols outside the alphabet: " ++ Text.quotedList transitions
  | .missingTargets transitions =>
    "Transitions without destinations: " ++ Text.quotedList transitions
  | .repeatedTargets transitions =>
    "Transitions with repeated destinations: " ++ Text.quotedList transitions

/-! ### Offenders -/

/-- The entries that occur earlier in the list as well. -/
def repetitions : (seen : List String) → List String → List String
  | _, [] => []
  | seen, x :: l =>
    if seen.contains x then x :: repetitions seen l else repetitions (x :: seen) l

/-- The entries of `labels` that are no states. -/
def Automaton.undeclared (m : Automaton) (labels : List String) : List String :=
  labels.filter fun s => !m.isState s

/-- What the transition `t` mentions without a declaration: its source, then its targets. -/
def Automaton.undeclaredUses (m : Automaton) (t : Transition) : List String :=
  (if m.isState t.source then [] else [t.key ++ " (source)"]) ++
    (m.undeclared t.targets).map fun s => t.key ++ ">" ++ s

/-- Whether the symbol of `t` is neither in the alphabet nor the empty-move marker. -/
def Automaton.isForeign (m : Automaton) (t : Transition) : Bool :=
  !t.isEpsilon && !m.alphabet.contains t.symbol

/-- Whether a target of `t` occurs twice. -/
def Transition.hasRepeatedTarget (t : Transition) : Bool :=
  !(repetitions [] t.targets).isEmpty

/-- The transitions with a property, each by its source and symbol. -/
def Automaton.keysWhere (m : Automaton) (p : Transition → Bool) : List String :=
  (m.transitions.filter p).map (·.key)

/-! ### Rules -/

/-- The defect that `wrap` makes of the offenders, if there are any. -/
def Defect.ofOffenders (wrap : List String → Defect) : List String → Option Defect
  | [] => none
  | offenders => some (wrap offenders)

/-- The rules in the order in which they are checked; each gives the defect it finds. -/
def Automaton.checks (m : Automaton) : List (Option Defect) :=
  [if m.states.isEmpty then some .noStates else none,
   Defect.ofOffenders .duplicateStates (StateSet.ofList (repetitions [] m.states)).toList,
   if m.initial.isEmpty then some .noInitialState else none,
   Defect.ofOffenders .undeclaredInitial (m.undeclared m.initial),
   Defect.ofOffenders .undeclaredAccepting (m.undeclared m.accepting),
   Defect.ofOffenders .undeclaredInTransitions (m.transitions.flatMap m.undeclaredUses),
   Defect.ofOffenders .foreignSymbols (m.keysWhere m.isForeign),
   Defect.ofOffenders .missingTargets (m.keysWhere (·.targets.isEmpty)),
   Defect.ofOffenders .repeatedTargets (m.keysWhere (·.hasRepeatedTarget))]

def Automaton.defect? (m : Automaton) : Option Defect :=
  m.checks.findSome? id

/-! ### Unreachable states -/

/-- The targets of all transitions from a state, whatever the symbol. -/
def Automaton.successorsOf (m : Automaton) (state : String) : List String :=
  (m.transitions.filter (·.source == state)).flatMap (·.targets)

/-- Transitions of any symbol as steps of a search; no label stops it. -/
def Automaton.successors (m : Automaton) : Successors Empty where
  next s := .ok (m.successorsOf s)
  sources := m.transitions.map (·.source)
  eq_nil_of_not_mem := by
    intro s ts hs h
    obtain rfl : m.successorsOf s = ts := by simpa using h
    have : m.transitions.filter (·.source == s) = [] :=
      List.filter_eq_nil_iff.2 fun t ht e =>
        hs (List.mem_map.2 ⟨t, ht, by simpa using e⟩)
    simp [successorsOf, this]

/-- The labels that transitions lead to from the initial states, these included. -/
def Automaton.reachable (m : Automaton) : Std.TreeSet String :=
  match m.successors.explore m.initial ∅ with
  | .ok visited => visited
  | .error e => nomatch e

/-- The declared states that no transitions lead to from the initial states. -/
def Automaton.unreachable (m : Automaton) : List String :=
  let visited := m.reachable
  m.states.filter (· ∉ visited)

end Automata
