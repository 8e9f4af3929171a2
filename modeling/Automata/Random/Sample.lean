import Automata.Automaton
import Automata.Random.Draw

/-!
# Random automata and inputs

A random automaton has three to six states, one initial state, accepting states up to half of its
states, and for every state and every symbol one transition: to one state, or to up to three.
-/

namespace Automata.Random

/-- The symbols of random automata. -/
def sampleAlphabet : List String := ["a", "b", "c"]

/-- The least number of states of a random automaton. -/
def minStates : Nat := 3

/-- The largest number of states of a random automaton. -/
def maxStates : Nat := 6

/-- The largest number of targets of a random transition. -/
def maxTargets : Nat := 3

/-- The largest number of symbols of a random input. -/
def maxInputLength : Nat := 15

/-- The label of the state with that number. -/
def stateLabel (i : Nat) : String :=
  "s" ++ toString i

variable {σ : Type} [WordSource σ]

/-- Draws how many targets a transition has. -/
def targetCount : Determinism → Draw σ Nat
  | .deterministic => return 1
  | .nonDeterministic => between 1 maxTargets

/-- Draws the transition of a state on a symbol. -/
def randomTransition (kind : Determinism) (count : Nat) (source symbol : String) :
    Draw σ Transition := do
  let amount ← targetCount kind
  return ⟨source, symbol, (← distinct count amount).map stateLabel⟩

/-- Draws an automaton of a class. -/
def randomAutomaton (kind : Determinism) : Draw σ Automaton := do
  let count ← between minStates maxStates
  let states := (List.range count).map stateLabel
  let initial ← upTo64 (count - 1)
  let amount ← between 1 (count / 2)
  let accepting ← distinct count amount
  let pairs := states.flatMap fun s => sampleAlphabet.map fun a => (s, a)
  let transitions ← pairs.mapM fun (s, a) => randomTransition kind count s a
  return ⟨states, [stateLabel initial], accepting.map stateLabel, sampleAlphabet, transitions⟩

/-- Draws a text of one to fifteen symbols of `alphabet`; without symbols it is empty. -/
def randomInput : (alphabet : List String) → Draw σ String
  | [] => return ""
  | x :: l => do
    let length ← between 1 maxInputLength
    return String.join (← (List.range length).mapM fun _ => choose x l)

end Automata.Random
