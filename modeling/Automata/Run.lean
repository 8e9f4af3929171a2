import Automata.Simulator

/-!
# Runs

A run feeds an input to a simulator symbol by symbol. It halts when the input is used up, when no
state is left, or when a move fails; once it has halted it keeps its verdict.
-/

namespace Automata

/-- How a run ends. -/
inductive Verdict where
  | accept
  | reject
  | failure (cause : Error)

/-- An input, how much of it has been consumed, and the states that are active then. -/
structure Run where
  simulator : Simulator
  input : Array String
  position : Nat
  active : StateSet
  verdict : Option Verdict

/-- The number of symbols that are still to come. -/
def Run.remaining (r : Run) : Nat :=
  r.input.size - r.position

/-- What one step of the run `r` comes to, with the run after it. -/
inductive Step (r : Run) where
  | halted (verdict : Verdict) (next : Run)
  /-- One symbol was consumed, and some state is active. -/
  | consumed (next : Run) (remaining_lt : next.remaining < r.remaining)

def Step.next {r : Run} : Step r → Run
  | halted _ next => next
  | consumed next _ => next

/-- The verdict that a step comes to, if it does. -/
def Step.verdict? {r : Run} : Step r → Option Verdict
  | halted verdict _ => some verdict
  | consumed _ _ => none

/-- The symbols of a text: its characters. -/
def symbolsOf (text : String) : List String :=
  text.toList.map String.singleton

namespace Run

/-- The run on `input` before the first step. -/
def start (s : Simulator) (input : List String) : Run :=
  match s.start with
  | .ok active => ⟨s, input.toArray, 0, active, none⟩
  | .error e => ⟨s, input.toArray, 0, ∅, some (.failure e)⟩

def isHalted (r : Run) : Bool :=
  r.verdict.isSome

/-- The run with a verdict. -/
def halt (r : Run) (v : Verdict) : Run :=
  { r with verdict := some v }

/-- The verdict when the input is used up. -/
def finalVerdict (r : Run) : Verdict :=
  if r.simulator.anyAccepting r.active then .accept else .reject

/-- Consumes one symbol, or halts. -/
def step (r : Run) : Step r :=
  match r.verdict with
  | some v => .halted v r
  | none =>
    if h : r.position < r.input.size then
      match r.simulator.advance r.active r.input[r.position] with
      | .error e => .halted (.failure e) (r.halt (.failure e))
      | .ok next =>
        if next.isEmpty then .halted .reject ({ r with active := next }.halt .reject)
        else .consumed { r with active := next, position := r.position + 1 }
          (Nat.sub_lt_sub_left h (Nat.lt_succ_self _))
    else .halted r.finalVerdict (r.halt r.finalVerdict)

/-- Steps until there is a verdict. -/
def finish (r : Run) : Verdict × Run :=
  match r.step with
  | .halted v r' => (v, r')
  | .consumed r' _ => r'.finish
termination_by r.remaining

end Run

/-- Whether the input is accepted. -/
def Simulator.accepts (s : Simulator) (input : List String) : Except Error Bool :=
  match (Run.start s input).finish.1 with
  | .accept => .ok true
  | .reject => .ok false
  | .failure e => .error e

/-- Whether the text is accepted, one symbol to a character. -/
def Simulator.acceptsText (s : Simulator) (text : String) : Except Error Bool :=
  s.accepts (symbolsOf text)

/-- Whether `m` accepts the text. -/
def Automaton.acceptsText (m : Automaton) (text : String) : Except Error Bool := do
  (← Simulator.ofAutomaton m).acceptsText text

end Automata
