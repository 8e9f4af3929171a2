import Automata.Automaton

/-!
# From automaton to text

An automaton is written line by line, without blank lines, spaces and a last line end.
-/

namespace Automata.Specification

/-- The line of a transition. -/
def transitionLine (t : Transition) : String :=
  t.key ++ ">" ++ ",".intercalate t.targets

/-- The lines of the specification of `m`. -/
def linesOf (m : Automaton) : List String :=
  "#states" :: m.states ++ "#initial" :: m.initial ++ "#accepting" :: m.accepting ++
    "#alphabet" :: m.alphabet ++ "#transitions" :: m.transitions.map transitionLine

/-- The specification of `m`. -/
def encode (m : Automaton) : String :=
  "\n".intercalate (linesOf m)

end Automata.Specification
