import Automata.Automaton

/-!
# Deterministic or not

The class is read off the transitions alone. A pair without a transition is no sign of
non-determinism, and several targets count only for a symbol of the alphabet.
-/

namespace Automata

/-- Whether a transition on a symbol of the alphabet has more than one target. -/
def Automaton.hasBranching (m : Automaton) : Bool :=
  m.transitions.any fun t => m.alphabet.contains t.symbol && decide (1 < t.targets.length)

/-- The class of `m`: non-deterministic as soon as it branches or moves on no input. -/
def Automaton.classify (m : Automaton) : Determinism :=
  if m.hasBranching || m.hasEpsilon then .nonDeterministic else .deterministic

theorem Automaton.classify_eq_nonDeterministic_iff (m : Automaton) :
    m.classify = .nonDeterministic ↔ m.hasBranching = true ∨ m.hasEpsilon = true := by
  cases h : m.hasBranching <;> cases h' : m.hasEpsilon <;> simp [classify, h, h']

theorem Automaton.classify_eq_deterministic_iff (m : Automaton) :
    m.classify = .deterministic ↔ m.hasBranching = false ∧ m.hasEpsilon = false := by
  cases h : m.hasBranching <;> cases h' : m.hasEpsilon <;> simp [classify, h, h']

end Automata
