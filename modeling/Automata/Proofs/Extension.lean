import Automata.Proofs.Morphisms

/-!
# More transitions

An automaton is extended by targets in transitions that it has and by transitions for sources and
symbols that it has none for. It goes on accepting what it accepted, and the states that were active
are active still, also when it was deterministic before and is not any more.
-/

namespace Automata

variable {m m' : Automaton}

/-! ### Extensions -/

/-- `t'` is `t` with more targets, put in anywhere. -/
structure Transition.Widens (t t' : Transition) : Prop where
  source_eq : t'.source = t.source
  symbol_eq : t'.symbol = t.symbol
  targets : t.targets.Sublist t'.targets

/-- `m'` is `m` with more targets in its transitions and with more transitions between them. -/
structure Automaton.Extends (m m' : Automaton) : Prop where
  states_eq : m'.states = m.states
  initial_eq : m'.initial = m.initial
  accepting_eq : m'.accepting = m.accepting
  alphabet_eq : m'.alphabet = m.alphabet
  transitions : List.SublistForall₂ Transition.Widens m.transitions m'.transitions

lemma Transition.Widens.within {t t' : Transition} (h : t.Widens t') : t.Within t' where
  source_eq := h.source_eq
  symbol_eq := h.symbol_eq
  subset := h.targets.subset
  length_le := h.targets.length_le

lemma Automaton.Extends.within (h : m.Extends m') : m.Within m' where
  alphabet := h.alphabet_eq ▸ List.Subset.refl _
  transitions t ht := by
    obtain ⟨t', ht', hwidens⟩ := exists_of_sublistForall₂ h.transitions t ht
    exact ⟨t', ht', hwidens.within⟩

lemma Automaton.Extends.morphism (h : m.Extends m') : Morphism id m m' := by
  apply h.within.morphism
  · rw [h.initial_eq]
    exact List.Subset.refl _
  · intro _
    rw [h.initial_eq]
  · rw [h.accepting_eq]
    exact List.Subset.refl _

/-! ### Acceptance -/

/-- The checks together with different sources and symbols make an automaton well formed. -/
lemma Automaton.wellFormed_of_validate (hm : m.validate = .ok ())
    (hkeys : (m.transitions.map fun t => (t.source, t.symbol)).Nodup) : m.WellFormed :=
  { m.validate_eq_ok_iff.1 hm with nodup_keys := hkeys }

/-- A sound automaton that is extended to a sound one has no state less in any active set, and accepts
no input less. In both a source and symbol have one transition, so that what is put in between the
transitions is for sources and symbols that had none. -/
theorem Automaton.accepts_of_extends
    (hm : m.validate = .ok ())
    (hkeys : (m.transitions.map fun t => (t.source, t.symbol)).Nodup)
    (hm' : m'.validate = .ok ())
    (hkeys' : (m'.transitions.map fun t => (t.source, t.symbol)).Nodup)
    (h : m.Extends m') :
    ∃ s s', Simulator.ofAutomaton m = .ok s ∧ Simulator.ofAutomaton m' = .ok s' ∧
      ∀ w, (s.accepts w = .ok true → s'.accepts w = .ok true) ∧
        ∀ k, ∀ q ∈ ((Run.start s w).after k).active, q ∈ ((Run.start s' w).after k).active := by
  have hm := wellFormed_of_validate hm hkeys
  have hm' := wellFormed_of_validate hm' hkeys'
  refine ⟨m.simulator, m'.simulator, Simulator.ofAutomaton_eq_ok hm.initial_ne_nil,
    Simulator.ofAutomaton_eq_ok hm'.initial_ne_nil, ?_⟩
  intro w
  constructor
  · intro hw
    rw [(accepts_simulator hm w).1] at hw
    rw [(accepts_simulator hm' w).1]
    exact h.morphism.accepts hw
  · intro k q hq
    rw [Run.mem_active_after hm] at hq
    rw [Run.mem_active_after hm']
    exact h.morphism.attains hq

/-- One move on `a` from the first of two initial states. -/
def Automaton.oneMove : Automaton :=
  ⟨["p", "q"], ["p", "q"], ["q"], ["a"], [⟨"p", "a", ["q"]⟩]⟩

/-- A target before the one that was there, and an empty move before the transition. -/
def Automaton.moreMoves : Automaton :=
  ⟨["p", "q"], ["p", "q"], ["q"], ["a"], [⟨"q", "$", ["p"]⟩, ⟨"p", "a", ["p", "q"]⟩]⟩

/-- The deterministic automaton of one move still accepts `a` when it has become non-deterministic. -/
theorem Automaton.accepts_of_extends_moreMoves :
    oneMove.classify = .deterministic ∧ moreMoves.classify = .nonDeterministic ∧
      oneMove.accepts ["a"] = .ok true ∧ moreMoves.accepts ["a"] = .ok true := by
  have hextends : oneMove.Extends moreMoves := by
    refine ⟨rfl, rfl, rfl, rfl, .cons_right (.cons ⟨rfl, rfl, ?_⟩ .nil)⟩
    exact .cons _ (.refl _)
  obtain ⟨s, s', hs, hs', hmore⟩ :=
    accepts_of_extends (by cbv) (by decide) (by cbv) (by decide) hextends
  have hw : oneMove.accepts ["a"] = .ok true := by cbv
  refine ⟨by decide, by decide, hw, ?_⟩
  rw [accepts, hs] at hw
  rw [accepts, hs']
  exact (hmore ["a"]).1 hw

end Automata
