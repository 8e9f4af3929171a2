import Automata.Proofs.Morphisms
import Automata.Proofs.Reachability

/-!
# Unreachable states and runs

Which states are unreachable is found by a search along transitions of any symbol, without a run. The
search is right about runs: a state that it reports is never active, whatever the input, and where
runs begin in all initial states, every other one is active after some word over the alphabet.
-/

namespace Automata

variable {m : Automaton} {p q : String} {u w : List String}

/-! ### Moves and the search -/

lemma Automaton.Move.exists_hasEdge (h : m.Move p u q) : ∃ x, m.HasEdge p x q := by
  cases h with
  | reading h => exact ⟨_, h⟩
  | silent h => exact ⟨_, h⟩
  | skipping a h => exact ⟨_, h⟩

/-- The search goes wherever moves lead to. -/
lemma Automaton.Moves.reaches (h : m.Moves p w q) : m.successors.Reaches p q := by
  induction h with
  | refl => exact .refl
  | tail _ hmove ih => exact .step ih rfl (mem_successorsOf.2 hmove.exists_hasEdge)

/-- Wherever the search goes, moves lead to with a word over the alphabet. -/
lemma Automaton.exists_moves_of_reaches (hm : m.Sound) (h : m.successors.Reaches p q) :
    ∃ w, w ⊆ m.alphabet ∧ m.Moves p w q := by
  induction h with
  | refl => exact ⟨[], List.nil_subset _, .refl⟩
  | @step q r us _ hus hr ih =>
    obtain ⟨w, hw, hmoves⟩ := ih
    obtain rfl : m.successorsOf q = us := Except.ok.inj hus
    obtain ⟨x, hedge⟩ := mem_successorsOf.1 hr
    obtain ⟨t, ht, -, rfl, -⟩ := id hedge
    rcases hm.symbol_mem t ht with hx | hx
    · rw [hx] at hedge
      exact ⟨w ++ [], by simpa using hw, hmoves.tail (.silent hedge)⟩
    · refine ⟨w ++ [t.symbol], ?_, hmoves.tail (.reading hedge)⟩
      exact List.append_subset.2 ⟨hw, by simpa using hx⟩

lemma Automaton.Attains.not_mem_unreachable (h : m.Attains w q) : q ∉ m.unreachable := by
  intro hq
  obtain ⟨p, hp, hmoves⟩ := h
  exact (mem_unreachable.1 hq).2 p (m.starts_subset hp) hmoves.reaches

/-- Runs begin in all initial states if the automaton is non-deterministic or has only one of them. -/
lemma Automaton.mem_starts (hm : m.Sound)
    (hd : m.classify = .nonDeterministic ∨ ∃ p₀, ∀ p ∈ m.initial, p = p₀) (hp : p ∈ m.initial) :
    p ∈ m.starts := by
  rcases hd with hd | ⟨p₀, hp₀⟩
  · rw [starts, hd]
    exact hp
  · obtain ⟨p', hp'⟩ := exists_mem_starts hm
    have heq : p' = p := (hp₀ p' (m.starts_subset hp')).trans (hp₀ p hp).symm
    rwa [← heq]

/-! ### Runs -/

/-- Steps and finishes lead where steps alone lead to. -/
lemma Run.LeadsTo.exists_eq_after {r r' : Run} (h : r.LeadsTo r') : ∃ k, r' = r.after k := by
  refine h.induction (P := fun r' => ∃ k, r' = r.after k) ?_ ⟨0, rfl⟩
  rintro _ ⟨k, rfl⟩
  exact ⟨k + 1, rfl⟩

/-- No run of a specified automaton is ever in a state that is reported as unreachable. If runs begin
in all initial states, every other state is active when some word over the alphabet has been consumed
in full, before the run halts. -/
theorem Automaton.unreachable_iff_never_active {text : String}
    (h : Specification.parse text = .ok m) :
    ∃ s, Simulator.ofAutomaton m = .ok s ∧
      (∀ q ∈ m.unreachable, ∀ w r, (Run.start s w).LeadsTo r → q ∉ r.active) ∧
      (m.classify = .nonDeterministic ∨ (∃ p₀, ∀ p ∈ m.initial, p = p₀) →
        ∀ q ∈ m.states, q ∉ m.unreachable → ∃ w, w ⊆ m.alphabet ∧
          let r := (Run.start s w).after w.length
          r.isHalted = false ∧ r.position = w.length ∧ q ∈ r.active) := by
  have hm := Specification.wellFormed_of_parse h
  refine ⟨m.simulator, Simulator.ofAutomaton_eq_ok hm.initial_ne_nil, ?_, ?_⟩
  · intro q hq w r hr hactive
    obtain ⟨k, rfl⟩ := hr.exists_eq_after
    exact ((Run.mem_active_after hm w k).1 hactive).not_mem_unreachable hq
  · intro hd q hq hreported
    have hreaches : ∃ p ∈ m.initial, m.successors.Reaches p q := by
      by_contra hnot
      push Not at hnot
      exact hreported (mem_unreachable.2 ⟨hq, hnot⟩)
    obtain ⟨p, hp, hreaches⟩ := hreaches
    obtain ⟨w, hw, hmoves⟩ := exists_moves_of_reaches hm.toSound hreaches
    have hattains : m.Attains (w.take w.length) q := by
      rw [List.take_length]
      exact ⟨p, mem_starts hm.toSound hd hp, hmoves⟩
    have hverdict : ((Run.start m.simulator w).after w.length).verdict = none :=
      (Run.verdict_after_eq_none_iff hm w.length).2 ⟨Nat.le_refl _, q, hattains⟩
    exact ⟨w, hw, Run.isHalted_eq_false_iff.2 hverdict, (Run.tracks_after hm hverdict).2,
      (Run.mem_active_after hm w w.length).2 hattains⟩

/-- A state `s2` with moves of its own to which no other state leads. -/
def Automaton.withIsland : Automaton :=
  ⟨["s0", "s1", "s2"], ["s0"], ["s1"], ["a"],
    [⟨"s0", "$", ["s1"]⟩, ⟨"s1", "a", ["s1"]⟩, ⟨"s2", "a", ["s2", "s1"]⟩]⟩

/-- Its `s2` is never active, and its `s1` is after some word. -/
theorem Automaton.unreachable_iff_never_active_withIsland :
    ∃ s, Simulator.ofAutomaton withIsland = .ok s ∧ withIsland.unreachable = ["s2"] ∧
      (∀ w r, (Run.start s w).LeadsTo r → "s2" ∉ r.active) ∧
      ∃ w, w ⊆ ["a"] ∧ "s1" ∈ ((Run.start s w).after w.length).active := by
  have hparse : Specification.parse ("#states\ns0\ns1\ns2\n#initial\ns0\n#accepting\ns1\n" ++
      "#alphabet\na\n#transitions\ns0:>s1\ns1:a>s1\ns2:a>s2,s1") = .ok withIsland := by
    cbv
  have hreported : withIsland.unreachable = ["s2"] := by cbv
  obtain ⟨s, hs, hnever, hsome⟩ := unreachable_iff_never_active hparse
  have hclass : withIsland.classify = .nonDeterministic := by decide
  obtain ⟨w, hw, -, -, hactive⟩ := hsome (.inl hclass) "s1" (by decide) (by rw [hreported]; decide)
  exact ⟨s, hs, hreported, hnever "s2" (by rw [hreported]; decide), w, hw, hactive⟩

end Automata
