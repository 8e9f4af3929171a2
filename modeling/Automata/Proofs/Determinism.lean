import Automata.Proofs.Moves

/-!
# What the class of an automaton means

The class is read off single transitions, the length of their targets and the symbols of the alphabet.
For an automaton that is read from a specification it is the class that the transition relation has: a
deterministic one leads from a state on a symbol to one state at most, and has no empty transition.
-/

namespace Automata

variable {m : Automaton}

/-- Two targets of one transition are two states that follow its source on its symbol. -/
lemma Automaton.exists_hasEdge_ne (hm : m.Sound) (hb : m.hasBranching = true) :
    ∃ p ∈ m.states, ∃ a ∈ m.alphabet, ∃ q ∈ m.states, ∃ q' ∈ m.states,
      q ≠ q' ∧ m.HasEdge p a q ∧ m.HasEdge p a q' := by
  obtain ⟨t, ht, ha, hlength⟩ := m.hasBranching_iff.1 hb
  have hnodup := hm.nodup_targets t ht
  match htargets : t.targets with
  | [] => simp [htargets] at hlength
  | [_] => simp [htargets] at hlength
  | q :: q' :: rest =>
    have hq : q ∈ t.targets := by simp [htargets]
    have hq' : q' ∈ t.targets := by simp [htargets]
    have hne : q ≠ q' := by
      rintro rfl
      rw [htargets] at hnodup
      simp at hnodup
    exact ⟨t.source, hm.source_mem t ht, t.symbol, ha, q, hm.targets_subset t ht hq, q',
      hm.targets_subset t ht hq', hne, ⟨t, ht, rfl, rfl, hq⟩, ⟨t, ht, rfl, rfl, hq'⟩⟩

/-- Where every transition leads somewhere, an empty one is enough to move on no input. -/
lemma Automaton.hasEpsilon_iff_of_sound (hm : m.Sound) :
    m.hasEpsilon = true ↔ ∃ t ∈ m.transitions, t.symbol = epsilon := by
  rw [hasEpsilon_iff]
  constructor
  · rintro ⟨t, ht, hx, -⟩
    exact ⟨t, ht, hx⟩
  · rintro ⟨t, ht, hx⟩
    exact ⟨t, ht, hx, hm.targets_ne_nil t ht⟩

/-- A specified automaton is classified as deterministic if and only if at most one state follows a
state on a symbol and no transition is empty. It makes no difference whether this is asked of the
declared states and symbols or of all labels. -/
theorem Automaton.deterministic_iff_functional {text : String}
    (h : Specification.parse text = .ok m) :
    (m.classify = .deterministic ↔
      (∀ p ∈ m.states, ∀ a ∈ m.alphabet, {q ∈ m.states | m.HasEdge p a q}.Subsingleton) ∧
        ∀ t ∈ m.transitions, t.symbol ≠ epsilon) ∧
    (m.classify = .deterministic ↔
      (∀ p a, {q | m.HasEdge p a q}.Subsingleton) ∧ ∀ t ∈ m.transitions, t.symbol ≠ epsilon) := by
  have hm := Specification.wellFormed_of_parse h
  have sound : m.classify = .deterministic →
      (∀ p a, {q | m.HasEdge p a q}.Subsingleton) ∧ ∀ t ∈ m.transitions, t.symbol ≠ epsilon := by
    intro hd
    refine ⟨fun p a q hq q' hq' => hq.unique hm hd hq', fun t ht hx => ?_⟩
    have hepsilon := (m.classify_eq_deterministic_iff.1 hd).2
    rw [(hasEpsilon_iff_of_sound hm.toSound).2 ⟨t, ht, hx⟩] at hepsilon
    nomatch hepsilon
  have complete : (∀ p ∈ m.states, ∀ a ∈ m.alphabet, {q ∈ m.states | m.HasEdge p a q}.Subsingleton) ∧
      (∀ t ∈ m.transitions, t.symbol ≠ epsilon) → m.classify = .deterministic := by
    rintro ⟨hone, hnone⟩
    rw [classify_eq_deterministic_iff, Bool.eq_false_iff, Bool.eq_false_iff]
    constructor
    · intro hb
      obtain ⟨p, hp, a, ha, q, hq, q', hq', hne, hpq, hpq'⟩ := exists_hasEdge_ne hm.toSound hb
      exact hne (hone p hp a ha ⟨hq, hpq⟩ ⟨hq', hpq'⟩)
    · intro he
      obtain ⟨t, ht, hx⟩ := (hasEpsilon_iff_of_sound hm.toSound).1 he
      exact hnone t ht hx
  have restrict : (∀ p a, {q | m.HasEdge p a q}.Subsingleton) →
      ∀ p ∈ m.states, ∀ a ∈ m.alphabet, {q ∈ m.states | m.HasEdge p a q}.Subsingleton :=
    fun hone p _ a _ q hq q' hq' => hone p a hq.2 hq'.2
  exact ⟨⟨fun hd => (sound hd).imp_left restrict, complete⟩,
    ⟨sound, fun hone => complete (hone.imp_left restrict)⟩⟩

/-- From `s` the symbol `a` leads to `targets`. -/
def Automaton.fanOut (targets : List String) : Automaton :=
  ⟨["s", "t"], ["s"], [], ["a"], [⟨"s", "a", targets⟩]⟩

/-- With two targets some symbol leads to several states, and with one every symbol leads to one. -/
theorem Automaton.deterministic_iff_functional_fanOut :
    (¬ ∀ p ∈ ["s", "t"], ∀ a ∈ ["a"],
      {q ∈ ["s", "t"] | (fanOut ["s", "t"]).HasEdge p a q}.Subsingleton) ∧
      ∀ p a, {q | (fanOut ["t"]).HasEdge p a q}.Subsingleton := by
  have htwo : Specification.parse
      "#states\ns\nt\n#initial\ns\n#accepting\n#alphabet\na\n#transitions\ns:a>s,t" =
        .ok (fanOut ["s", "t"]) := by
    cbv
  have hone : Specification.parse
      "#states\ns\nt\n#initial\ns\n#accepting\n#alphabet\na\n#transitions\ns:a>t" =
        .ok (fanOut ["t"]) := by
    cbv
  constructor
  · intro hfew
    have hd := (deterministic_iff_functional htwo).1.2 ⟨hfew, by decide⟩
    exact absurd hd (by decide)
  · exact ((deterministic_iff_functional hone).2.1 (by decide)).1

end Automata
