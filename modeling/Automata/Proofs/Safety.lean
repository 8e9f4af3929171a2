import Automata.Dot
import Automata.Proofs.Runs

/-!
# Specified automata can be simulated

Whatever is asked about states of an automaton that was read from a specification has an answer, and
the answer mentions states only. So no run on any input ends in a failure.
-/

namespace Automata

variable {m : Automaton} {w : List String} {r : Run}

/-- Every query about members of `states` has an answer within `states`. -/
structure Simulator.StaysWithin (s : Simulator) (states : List String) : Prop where
  start : ∃ B, s.start = .ok B ∧ ∀ q ∈ B, q ∈ states
  step : ∀ p ∈ states, ∀ a, ∃ d, s.step p a = .ok d ∧ ∀ q ∈ d, q ∈ states
  nextStates : ∀ p ∈ states, ∀ a, ∃ B, s.nextStates p a = .ok B ∧ ∀ q ∈ B, q ∈ states
  epsilonClosure : ∀ p ∈ states, ∃ B, s.epsilonClosure p = .ok B ∧ ∀ q ∈ B, q ∈ states
  close : ∀ A : StateSet, (∀ p ∈ A, p ∈ states) → ∃ B, s.close A = .ok B ∧ ∀ q ∈ B, q ∈ states
  advance : ∀ A : StateSet, (∀ p ∈ A, p ∈ states) →
    ∀ a, ∃ B, s.advance A a = .ok B ∧ ∀ q ∈ B, q ∈ states

lemma Automaton.close_stays (hm : m.Sound) (A : StateSet) (hA : ∀ p ∈ A, p ∈ m.states) :
    ∃ B, m.simulator.close A = .ok B ∧ ∀ q ∈ B, q ∈ m.states := by
  obtain ⟨B, hB, hmem⟩ := close_simulator hm hA
  refine ⟨B, hB, ?_⟩
  intro q hq
  obtain ⟨p, hp, hpq⟩ := (hmem q).1 hq
  exact hpq.mem_states hm (hA p hp)

lemma Automaton.advance_stays (hm : m.Sound) (A : StateSet) (hA : ∀ p ∈ A, p ∈ m.states)
    (a : String) : ∃ B, m.simulator.advance A a = .ok B ∧ ∀ q ∈ B, q ∈ m.states := by
  rw [Simulator.advance]
  rw [determinism_simulator]
  cases m.classify with
  | deterministic =>
    obtain ⟨B, hB, hback, -⟩ := advanceOne_simulator hm hA a
    refine ⟨B, hB, ?_⟩
    intro q hq
    obtain ⟨p, -, hpq⟩ := hback q hq
    exact hpq.mem_states hm
  | nonDeterministic =>
    obtain ⟨B, hB, hmem⟩ := advanceAll_simulator hm hA a
    refine ⟨B, hB, ?_⟩
    intro r hr
    obtain ⟨p, hp, q, hpq, hqr⟩ := (hmem r).1 hr
    exact ((Moves.single hpq).trans hqr).mem_states hm (hA p hp)

theorem Automaton.staysWithin_states (hm : m.WellFormed) :
    m.simulator.StaysWithin m.states where
  start := by
    obtain ⟨A, hA, hmem⟩ := start_attains hm
    exact ⟨A, hA, fun q hq => ((hmem q).1 hq).mem_states hm.toSound⟩
  step p hp a := by
    exact ⟨_, step_simulator (.inl hp) a,
      fun q hq => (hasEdge_of_follow? hq).mem_states hm.toSound⟩
  nextStates p hp a := by
    obtain ⟨ts, hts, hmem⟩ := destinations_simulator (.inl hp) a
    refine ⟨.ofList ts, by rw [Simulator.nextStates, hts]; rfl, ?_⟩
    intro q hq
    have hpq := (hmem q).1 (StateSet.mem_ofList.1 hq)
    exact (Moves.single hpq).mem_states hm.toSound hp
  epsilonClosure p hp := by
    rw [Simulator.epsilonClosure_eq_close]
    exact close_stays hm.toSound _ fun q hq => by rwa [StateSet.mem_singleton.1 hq]
  close := close_stays hm.toSound
  advance := advance_stays hm.toSound

lemma Verdict.Decides.ne_failure {P : Prop} {v : Verdict} (h : v.Decides P) (e : Error) :
    v ≠ .failure e := by
  rintro rfl
  exact h

lemma Run.Settles.not_failure (hm : m.WellFormed) (h : r.Settles m w) (e : Error) :
    r.verdict ≠ some (.failure e) ∧ r.step.verdict? ≠ some (.failure e) ∧
      r.finish.1 ≠ .failure e :=
  ⟨fun hv => (h.decides hv).ne_failure e rfl,
    fun hv => (h.decides_step hm hv).ne_failure e rfl,
    (h.decides_finish hm).ne_failure e⟩

lemma Automaton.exists_accepts (hm : m.WellFormed) (w : List String) :
    ∃ b, m.simulator.accepts w = .ok b := by
  by_cases h : m.Accepts w
  · exact ⟨true, (accepts_simulator hm w).1.2 h⟩
  · exact ⟨false, (accepts_simulator hm w).2.2 h⟩

/-- A specified automaton can be simulated and drawn, its simulator answers every query about its
states with states, and no input and no sequence of steps makes a run fail. -/
theorem Automaton.simulation_never_fails {text : String}
    (h : Specification.parse text = .ok m) :
    ∃ s, Simulator.ofAutomaton m = .ok s ∧ (∃ drawing, m.toDot = .ok drawing) ∧
      s.StaysWithin m.states ∧
      (∀ w, ∃ b, s.accepts w = .ok b) ∧
      (∀ t, ∃ b, s.acceptsText t = .ok b ∧ m.acceptsText t = .ok b) ∧
      ∀ w r, (Run.start s w).LeadsTo r → ∀ e,
        r.verdict ≠ some (.failure e) ∧ r.step.verdict? ≠ some (.failure e) ∧
          r.finish.1 ≠ .failure e := by
  have hm := Specification.wellFormed_of_parse h
  have hs := Simulator.ofAutomaton_eq_ok hm.initial_ne_nil
  refine ⟨m.simulator, hs, ?_, staysWithin_states hm, exists_accepts hm, fun t => ?_,
    fun w r hr => (hr.settles hm).not_failure hm⟩
  · rw [toDot, hs]
    exact ⟨_, rfl⟩
  · obtain ⟨b, hb⟩ := exists_accepts hm (symbolsOf t)
    refine ⟨b, hb, ?_⟩
    rw [acceptsText, hs]
    exact hb

/-- The automaton of one empty move and one `a` answers about its states and about the unknown symbol
`z`. -/
theorem Automaton.simulation_never_fails_emptyThenA :
    ∃ s, Simulator.ofAutomaton emptyThenA = .ok s ∧ s.StaysWithin ["s0", "s1", "s2"] ∧
      (∃ b, s.acceptsText "za" = .ok b) ∧
      ∀ e, (Run.start s ["z", "a"]).step.verdict? ≠ some (.failure e) := by
  obtain ⟨s, hs, -, hstates, -, htext, hruns⟩ :=
    simulation_never_fails Specification.parse_emptyThenA
  obtain ⟨b, hb, -⟩ := htext "za"
  exact ⟨s, hs, hstates, ⟨b, hb⟩, fun e => (hruns _ _ .refl e).2.1⟩

end Automata
