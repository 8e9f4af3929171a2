import Automata.Proofs.Runs

/-!
# The two strategies

A simulator of a deterministic automaton moves from one state to one state. Made to move from set to
set instead, it does the same, provided that the automaton has one initial state: the set it starts
with has one member, and so has every set that it advances to. Its runs are then the same runs.
-/

namespace Automata

variable {m : Automaton} {w : List String} {q : String} {A : StateSet} {r : Run}

/-- The simulator with another strategy, and all else as it is. -/
def Simulator.withStrategy (s : Simulator) (d : Determinism) : Simulator :=
  { s with determinism := d }

/-- The run with another strategy from here on. -/
def Run.withStrategy (r : Run) (d : Determinism) : Run :=
  { r with simulator := r.simulator.withStrategy d }

/-! ### Starting and advancing -/

/-- The closed set of all initial states is the set of the first one if they are all the same. -/
lemma Automaton.start_withStrategy (hm : m.WellFormed) (hi : ∀ p ∈ m.initial, p = q) :
    (m.simulator.withStrategy .nonDeterministic).start = m.simulator.start := by
  obtain ⟨A, hA, hmemA⟩ := start_attains hm
  obtain ⟨B, hB, hmemB⟩ := close_simulator hm.toSound (A := .ofList m.initial)
    fun p hp => hm.initial_subset (StateSet.mem_ofList.1 hp)
  have hclose : (m.simulator.withStrategy .nonDeterministic).start = .ok B := hB
  -- A deterministic automaton starts in the first initial state, which stands for all of them here.
  have hstarts : ∀ p, p ∈ m.initial ↔ p ∈ m.starts := by
    obtain ⟨p₀, hp₀⟩ := exists_mem_starts hm.toSound
    intro p
    refine ⟨fun hp => ?_, fun hp => m.starts_subset hp⟩
    rwa [hi p hp, ← hi p₀ (m.starts_subset hp₀)]
  rw [hclose, hA]
  congr 1
  apply StateSet.ext
  intro p
  simp only [hmemA, hmemB, StateSet.mem_ofList, hstarts, Attains]

/-- From a set of attained states both strategies advance to the same set. -/
lemma Automaton.advance_withStrategy (hm : m.WellFormed) (hA : ∀ q, q ∈ A ↔ m.Attains w q)
    (a : String) :
    (m.simulator.withStrategy .nonDeterministic).advance A a = m.simulator.advance A a := by
  obtain ⟨B, hB, hmemB⟩ := advance_attains hm hA a
  obtain ⟨C, hC, hmemC⟩ := advanceAll_attains hm hA a
  have hall : (m.simulator.withStrategy .nonDeterministic).advance A a = .ok C := hC
  rw [hall, hB]
  congr 1
  apply StateSet.ext
  intro p
  rw [hmemB, hmemC]

/-! ### Steps -/

/-- A step makes the same move with another strategy that advances to the same set. -/
lemma Run.StepsTo.withStrategy {d : Determinism} {verdict? : Option Verdict} {r' : Run}
    (h : r.StepsTo verdict? r')
    (hadvance : r.verdict = none →
      ∀ a, (r.simulator.withStrategy d).advance r.active a = r.simulator.advance r.active a) :
    (r.withStrategy d).StepsTo verdict? (r'.withStrategy d) := by
  cases h with
  | halted h => exact .halted h
  | finished h hp => exact .finished h hp
  | failed h hp ha => exact .failed h hp ((hadvance h _).trans ha)
  | stuck h hp ha hnext => exact .stuck h hp ((hadvance h _).trans ha) hnext
  | consumed h hp ha hnext => exact .consumed h hp ((hadvance h _).trans ha) hnext

/-- A run that tracks its input, or has a verdict, makes the same step from set to set. -/
lemma Run.Settles.step_withStrategy (hm : m.WellFormed) (h : r.Settles m w) :
    (r.withStrategy .nonDeterministic).step.verdict? = r.step.verdict? ∧
      (r.withStrategy .nonDeterministic).step.next =
        r.step.next.withStrategy .nonDeterministic := by
  -- After a verdict nothing is advanced, and before it the active set is the attained one.
  refine (r.stepsTo_step.withStrategy ?_).eq_step
  intro hv a
  rcases h with h | ⟨v, hv', -⟩
  · rw [h.simulator]
    exact Automaton.advance_withStrategy hm h.mem_active a
  · simp [hv] at hv'

/-! ### Runs -/

lemma Run.Settles.after_withStrategy (hm : m.WellFormed) (h : r.Settles m w) (k : Nat) :
    (r.withStrategy .nonDeterministic).after k =
      (r.after k).withStrategy .nonDeterministic := by
  induction k with
  | zero => rfl
  | succ k ih =>
    rw [Run.after, ih]
    exact ((h.after hm k).step_withStrategy hm).2

/-- A finish comes to the same verdict. -/
theorem Run.Settles.finish_withStrategy (hm : m.WellFormed) {r : Run} (h : r.Settles m w) :
    (r.withStrategy .nonDeterministic).finish.1 = r.finish.1 := by
  obtain ⟨hverdict, hnext⟩ := h.step_withStrategy hm
  cases hv : r.step.verdict? with
  | some v => rw [finish_of_verdict hv, finish_of_verdict (hverdict.trans hv)]
  | none =>
    rw [finish_of_none hv, finish_of_none (hverdict.trans hv), hnext]
    have := remaining_next_lt hv
    exact finish_withStrategy hm (h.step hm)
termination_by r.remaining

lemma Run.start_withStrategy (hm : m.WellFormed) (hi : ∀ p ∈ m.initial, p = q) (w : List String) :
    start (m.simulator.withStrategy .nonDeterministic) w =
      (start m.simulator w).withStrategy .nonDeterministic := by
  rw [start, start, Automaton.start_withStrategy hm hi]
  cases m.simulator.start <;> rfl

/-- Where a deterministic automaton has one initial state, a run from set to set is at every step at
the same position as the run from state to state, in the same states and with the same verdict. -/
theorem Automaton.strategies_agree {text : String} (h : Specification.parse text = .ok m)
    (hd : m.classify = .deterministic) (hi : ∀ p ∈ m.initial, p = q) (w : List String) :
    ∃ s, Simulator.ofAutomaton m = .ok s ∧ s.determinism = .deterministic ∧ ∀ k,
      let r := (Run.start s w).after k
      let r' := (Run.start (s.withStrategy .nonDeterministic) w).after k
      r'.active = r.active ∧ r'.position = r.position ∧ r'.verdict = r.verdict ∧
        r'.finish.1 = r.finish.1 := by
  have hm := Specification.wellFormed_of_parse h
  refine ⟨m.simulator, Simulator.ofAutomaton_eq_ok hm.initial_ne_nil, hd, ?_⟩
  intro k r r'
  have hstart : (Run.start m.simulator w).Settles m w := .inl (Run.tracks_start hm w)
  have hr' : r' = r.withStrategy .nonDeterministic := by
    rw [← hstart.after_withStrategy hm k, ← Run.start_withStrategy hm hi w]
  rw [hr']
  exact ⟨rfl, rfl, rfl, (hstart.after hm k).finish_withStrategy hm⟩

/-- Even and odd numbers of `a`. -/
def Automaton.oddA : Automaton :=
  ⟨["even", "odd"], ["even"], ["odd"], ["a"], [⟨"even", "a", ["odd"]⟩, ⟨"odd", "a", ["even"]⟩]⟩

/-- From set to set the words with an odd number of `a` are accepted as well. -/
theorem Automaton.strategies_agree_oddA :
    ∃ s, Simulator.ofAutomaton oddA = .ok s ∧ s.determinism = .deterministic ∧ ∀ w,
      (s.withStrategy .nonDeterministic).accepts w = s.accepts w := by
  have h : Specification.parse ("#states\neven\nodd\n#initial\neven\n#accepting\nodd\n" ++
      "#alphabet\na\n#transitions\neven:a>odd\nodd:a>even") = .ok oddA := by
    cbv
  obtain ⟨s, hs, hd, -⟩ := strategies_agree (q := "even") h (by decide) (by decide) []
  refine ⟨s, hs, hd, ?_⟩
  intro w
  obtain ⟨s', hs', -, hagree⟩ := strategies_agree (q := "even") h (by decide) (by decide) w
  obtain rfl := Except.ok.inj (hs.symm.trans hs')
  have hfinish : (Run.start (s.withStrategy .nonDeterministic) w).finish.1 =
      (Run.start s w).finish.1 := (hagree 0).2.2.2
  rw [Simulator.accepts, Simulator.accepts, hfinish]

end Automata
