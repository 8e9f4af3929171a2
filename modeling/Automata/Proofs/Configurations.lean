import Automata.Proofs.Runs

/-!
# Configurations

What the active set of a run is like when nothing is known of the automaton: transitions may be
repeated, lead to labels that are no states, and close on themselves. As long as the run has no
verdict its active set is a `Simulator.Configuration`. Starting makes one, and so does every advance
that leaves a state.
-/

namespace Automata

variable {s : Simulator} {A B : StateSet} {p q a : String} {es : List Edge}

/-! ### The invariant -/

/-- Some states are active, all of them vertices: just one if the simulator moves from state to state,
and else all that empty edges lead to. -/
structure Simulator.Configuration (s : Simulator) (A : StateSet) : Prop where
  exists_mem : ∃ q, q ∈ A
  mem_vertices : ∀ q ∈ A, q ∈ s.graph.vertices
  eq_singleton : s.determinism = .deterministic → ∃ q, A = .singleton q
  close_eq : s.determinism = .nonDeterministic → s.close A = .ok A

lemma Simulator.mem_vertices_of_edges (h : s.edges p = .ok es) : p ∈ s.graph.vertices := by
  by_contra hp
  rw [edges_eq, Graph.edges?_eq_none_iff.2 hp] at h
  nomatch h

lemma Simulator.configuration_singleton (hd : s.determinism = .deterministic)
    (h : s.edges q = .ok es) : s.Configuration (.singleton q) where
  exists_mem := ⟨q, by simp⟩
  mem_vertices p hp := by
    rw [StateSet.mem_singleton.1 hp]
    exact mem_vertices_of_edges h
  eq_singleton _ := ⟨q, rfl⟩
  close_eq hn := by simp [hd] at hn

lemma Simulator.configuration_of_close (hd : s.determinism = .nonDeterministic)
    (h : s.close A = .ok B) (hA : p ∈ A) : s.Configuration B where
  exists_mem := ⟨p, subset_of_close h p hA⟩
  mem_vertices _ hq := mem_vertices_of_close h hq
  eq_singleton hn := by simp [hd] at hn
  close_eq _ := close_of_close h

/-- A run starts in a configuration. -/
lemma Simulator.configuration_of_start (hi : s.initial ≠ []) (h : s.start = .ok A) :
    s.Configuration A := by
  obtain ⟨p, l, hp⟩ := List.exists_cons_of_ne_nil hi
  rw [start] at h
  cases hd : s.determinism with
  | deterministic =>
    simp only [hd, hp] at h
    obtain ⟨es, he, h⟩ := exists_of_bind_eq_ok h
    obtain rfl : StateSet.singleton p = A := Except.ok.inj h
    exact configuration_singleton hd he
  | nonDeterministic =>
    simp only [hd] at h
    exact configuration_of_close hd h (p := p) (by simp [hp])

/-- Where one state leads is one state whose edges are known. -/
lemma Simulator.edges_of_advanceOne (h : s.advanceOne A a = .ok B) (hB : B.isEmpty = false) :
    ∃ q es, B = .singleton q ∧ s.edges q = .ok es := by
  have notEmpty : B ≠ ∅ := by
    rintro rfl
    nomatch hB
  rw [advanceOne] at h
  cases hfirst : A.first? with
  | none =>
    simp only [hfirst] at h
    exact absurd (Except.ok.inj h).symm notEmpty
  | some p =>
    simp only [hfirst] at h
    obtain ⟨d, -, h⟩ := exists_of_bind_eq_ok h
    cases d with
    | none => exact absurd (Except.ok.inj h).symm notEmpty
    | some q =>
      obtain ⟨es, he, h⟩ := exists_of_bind_eq_ok h
      exact ⟨q, es, (Except.ok.inj h).symm, he⟩

/-- Where a set leads is closed, whatever the set. -/
lemma Simulator.close_of_advanceAll (h : s.advanceAll A a = .ok B) (hB : B.isEmpty = false) :
    ∃ C p, p ∈ C ∧ s.close C = .ok B := by
  obtain ⟨parts, -, h⟩ := exists_of_bind_eq_ok h
  replace h : (if (StateSet.ofList parts.flatten).isEmpty = true then
    Except.ok (StateSet.ofList parts.flatten) else
    s.close (StateSet.ofList parts.flatten)) = Except.ok B := h
  split at h
  · next he =>
    obtain rfl := Except.ok.inj h
    simp [he] at hB
  · next he =>
    obtain ⟨p, hp⟩ := StateSet.exists_mem_iff.2 (Bool.eq_false_iff.2 he)
    exact ⟨_, p, hp, h⟩

/-- Every advance that leaves a state leads to a configuration. -/
lemma Simulator.configuration_of_advance (h : s.advance A a = .ok B) (hB : B.isEmpty = false) :
    s.Configuration B := by
  rw [advance] at h
  cases hd : s.determinism with
  | deterministic =>
    simp only [hd] at h
    obtain ⟨q, es, rfl, he⟩ := edges_of_advanceOne h hB
    exact configuration_singleton hd he
  | nonDeterministic =>
    simp only [hd] at h
    obtain ⟨C, p, hp, hC⟩ := close_of_advanceAll h hB
    exact configuration_of_close hd hC hp

/-! ### Runs -/

/-- A run of `s` is in a configuration of `s` unless it has halted. -/
def Run.Configured (s : Simulator) (r : Run) : Prop :=
  r.simulator = s ∧ (r.verdict = none → s.Configuration r.active)

lemma Run.configured_start (hi : s.initial ≠ []) (w : List String) :
    (start s w).Configured s := by
  refine ⟨simulator_start s w, ?_⟩
  intro hv
  cases h : s.start with
  | error e => simp [start, h] at hv
  | ok A =>
    have hactive : (start s w).active = A := by rw [start, h]
    rw [hactive]
    exact Simulator.configuration_of_start hi h

lemma Run.Configured.step {r : Run} (h : r.Configured s) : r.step.next.Configured s := by
  obtain ⟨rfl, hactive⟩ := h
  have hs := r.stepsTo_step
  generalize r.step.verdict? = verdict?, r.step.next = r' at hs ⊢
  cases hs with
  | halted h => exact ⟨rfl, hactive⟩
  | finished h hp => exact ⟨rfl, (nomatch ·)⟩
  | failed h hp ha => exact ⟨rfl, (nomatch ·)⟩
  | stuck h hp ha hnext => exact ⟨rfl, (nomatch ·)⟩
  | consumed h hp ha hnext => exact ⟨rfl, fun _ => Simulator.configuration_of_advance ha hnext⟩

/-- Whatever automaton with an initial state is simulated, sound or not, on whatever input: as long as
a run has not halted its active set is a configuration. -/
theorem Automaton.active_configuration {m : Automaton} (hi : m.initial ≠ []) (w : List String) :
    ∃ s, Simulator.ofAutomaton m = .ok s ∧
      ∀ r, (Run.start s w).LeadsTo r → r.isHalted = false → s.Configuration r.active := by
  refine ⟨m.simulator, Simulator.ofAutomaton_eq_ok hi, ?_⟩
  intro r hr hhalted
  obtain ⟨-, hactive⟩ :=
    hr.induction (fun _ => Run.Configured.step) (Run.configured_start (s := m.simulator) hi w)
  exact hactive (Run.isHalted_eq_false_iff.1 hhalted)

/-- Two lines for one source and symbol, an empty move back to the source, an initial state that is
not declared but has edges, and a move to a label that is no vertex. -/
def Automaton.unsound : Automaton :=
  ⟨["s0"], ["s1", "s0"], ["s1"], [],
    [⟨"s0", "a", ["s1"]⟩, ⟨"s1", "$", ["s0"]⟩, ⟨"s0", "a", ["s0"]⟩, ⟨"s0", "b", ["s9"]⟩]⟩

/-- It is simulated all the same, and after one `a` its run is in a configuration. -/
theorem Automaton.active_configuration_unsound :
    ∃ s, Simulator.ofAutomaton unsound = .ok s ∧ unsound.validate ≠ .ok () ∧
      ((Run.start s ["a", "b"]).after 1).isHalted = false ∧
      s.Configuration ((Run.start s ["a", "b"]).after 1).active := by
  obtain ⟨s, hs, hconf⟩ := active_configuration (m := unsound) (by decide) ["a", "b"]
  have hhalted : ((Run.start s ["a", "b"]).after 1).isHalted = false := by
    obtain rfl := Except.ok.inj (hs.symm.trans (Simulator.ofAutomaton_eq_ok (by decide)))
    cbv
  refine ⟨s, hs, ?_, hhalted, hconf _ (.step .refl) hhalted⟩
  rw [Ne, validate_eq_ok_iff]
  intro h
  exact absurd (h.initial_subset (List.mem_cons_self (a := "s1"))) (by decide)

end Automata
