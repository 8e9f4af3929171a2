import Automata.Proofs.Runs

/-!
# Morphisms of automata

A map of labels is a morphism if it carries starts to starts, edges to edges and accepting states to
accepting states. What one automaton attains and accepts is then attained and accepted by the other.

The active set of a run is made of the attained states at every step, before and after it has halted
(`Run.mem_active_after`). So a morphism carries the active sets of one automaton into those of the
other, and with morphisms back and forth both have the same runs up to the labels of their states.
-/

namespace Automata

variable {m m' : Automaton} {f g : String → String} {p q x : String} {u w : List String}

/-! ### Active sets and verdicts at every step -/

/-- A step leads to the states that one symbol more leads to, also if it is the step that halts. -/
lemma Run.Tracks.mem_active_next_step (hm : m.WellFormed) {r : Run} (h : r.Tracks m w) :
    q ∈ r.step.next.active ↔ m.Attains (w.take (r.position + 1)) q := by
  have hs := r.stepsTo_step
  generalize r.step.verdict? = verdict?, r.step.next = r' at hs ⊢
  cases hs with
  | halted hv => simp [h.verdict] at hv
  | finished _ hp =>
    have hle : w.length ≤ r.position := by simpa [h.input] using hp
    show q ∈ r.active ↔ _
    rw [h.mem_active, List.take_of_length_le hle, List.take_of_length_le (Nat.le_succ_of_le hle)]
  | failed _ hp ha =>
    obtain ⟨B, hB, -⟩ := h.advance hm hp
    rw [hB] at ha
    nomatch ha
  | stuck _ hp ha | consumed _ hp ha =>
    obtain ⟨B, hB, hmem⟩ := h.advance hm hp
    obtain rfl := Except.ok.inj (hB.symm.trans ha)
    exact hmem q

/-- After `k` steps the active states are those that the first `k` symbols lead to. -/
theorem Run.mem_active_after (hm : m.WellFormed) (w : List String) (k : Nat) :
    q ∈ ((start m.simulator w).after k).active ↔ m.Attains (w.take k) q := by
  induction k generalizing q with
  | zero =>
    have hv : ((start m.simulator w).after 0).verdict = none := (tracks_start hm w).verdict
    obtain ⟨h, hposition⟩ := tracks_after hm hv
    rw [h.mem_active, hposition]
  | succ k ih =>
    cases hv : ((start m.simulator w).after k).verdict with
    | none =>
      obtain ⟨h, hposition⟩ := tracks_after hm hv
      rw [after, h.mem_active_next_step hm, hposition]
    | some v =>
      rw [after, (step_of_verdict hv).2, ih]
      -- A run that has halted is at the end of its input, or nothing is attained any more.
      have halted : ¬ (k ≤ w.length ∧ ∃ q, m.Attains (w.take k) q) := by
        rw [← verdict_after_eq_none_iff hm, hv]
        simp
      by_cases hk : k ≤ w.length
      · have unattained : ∀ q, ¬ m.Attains (w.take k) q := fun q hq => halted ⟨hk, q, hq⟩
        refine iff_of_false (unattained q) ?_
        intro hq
        obtain ⟨q', hq'⟩ := hq.take k
        rw [List.take_take, Nat.min_eq_left (Nat.le_succ k)] at hq'
        exact unattained q' hq'
      · have hle : w.length ≤ k := Nat.le_of_not_le hk
        rw [List.take_of_length_le hle, List.take_of_length_le (Nat.le_succ_of_le hle)]

lemma Verdict.Decides.unique {P : Prop} {v v' : Verdict} (h : v.Decides P) (h' : v'.Decides P) :
    v = v' := by
  cases v <;> cases v' <;> simp_all

/-- Two automata that attain something by the same words have the same verdicts at every step of a
word that both accept or neither. -/
lemma Run.verdict_after_congr (hm : m.WellFormed) (hm' : m'.WellFormed)
    (hattains : ∀ u, (∃ q, m'.Attains u q) ↔ ∃ q, m.Attains u q)
    (haccepts : m'.Accepts w ↔ m.Accepts w) (k : Nat) :
    ((start m'.simulator w).after k).verdict = ((start m.simulator w).after k).verdict := by
  have hnone : ((start m'.simulator w).after k).verdict = none ↔
      ((start m.simulator w).after k).verdict = none := by
    rw [verdict_after_eq_none_iff hm, verdict_after_eq_none_iff hm', hattains]
  have hsettles := Settles.after hm (.inl (tracks_start hm w)) k
  have hsettles' := Settles.after hm' (.inl (tracks_start hm' w)) k
  cases hv : ((start m.simulator w).after k).verdict with
  | none => rw [hnone.2 hv]
  | some v =>
    cases hv' : ((start m'.simulator w).after k).verdict with
    | none => rw [hnone.1 hv'] at hv; nomatch hv
    | some v' =>
      have h' := hsettles'.decides hv'
      rw [haccepts] at h'
      rw [h'.unique (hsettles.decides hv)]

/-! ### Morphisms -/

/-- `f` carries starts, edges and accepting states of `m` to those of `m'`. -/
structure Automaton.Morphism (f : String → String) (m m' : Automaton) : Prop where
  starts : ∀ p ∈ m.starts, f p ∈ m'.starts
  hasEdge : ∀ p x q, m.HasEdge p x q → m'.HasEdge (f p) x (f q)
  accepting : ∀ q ∈ m.accepting, f q ∈ m'.accepting

lemma Automaton.Morphism.move (h : Morphism f m m') (hmove : m.Move p u q) :
    m'.Move (f p) u (f q) := by
  cases hmove with
  | reading hedge => exact .reading (h.hasEdge _ _ _ hedge)
  | silent hedge => exact .silent (h.hasEdge _ _ _ hedge)
  | skipping a hedge => exact .skipping a (h.hasEdge _ _ _ hedge)

lemma Automaton.Morphism.moves (h : Morphism f m m') (hmoves : m.Moves p u q) :
    m'.Moves (f p) u (f q) := by
  induction hmoves with
  | refl => exact .refl
  | tail _ hmove ih => exact ih.tail (h.move hmove)

lemma Automaton.Morphism.attains (h : Morphism f m m') (hq : m.Attains u q) :
    m'.Attains u (f q) := by
  obtain ⟨p, hp, hmoves⟩ := hq
  exact ⟨f p, h.starts p hp, h.moves hmoves⟩

lemma Automaton.Morphism.accepts (h : Morphism f m m') (hw : m.Accepts w) : m'.Accepts w := by
  obtain ⟨q, hq, hattains⟩ := hw
  exact ⟨f q, h.accepting q hq, h.attains hattains⟩

/-! ### Transitions within transitions -/

/-- `t'` leads on the same symbol from the same source wherever `t` leads. -/
structure Transition.Within (t t' : Transition) : Prop where
  source_eq : t'.source = t.source
  symbol_eq : t'.symbol = t.symbol
  subset : t.targets ⊆ t'.targets
  length_le : t.targets.length ≤ t'.targets.length

/-- What stands in the list with fewer entries is related to an entry of the other. -/
lemma exists_of_sublistForall₂ {α β : Type} {R : α → β → Prop} {l : List α} {l' : List β}
    (h : List.SublistForall₂ R l l') : ∀ x ∈ l, ∃ y ∈ l', R x y := by
  induction h with
  | nil => simp
  | @cons a b l l' hab _ ih =>
    intro x hx
    rcases List.mem_cons.1 hx with rfl | hx
    · exact ⟨b, List.mem_cons_self, hab⟩
    · obtain ⟨y, hy, hxy⟩ := ih x hx
      exact ⟨y, List.mem_cons_of_mem b hy, hxy⟩
  | @cons_right b l l' _ ih =>
    intro x hx
    obtain ⟨y, hy, hxy⟩ := ih x hx
    exact ⟨y, List.mem_cons_of_mem b hy, hxy⟩

/-- Every transition of `m` is within one of `m'`. -/
structure Automaton.Within (m m' : Automaton) : Prop where
  alphabet : m.alphabet ⊆ m'.alphabet
  transitions : ∀ t ∈ m.transitions, ∃ t' ∈ m'.transitions, t.Within t'

lemma Automaton.Within.hasEdge (h : m.Within m') (hedge : m.HasEdge p x q) : m'.HasEdge p x q := by
  obtain ⟨t, ht, hp, hx, hq⟩ := hedge
  obtain ⟨t', ht', hwithin⟩ := h.transitions t ht
  exact ⟨t', ht', hwithin.source_eq.trans hp, hwithin.symbol_eq.trans hx, hwithin.subset hq⟩

/-- More transitions never make a non-deterministic automaton deterministic. -/
lemma Automaton.Within.nonDeterministic (h : m.Within m') (hm : m.classify = .nonDeterministic) :
    m'.classify = .nonDeterministic := by
  rw [classify_eq_nonDeterministic_iff, hasBranching_iff, hasEpsilon_iff] at hm ⊢
  rcases hm with ⟨t, ht, hsymbol, hlength⟩ | ⟨t, ht, hsymbol, hne⟩
  · left
    obtain ⟨t', ht', hwithin⟩ := h.transitions t ht
    refine ⟨t', ht', ?_, Nat.lt_of_lt_of_le hlength hwithin.length_le⟩
    rw [hwithin.symbol_eq]
    exact h.alphabet hsymbol
  · right
    obtain ⟨t', ht', hwithin⟩ := h.transitions t ht
    refine ⟨t', ht', hwithin.symbol_eq.trans hsymbol, ?_⟩
    intro he
    have hsubset := hwithin.subset
    rw [he] at hsubset
    exact hne (List.subset_nil.1 hsubset)

lemma Automaton.Within.deterministic (h : m.Within m') (hm' : m'.classify = .deterministic) :
    m.classify = .deterministic := by
  cases hd : m.classify with
  | deterministic => rfl
  | nonDeterministic => simp [h.nonDeterministic hd] at hm'

/-- The states stay as they are when transitions are put within others, provided that no start gets
lost where only the first initial state counts. -/
lemma Automaton.Within.morphism (h : m.Within m') (hinitial : m.initial ⊆ m'.initial)
    (hfirst : m'.classify = .deterministic → m'.initial.head? = m.initial.head?)
    (haccepting : m.accepting ⊆ m'.accepting) : Morphism id m m' where
  starts := by
    intro p hp
    show p ∈ m'.starts
    cases hd' : m'.classify with
    | nonDeterministic =>
      rw [starts, hd']
      exact hinitial (m.starts_subset hp)
    | deterministic =>
      rw [starts, h.deterministic hd', List.take_one, ← hfirst hd'] at hp
      rwa [starts, hd', List.take_one]
  hasEdge _ _ _ hedge := h.hasEdge hedge
  accepting _ hq := haccepting hq

/-! ### The same runs -/

/-- The labels that `f` gives to the members of a set. -/
def StateSet.image (f : String → String) (A : StateSet) : StateSet :=
  .ofList (A.toList.map f)

@[simp] lemma StateSet.mem_image {A : StateSet} : q ∈ A.image f ↔ ∃ p ∈ A, f p = q := by
  simp [image]

@[simp] lemma StateSet.image_id (A : StateSet) : A.image id = A :=
  StateSet.ext (by simp)

/-- `m'` is of the class of `m`, and at every step of its runs the active set is the one that `φ` makes
of the active set of `m`, and the verdict is the same. -/
def Automaton.RunsAlike (φ : StateSet → StateSet) (m m' : Automaton) : Prop :=
  m'.classify = m.classify ∧
    ∃ s s', Simulator.ofAutomaton m = .ok s ∧ Simulator.ofAutomaton m' = .ok s' ∧
      ∀ w, s'.accepts w = s.accepts w ∧
        ∀ k, ((Run.start s' w).after k).active = φ ((Run.start s w).after k).active ∧
          ((Run.start s' w).after k).verdict = ((Run.start s w).after k).verdict

/-- Automata with morphisms back and forth have the same runs. -/
theorem Automaton.runsAlike_of_morphisms (hm : m.WellFormed) (hm' : m'.WellFormed)
    (hclassify : m'.classify = m.classify) (hf : Morphism f m m') (hg : Morphism g m' m)
    (hfg : ∀ q ∈ m'.states, f (g q) = q) : RunsAlike (.image f) m m' := by
  have hattains : ∀ u q, m'.Attains u q ↔ ∃ p, m.Attains u p ∧ f p = q := by
    intro u q
    constructor
    · intro hq
      exact ⟨g q, hg.attains hq, hfg q (hq.mem_states hm'.toSound)⟩
    · rintro ⟨p, hp, rfl⟩
      exact hf.attains hp
  have haccepts : ∀ w, m'.Accepts w ↔ m.Accepts w := fun w => ⟨hg.accepts, hf.accepts⟩
  refine ⟨hclassify, m.simulator, m'.simulator, Simulator.ofAutomaton_eq_ok hm.initial_ne_nil,
    Simulator.ofAutomaton_eq_ok hm'.initial_ne_nil, ?_⟩
  intro w
  refine ⟨?_, fun k => ⟨?_, ?_⟩⟩
  · by_cases hw : m.Accepts w
    · rw [(accepts_simulator hm w).1.2 hw, (accepts_simulator hm' w).1.2 ((haccepts w).2 hw)]
    · have hw' : ¬ m'.Accepts w := fun hw' => hw ((haccepts w).1 hw')
      rw [(accepts_simulator hm w).2.2 hw, (accepts_simulator hm' w).2.2 hw']
  · apply StateSet.ext
    intro q
    simp only [StateSet.mem_image, Run.mem_active_after hm, Run.mem_active_after hm', hattains]
  · apply Run.verdict_after_congr hm hm' _ (haccepts w)
    intro u
    simp only [hattains]
    constructor
    · rintro ⟨q, p, hp, -⟩
      exact ⟨p, hp⟩
    · rintro ⟨p, hp⟩
      exact ⟨f p, p, hp, rfl⟩

end Automata
