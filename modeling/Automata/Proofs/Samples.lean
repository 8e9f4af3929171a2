import Automata.Proofs.Calls
import Automata.Proofs.Draws
import Automata.Proofs.Safety
import Automata.Proofs.WrittenSize

/-!
# Random automata can be used

A random automaton has an edge from every state on every symbol, and every symbol takes a run of such
an automaton to some state. So a run on a text over its symbols reads the text to the end. It is also
small, and its labels are short; so what is written for it is far from the size limit.
-/

namespace Automata

variable {m : Automaton} {w : List String} {r : Run}

/-! ### Total automata -/

/-- Every state has an edge on every symbol. -/
def Automaton.Total (m : Automaton) : Prop :=
  ∀ p ∈ m.states, ∀ a ∈ m.alphabet, ∃ q, m.HasEdge p a q

/-- A total automaton can read all words over its alphabet. -/
lemma Automaton.Total.exists_attains (ht : m.Total) (hm : m.Sound) (hw : w ⊆ m.alphabet) :
    ∃ q, m.Attains w q := by
  induction w using List.reverseRecOn with
  | nil =>
    obtain ⟨p, hp⟩ := exists_mem_starts hm
    exact ⟨p, p, hp, .refl⟩
  | append_singleton w a ih =>
    obtain ⟨hw, ha⟩ := List.append_subset.1 hw
    obtain ⟨q, hq⟩ := ih hw
    obtain ⟨r, hedge⟩ := ht q (hq.mem_states hm) a (ha (List.mem_singleton_self a))
    exact ⟨r, attains_concat_iff.2 ⟨q, r, hq, .reading hedge, .refl⟩⟩

/-- `r` consumes `n` symbols, one with each step and some state always active, and then it halts with
an answer. -/
structure Run.Completes (r : Run) (n : Nat) : Prop where
  step : ∀ k < n, (r.after k).step.verdict? = none
  position : ∀ k ≤ n, (r.after k).position = k
  active : ∀ k ≤ n, ∃ q, q ∈ (r.after k).active
  verdict : r.finish.1 = .accept ∨ r.finish.1 = .reject
  position_finish : r.finish.2.position = n
  active_finish : r.finish.2.active = (r.after n).active

lemma Run.finalVerdict_eq (r : Run) : r.finalVerdict = .accept ∨ r.finalVerdict = .reject := by
  rw [finalVerdict]
  split
  · exact .inl rfl
  · exact .inr rfl

/-- A run completes its input if the input leads to some state, as all its beginnings then do. -/
lemma Run.completes_of_attains (hm : m.WellFormed) (hw : ∃ q, m.Attains w q) :
    (start m.simulator w).Completes w.length := by
  obtain ⟨q, hq⟩ := hw
  have verdict : ∀ k ≤ w.length, ((start m.simulator w).after k).verdict = none :=
    fun k hk => (verdict_after_eq_none_iff hm k).2 ⟨hk, hq.take k⟩
  have tracks := fun k hk => tracks_after hm (verdict k hk)
  have step : ∀ k < w.length, ((start m.simulator w).after k).step.verdict? = none := by
    intro k hk
    rw [← verdict_next_step]
    exact verdict (k + 1) hk
  obtain ⟨hlast, hposition⟩ := tracks w.length le_rfl
  -- When the whole input is consumed, one more step halts.
  obtain ⟨hverdict, hnext⟩ := StepsTo.eq_step
    (.finished hlast.verdict (by rw [hlast.input, List.size_toArray, hposition]))
  obtain ⟨k, hk, -, hsome, hfinish⟩ := (start m.simulator w).exists_finish_eq_after
  obtain rfl : k = w.length := by
    refine le_antisymm (by simpa [remaining] using hk) (le_of_not_gt fun hlt => ?_)
    exact Option.some_ne_none _ (hsome.symm.trans (step k hlt))
  rw [hverdict, Option.some_inj] at hsome
  rw [after, hnext] at hfinish
  exact
    { step := step
      position := fun k hk => (tracks k hk).2
      active := by
        intro k hk
        obtain ⟨htracks, -⟩ := tracks k hk
        exact htracks.exists_attains.imp fun q hq => (htracks.mem_active q).2 hq
      verdict := hsome ▸ finalVerdict_eq _
      position_finish := by
        rw [hfinish]
        exact hposition
      active_finish := by rw [hfinish]; rfl }

end Automata

namespace Automata.Random

variable {kind : Determinism} {count : Nat} {m : Automaton}

/-! ### The shape of random automata -/

/-- What an automaton that was drawn for a class looks like: three to six states, one of them initial
and up to half of them accepting, and for every state and symbol one transition. -/
structure HasShape (kind : Determinism) (m : Automaton) : Prop where
  states_length : 3 ≤ m.states.length ∧ m.states.length ≤ 6
  nodup_states : m.states.Nodup
  initial : ∃ q ∈ m.states, m.initial = [q]
  accepting_subset : m.accepting ⊆ m.states
  nodup_accepting : m.accepting.Nodup
  accepting_length : 1 ≤ m.accepting.length ∧ m.accepting.length ≤ m.states.length / 2
  alphabet : m.alphabet = ["a", "b", "c"]
  keys : m.transitions.map (fun t => (t.source, t.symbol)) = m.states ×ˢ m.alphabet
  targets_subset : ∀ t ∈ m.transitions, t.targets ⊆ m.states
  nodup_targets : ∀ t ∈ m.transitions, t.targets.Nodup
  targets_length : ∀ t ∈ m.transitions, 1 ≤ t.targets.length ∧ t.targets.length ≤ 3
  deterministic : kind = .deterministic → ∀ t ∈ m.transitions, t.targets.length = 1

lemma length_sampleStates (count : Nat) : (sampleStates count).length = count := by
  simp [sampleStates]

lemma IsRandom.hasShape (h : IsRandom kind count m) : HasShape kind m where
  states_length := by
    rw [h.states, length_sampleStates]
    exact ⟨h.count_ge, h.count_le⟩
  nodup_states := h.wellFormed.nodup_states
  initial := by
    obtain ⟨i, hlt, hi⟩ := h.initial
    refine ⟨stateLabel i, ?_, hi⟩
    rw [h.states]
    exact List.mem_map_of_mem (List.mem_range.2 hlt)
  accepting_subset := h.wellFormed.accepting_subset
  nodup_accepting := by
    obtain ⟨l, hl, haccepting⟩ := h.accepting
    rw [haccepting]
    exact nodup_map_stateLabel hl
  accepting_length := by
    rw [h.states, length_sampleStates]
    exact ⟨h.accepting_pos, h.accepting_le⟩
  alphabet := h.alphabet
  keys := by rw [h.keys, h.states, h.alphabet]
  targets_subset := h.wellFormed.targets_subset
  nodup_targets := h.wellFormed.nodup_targets
  targets_length t ht := ⟨(h.samples t ht).length_pos, (h.samples t ht).length_le⟩
  deterministic hk t ht := (h.samples t ht).length_eq hk

lemma HasShape.total (h : HasShape kind m) : m.Total := by
  intro p hp a ha
  have hmem : (p, a) ∈ m.transitions.map fun t => (t.source, t.symbol) := by
    rw [h.keys]
    exact List.mem_product.2 ⟨hp, ha⟩
  obtain ⟨t, ht, heq⟩ := List.mem_map.1 hmem
  obtain ⟨hsource, hsymbol⟩ := Prod.mk.inj heq
  obtain ⟨q, hq⟩ := List.exists_mem_of_length_pos (h.targets_length t ht).1
  exact ⟨q, t, ht, hsource, hsymbol, hq⟩

/-- Whoever asks for a deterministic automaton gets one. -/
lemma HasShape.classify_eq (h : HasShape .deterministic m) : m.classify = .deterministic := by
  rw [Automaton.classify_eq_deterministic_iff, Bool.eq_false_iff, Bool.eq_false_iff]
  constructor
  · intro hbranching
    obtain ⟨t, ht, -, hlength⟩ := m.hasBranching_iff.1 hbranching
    exact absurd (h.deterministic rfl t ht) (Nat.ne_of_gt hlength)
  · intro hepsilon
    obtain ⟨t, ht, hsymbol, -⟩ := m.hasEpsilon_iff.1 hepsilon
    have hmem : (t.source, t.symbol) ∈ m.states ×ˢ m.alphabet := by
      rw [← h.keys]
      exact List.mem_map_of_mem ht
    rw [hsymbol, h.alphabet] at hmem
    exact absurd (List.mem_product.1 hmem).2 (by decide)

/-! ### Writing random automata -/

lemma forall_mem_sampleStates {P : String → Prop} (hP : ∀ i < maxStates, P (stateLabel i))
    (hcount : count ≤ maxStates) : ∀ s ∈ sampleStates count, P s := by
  intro s hs
  obtain ⟨i, hi, rfl⟩ := List.mem_map.1 hs
  exact hP i ((List.mem_range.1 hi).trans_le hcount)

lemma IsRandom.isLabelled (h : IsRandom kind count m) : Specification.IsLabelled m where
  states := by
    rw [h.states]
    exact forall_mem_sampleStates (by decide) h.count_le
  alphabet := by
    rw [h.alphabet]
    decide

lemma IsRandom.size_state_le (h : IsRandom kind count m) : ∀ s ∈ m.states, s.utf8ByteSize ≤ 2 := by
  rw [h.states]
  exact forall_mem_sampleStates (by decide) h.count_le

lemma IsRandom.size_symbol_le (h : IsRandom kind count m) :
    ∀ a ∈ m.alphabet, a.utf8ByteSize ≤ 1 := by
  rw [h.alphabet]
  decide

lemma IsRandom.size_transitionLine_le (h : IsRandom kind count m) {t : Transition}
    (ht : t ∈ m.transitions) : (Specification.transitionLine t).utf8ByteSize ≤ 14 := by
  obtain ⟨hstate, hmem⟩ := h.source_symbol_mem ht
  have hsource := h.size_state_le _ hstate
  have hsymbol := h.size_symbol_le _ hmem
  have htargets := Specification.size_intercalate_le "," (by decide)
    fun q hq => h.size_state_le q (h.wellFormed.targets_subset t ht hq)
  have hmost : t.targets.length ≤ 3 := (h.samples t ht).length_le
  have hmarks : ":".utf8ByteSize = 1 ∧ ">".utf8ByteSize = 1 := by decide
  simp only [Specification.transitionLine, Transition.key, String.utf8ByteSize_append]
  omega

lemma IsRandom.size_line_le (h : IsRandom kind count m) :
    ∀ l ∈ Specification.linesOf m, l.utf8ByteSize ≤ 14 := by
  have state : ∀ s ∈ m.states, s.utf8ByteSize ≤ 14 :=
    fun s hs => (h.size_state_le s hs).trans (by decide)
  simp only [Specification.linesOf, List.forall_mem_append, List.forall_mem_cons,
    List.forall_mem_map]
  exact ⟨⟨⟨⟨⟨by decide, state⟩, by decide, fun s hs => state s (h.wellFormed.initial_subset hs)⟩,
    by decide, fun s hs => state s (h.wellFormed.accepting_subset hs)⟩, by decide,
    fun a ha => (h.size_symbol_le a ha).trans (by decide)⟩, by decide,
    fun t ht => h.size_transitionLine_le ht⟩

/-- Five markers, six states, an initial one, three accepting ones, three symbols, and a transition
for each state and symbol are the most that there can be. -/
lemma HasShape.length_linesOf_le (h : HasShape kind m) :
    (Specification.linesOf m).length ≤ 36 := by
  have hstates := h.states_length.2
  have haccepting := h.accepting_length.2
  have hinitial : m.initial.length = 1 := by
    obtain ⟨q, -, hq⟩ := h.initial
    rw [hq, List.length_singleton]
  have halphabet : m.alphabet.length = 3 := by
    rw [h.alphabet]
    rfl
  have htransitions : m.transitions.length = m.states.length * m.alphabet.length := by
    rw [← List.length_product, ← List.length_map fun t : Transition => (t.source, t.symbol),
      h.keys]
  simp only [Specification.linesOf, List.length_append, List.length_cons, List.length_map,
    htransitions, halphabet, hinitial]
  omega

lemma IsRandom.size_encode_le (h : IsRandom kind count m) :
    (Specification.encode m).utf8ByteSize ≤ maxSpecificationSize :=
  calc (Specification.encode m).utf8ByteSize
    _ ≤ (Specification.linesOf m).length * (14 + 1) :=
      Specification.size_intercalate_le "\n" (by decide) h.size_line_le
    _ ≤ 36 * (14 + 1) := Nat.mul_le_mul_right _ h.hasShape.length_linesOf_le
    _ ≤ maxSpecificationSize := by decide

/-! ### Texts over the symbols -/

lemma length_symbolsOf (text : String) : (symbolsOf text).length = text.length := by
  rw [symbolsOf, List.length_map, String.length_toList]

/-- A text joined from single characters is read back as it was joined. -/
lemma symbolsOf_join {w : List String} (hw : ∀ a ∈ w, ∃ c, a = String.singleton c) :
    symbolsOf (String.join w) = w := by
  induction w with
  | nil => rfl
  | cons a w ih =>
    obtain ⟨⟨c, rfl⟩, hrest⟩ := List.forall_mem_cons.1 hw
    have ih := ih hrest
    rw [symbolsOf] at ih ⊢
    rw [String.join_cons, String.toList_append, List.map_append, ih]
    simp

/-- A text that is drawn for a random automaton has one to fifteen characters, all of them symbols. -/
lemma HasShape.of_randomInput {σ : Type} [WordSource σ] (h : HasShape kind m) {text : String}
    (htext : (randomInput m.alphabet : Draw σ String).Gives text) :
    1 ≤ text.length ∧ text.length ≤ 15 ∧ symbolsOf text ⊆ m.alphabet := by
  rcases htext.of_randomInput with ⟨hnil, -⟩ | ⟨w, hw, hpos, hmost, rfl⟩
  · rw [h.alphabet] at hnil
    exact absurd hnil (List.cons_ne_nil _ _)
  · have hchar : ∀ a ∈ m.alphabet, ∃ c, a = String.singleton c := by
      rw [h.alphabet]
      simpa using ⟨⟨'a', rfl⟩, ⟨'b', rfl⟩, ⟨'c', rfl⟩⟩
    have hsymbols : symbolsOf (String.join w) = w := symbolsOf_join fun a ha => hchar a (hw ha)
    rw [← length_symbolsOf, hsymbols]
    exact ⟨hpos, hmost, hw⟩

/-- Whatever words the source hands out, the automaton that is drawn has the shape that was asked
for. It is valid, it is read back from what is written for it, and one that shall be deterministic is
so classified. Its runs complete every text over its symbols, such as those that are drawn for it. -/
theorem randomAutomaton_usable {σ : Type} [WordSource σ] (kind : Determinism) (words : σ) :
    let m := ((randomAutomaton kind).run words).1
    HasShape kind m ∧ m.validate = .ok () ∧
      Specification.parse (Specification.encode m) = .ok m ∧
      (kind = .deterministic → m.classify = .deterministic) ∧
      ∃ s, Simulator.ofAutomaton m = .ok s ∧
        (∀ text, symbolsOf text ⊆ m.alphabet →
          (Run.start s (symbolsOf text)).Completes text.length ∧ ∃ b, s.acceptsText text = .ok b) ∧
        ∀ words' : σ, let text := ((randomInput m.alphabet).run words').1
          1 ≤ text.length ∧ text.length ≤ 15 ∧ symbolsOf text ⊆ m.alphabet := by
  intro m
  obtain ⟨count, hm⟩ := (Draw.gives_run (randomAutomaton kind) words).of_randomAutomaton
  change IsRandom kind count m at hm
  have hw := hm.wellFormed
  have hshape := hm.hasShape
  refine ⟨hshape, m.validate_eq_ok_iff.2 hw.toSound,
    Specification.parse_encode_of_size_le hw hm.isLabelled hm.size_encode_le, ?_, m.simulator,
    Simulator.ofAutomaton_eq_ok hw.initial_ne_nil, fun text htext => ⟨?_, ?_⟩, fun words' => ?_⟩
  · rintro rfl
    exact hshape.classify_eq
  · rw [← length_symbolsOf text]
    exact Run.completes_of_attains hw (hshape.total.exists_attains hw.toSound htext)
  · exact Automaton.exists_accepts hw _
  · exact hshape.of_randomInput (Draw.gives_run (randomInput m.alphabet) words')

end Automata.Random
