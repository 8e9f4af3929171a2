import Automata.Proofs.WellFormed
import Automata.Random.Sample
import Mathlib

/-!
# What draws can give

Whatever words a source hands out, a draw gives what its distribution allows. So nothing is said of
sources: `d.Gives a` when `d` draws `a` from some source, and for every draw an inversion lemma says
what the drawn values have in common. In the end every automaton that is drawn is well formed, and
every text that is drawn is one over its symbols.
-/

namespace Automata.Random

variable {σ α β : Type}

/-- Some source makes `d` draw `a`. -/
def Draw.Gives (d : Draw σ α) (a : α) : Prop :=
  ∃ s, (d.run s).1 = a

/-! ### Sequences of draws -/

lemma Draw.gives_run (d : Draw σ α) (s : σ) : d.Gives (d s).1 :=
  ⟨s, rfl⟩

lemma Draw.Gives.of_pure {a b : α} (h : (pure a : Draw σ α).Gives b) : b = a := by
  obtain ⟨s, rfl⟩ := h
  rfl

lemma Draw.Gives.of_bind {d : Draw σ α} {f : α → Draw σ β} {b : β} (h : (d >>= f).Gives b) :
    ∃ a, d.Gives a ∧ (f a).Gives b := by
  obtain ⟨s, rfl⟩ := h
  exact ⟨(d.run s).1, ⟨s, rfl⟩, (d.run s).2, rfl⟩

/-- Draws for the entries of a list give one value for each. -/
lemma Draw.Gives.of_mapM {f : α → Draw σ β} {l : List α} {bs : List β} (h : (l.mapM f).Gives bs) :
    List.Forall₂ (fun a b => (f a).Gives b) l bs := by
  induction l generalizing bs with
  | nil =>
    rw [List.mapM_nil] at h
    obtain rfl := h.of_pure
    exact .nil
  | cons a l ih =>
    rw [List.mapM_cons] at h
    obtain ⟨b, hb, h⟩ := h.of_bind
    obtain ⟨bs', hbs, h⟩ := h.of_bind
    obtain rfl := h.of_pure
    exact .cons hb (ih hbs)

lemma Draw.Gives.exists_of_mem {f : α → Draw σ β} {l : List α} {bs : List β} {b : β}
    (h : (l.mapM f).Gives bs) (hb : b ∈ bs) : ∃ a ∈ l, (f a).Gives b := by
  obtain ⟨i, hi, rfl⟩ := List.mem_iff_getElem.1 hb
  obtain ⟨hlength, hget⟩ := List.forall₂_iff_get.1 h.of_mapM
  exact ⟨l.get ⟨i, hlength ▸ hi⟩, List.get_mem _ _, hget i (hlength ▸ hi) hi⟩

/-! ### Numbers -/

variable [WordSource σ]

lemma Draw.Gives.of_between {low high n : Nat} (h : (between low high : Draw σ Nat).Gives n)
    (hle : low ≤ high) : low ≤ n ∧ n ≤ high := by
  obtain ⟨i, -, h⟩ := h.of_bind
  obtain rfl := h.of_pure
  omega

/-- What is taken in was not in before, and is `j` at most. -/
lemma Draw.Gives.of_chooseFurther {chosen l : List Nat} {j : Nat}
    (h : (chooseFurther chosen j : Draw σ (List Nat)).Gives l) (hj : ∀ i ∈ chosen, i < j) :
    ∃ i, i ≤ j ∧ i ∉ chosen ∧ l = i :: chosen := by
  obtain ⟨t, -, h⟩ := h.of_bind
  refine ⟨_, ?_, ?_, h.of_pure⟩
  · split
    · exact le_refl j
    · exact Nat.lt_succ_iff.1 t.isLt
  · split
    · -- All numbers that are in are below `j`, so `j` itself can always stand in.
      exact fun hmem => lt_irrefl j (hj j hmem)
    · simpa using ‹¬ chosen.contains t.val = true›

/-- Taking in numbers up to `j`, `j + 1`, … keeps them distinct. -/
lemma Draw.Gives.of_foldlM_chooseFurther {chosen l : List Nat} {j k : Nat}
    (h : ((List.range' j k).foldlM chooseFurther chosen : Draw σ (List Nat)).Gives l)
    (hchosen : chosen.Nodup) (hj : ∀ i ∈ chosen, i < j) :
    l.Nodup ∧ (∀ i ∈ l, i < j + k) ∧ l.length = chosen.length + k := by
  induction k generalizing chosen j with
  | zero =>
    rw [List.range'_zero, List.foldlM_nil] at h
    obtain rfl := h.of_pure
    exact ⟨hchosen, hj, rfl⟩
  | succ k ih =>
    rw [List.range'_succ, List.foldlM_cons] at h
    obtain ⟨chosen', hchosen', h⟩ := h.of_bind
    obtain ⟨i, hi, hnew, rfl⟩ := hchosen'.of_chooseFurther hj
    have hj' : ∀ n ∈ i :: chosen, n < j + 1 := by
      intro n hn
      rcases List.mem_cons.1 hn with rfl | hn
      · omega
      · exact Nat.lt_succ_of_lt (hj n hn)
    obtain ⟨hnodup, hlt, hlength⟩ := ih h (hchosen.cons hnew) hj'
    refine ⟨hnodup, fun n hn => ?_, ?_⟩
    · have := hlt n hn
      omega
    · rw [hlength, List.length_cons]
      omega

/-- Distinct numbers are drawn below the bound, as many as are asked for and there are, in order. -/
lemma Draw.Gives.of_distinct {bound amount : Nat} {l : List Nat}
    (h : (distinct bound amount : Draw σ (List Nat)).Gives l) :
    l.Sublist (List.range bound) ∧ l.length = min amount bound := by
  obtain ⟨chosen, hchosen, h⟩ := h.of_bind
  obtain rfl := h.of_pure
  obtain ⟨hnodup, hlt, hlength⟩ := hchosen.of_foldlM_chooseFurther List.nodup_nil (by simp)
  refine ⟨List.filter_sublist, ?_⟩
  have hperm : ((List.range bound).filter chosen.contains).Perm chosen := by
    rw [List.perm_ext_iff_of_nodup (List.nodup_range.filter _) hnodup]
    intro i
    have hbound : i ∈ chosen → i < bound := by
      intro hi
      have := hlt i hi
      omega
    simpa using hbound
  rw [hperm.length_eq, hlength, List.length_nil, Nat.zero_add]

lemma Draw.Gives.of_targetCount {kind : Determinism} {n : Nat}
    (h : (targetCount kind : Draw σ Nat).Gives n) : 1 ≤ n ∧ n ≤ maxTargets := by
  cases kind with
  | deterministic =>
    obtain rfl := h.of_pure
    decide
  | nonDeterministic => exact h.of_between (by decide)

/-! ### Entries of a list -/

lemma Draw.Gives.of_choose {x y : α} {l : List α} (h : (choose x l : Draw σ α).Gives y) :
    y ∈ x :: l := by
  obtain ⟨i, -, h⟩ := h.of_bind
  obtain rfl := h.of_pure
  exact List.get_mem _ _

/-- A text is drawn by joining one to fifteen symbols, unless there are none to choose from. -/
lemma Draw.Gives.of_randomInput {alphabet : List String} {text : String}
    (h : (randomInput alphabet : Draw σ String).Gives text) :
    (alphabet = [] ∧ text = "") ∨
      ∃ w, w ⊆ alphabet ∧ 1 ≤ w.length ∧ w.length ≤ maxInputLength ∧ text = String.join w := by
  cases alphabet with
  | nil => exact .inl ⟨rfl, h.of_pure⟩
  | cons x l =>
    obtain ⟨n, hn, h⟩ := h.of_bind
    obtain ⟨w, hw, h⟩ := h.of_bind
    obtain rfl := h.of_pure
    have hlength : w.length = n := by simpa using hw.of_mapM.length_eq.symm
    obtain ⟨hpos, hmost⟩ := hn.of_between (by decide)
    refine .inr ⟨w, fun y hy => ?_, by omega, by omega, rfl⟩
    obtain ⟨-, -, hy⟩ := hw.exists_of_mem hy
    exact hy.of_choose

/-! ### Automata -/

lemma stateLabel_injective : Function.Injective stateLabel := by
  intro i j h
  simpa [stateLabel] using h

/-- The labels of the first `count` states. -/
def sampleStates (count : Nat) : List String :=
  (List.range count).map stateLabel

lemma nodup_map_stateLabel {count : Nat} {l : List Nat} (h : l.Sublist (List.range count)) :
    (l.map stateLabel).Nodup :=
  (List.nodup_range.sublist h).map stateLabel_injective

lemma map_stateLabel_subset {count : Nat} {l : List Nat} (h : l.Sublist (List.range count)) :
    l.map stateLabel ⊆ sampleStates count :=
  List.map_subset _ h.subset

/-- `t` leads to distinct states of the first `count`, as many as a transition may lead to. -/
structure IsSample (kind : Determinism) (count : Nat) (t : Transition) : Prop where
  numbers : ∃ l : List Nat, l.Sublist (List.range count) ∧ t.targets = l.map stateLabel
  length_pos : 0 < t.targets.length
  length_le : t.targets.length ≤ maxTargets
  length_eq : kind = .deterministic → t.targets.length = 1

lemma Draw.Gives.of_randomTransition {kind : Determinism} {count : Nat} {source symbol : String}
    {t : Transition} (h : (randomTransition kind count source symbol : Draw σ Transition).Gives t)
    (hcount : 0 < count) : (t.source, t.symbol) = (source, symbol) ∧ IsSample kind count t := by
  obtain ⟨amount, hamount, h⟩ := h.of_bind
  obtain ⟨targets, htargets, h⟩ := h.of_bind
  obtain rfl := h.of_pure
  obtain ⟨hsublist, hlength⟩ := htargets.of_distinct
  obtain ⟨hpos, hmost⟩ := hamount.of_targetCount
  refine ⟨rfl, ⟨targets, hsublist, rfl⟩, ?_, ?_, ?_⟩
  · rw [List.length_map, hlength]
    exact lt_min hpos hcount
  · rw [List.length_map, hlength]
    exact (min_le_left _ _).trans hmost
  · rintro rfl
    obtain rfl := hamount.of_pure
    rw [List.length_map, hlength]
    exact min_eq_left hcount

/-- `m` is made up of the first `count` states as random automata are. -/
structure IsRandom (kind : Determinism) (count : Nat) (m : Automaton) : Prop where
  count_ge : minStates ≤ count
  count_le : count ≤ maxStates
  states : m.states = sampleStates count
  initial : ∃ i, i < count ∧ m.initial = [stateLabel i]
  accepting : ∃ l : List Nat, l.Sublist (List.range count) ∧ m.accepting = l.map stateLabel
  accepting_pos : 0 < m.accepting.length
  accepting_le : m.accepting.length ≤ count / 2
  alphabet : m.alphabet = sampleAlphabet
  keys : m.transitions.map (fun t => (t.source, t.symbol)) = sampleStates count ×ˢ sampleAlphabet
  samples : ∀ t ∈ m.transitions, IsSample kind count t

/-- Every random automaton is made up so. -/
theorem Draw.Gives.of_randomAutomaton {kind : Determinism} {m : Automaton}
    (h : (randomAutomaton kind : Draw σ Automaton).Gives m) : ∃ count, IsRandom kind count m := by
  obtain ⟨count, hcount, h⟩ := h.of_bind
  obtain ⟨initial, -, h⟩ := h.of_bind
  obtain ⟨amount, hamount, h⟩ := h.of_bind
  obtain ⟨accepting, haccepting, h⟩ := h.of_bind
  obtain ⟨transitions, htransitions, h⟩ := h.of_bind
  obtain rfl := h.of_pure
  obtain ⟨hge, hle⟩ := hcount.of_between (by decide)
  have hleast : 3 ≤ count := hge
  obtain ⟨hpos, hhalf⟩ := hamount.of_between (by omega)
  obtain ⟨hsublist, hlength⟩ := haccepting.of_distinct
  have hinitial := initial.isLt
  exact ⟨count,
    { count_ge := hge
      count_le := hle
      states := rfl
      initial := ⟨initial, by omega, rfl⟩
      accepting := ⟨accepting, hsublist, rfl⟩
      accepting_pos := by
        rw [List.length_map, hlength]
        exact lt_min hpos (by omega)
      accepting_le := by
        rw [List.length_map, hlength]
        exact (min_le_left _ _).trans hhalf
      alphabet := rfl
      keys := by
        rw [← List.forall₂_eq_eq_eq, List.forall₂_map_left_iff]
        exact htransitions.of_mapM.flip.imp fun t pair ht =>
          (Draw.Gives.of_randomTransition ht (by omega)).1
      samples := by
        intro t ht
        obtain ⟨pair, -, hpair⟩ := htransitions.exists_of_mem ht
        exact (Draw.Gives.of_randomTransition hpair (by omega)).2 }⟩

variable {kind : Determinism} {count : Nat} {m : Automaton}

/-- Every transition leads from a state on a symbol. -/
lemma IsRandom.source_symbol_mem (h : IsRandom kind count m) {t : Transition}
    (ht : t ∈ m.transitions) : t.source ∈ m.states ∧ t.symbol ∈ m.alphabet := by
  have hmem : (t.source, t.symbol) ∈ m.transitions.map fun t => (t.source, t.symbol) :=
    List.mem_map_of_mem ht
  rw [h.keys] at hmem
  rw [h.states, h.alphabet]
  exact List.mem_product.1 hmem

/-- Random automata are well formed. -/
theorem IsRandom.wellFormed (h : IsRandom kind count m) : m.WellFormed where
  states_ne_nil he := by
    have hlength : (sampleStates count).length = 0 := by rw [← h.states, he, List.length_nil]
    have hleast : 3 ≤ count := h.count_ge
    simp [sampleStates] at hlength
    omega
  nodup_states := by
    rw [h.states]
    exact nodup_map_stateLabel (.refl _)
  initial_ne_nil he := by
    obtain ⟨i, -, hi⟩ := h.initial
    simp [hi] at he
  initial_subset := by
    obtain ⟨i, hlt, hi⟩ := h.initial
    rw [hi, h.states]
    exact List.cons_subset.2 ⟨List.mem_map_of_mem (List.mem_range.2 hlt), List.nil_subset _⟩
  accepting_subset := by
    obtain ⟨l, hl, haccepting⟩ := h.accepting
    rw [haccepting, h.states]
    exact map_stateLabel_subset hl
  source_mem t ht := (h.source_symbol_mem ht).1
  targets_subset t ht := by
    obtain ⟨l, hl, htargets⟩ := (h.samples t ht).numbers
    rw [htargets, h.states]
    exact map_stateLabel_subset hl
  symbol_mem t ht := .inr (h.source_symbol_mem ht).2
  targets_ne_nil t ht := List.length_pos_iff.1 (h.samples t ht).length_pos
  nodup_targets t ht := by
    obtain ⟨l, hl, htargets⟩ := (h.samples t ht).numbers
    rw [htargets]
    exact nodup_map_stateLabel hl
  nodup_keys := by
    rw [h.keys]
    exact (nodup_map_stateLabel (.refl _)).product (by decide)

end Automata.Random
